import OrpsocCores.WbPort.Model

/-!
# The ports behind one controller

`wb_port_arbiter.v` puts several ports in front of one DDR controller.  On `sdram_clk`
it hands the controller to one port at a time, in turn.  On `wb_clk` it tells every
port of the writes that the other ports acknowledge, through one register set for each
port which a loop over the other ports fills: the last port that presents a write
decides what the set holds.
-/

set_option autoImplicit false

namespace OrpsocCores.WbPortArbiter

open Wishbone WbPort

variable {n : Nat} {bw : Fin n → Nat}

/-- `p_bufw_adr`, `p_bufw_dat`, `p_bufw_sel` and `p_bufw_we` of one port. -/
structure Bufw where
  adr : BitVec 32
  dat : BitVec 32
  sel : BitVec 4
  we : Bool
  deriving DecidableEq

/-- The inputs sampled at an edge of `wb_clk`. -/
structure WbInputs (n : Nat) where
  wbRst : Bool
  bus : Fin n → Bus

/-- The inputs sampled at an edge of `sdram_clk`. -/
structure SdramInputs where
  sdramRst : Bool
  sdramIdleI : Bool
  adrI : BitVec 32
  datI : BitVec 32
  ackI : Bool

/-- One instant of a run: the clocks that have an edge. -/
structure Instant (n : Nat) where
  wb : Option (WbInputs n)
  sdram : Option SdramInputs

/-- The ports and the registers of the arbiter. -/
structure Arbiter (bw : Fin n → Nat) where
  ports : (k : Fin n) → Port (bw k)
  bufw : Fin n → Bufw
  portSel : BitVec n
  portEnc : BitVec n

/-! ## Handing over the controller -/

/-- The loop of `round_robin`: the remaining rounds, the rotated selection and the
grant so far. -/
def roundRobinLoop (req : BitVec n) : Nat → BitVec n → BitVec n → BitVec n
  | 0, _, grant => grant
  | rounds + 1, temp, grant =>
      let temp := temp.rotateRight 1
      roundRobinLoop req rounds temp (if temp &&& req ≠ 0 ∧ grant = 0 then temp else grant)

/-- `round_robin`. -/
def roundRobin (current req : BitVec n) : BitVec n :=
  let grant := roundRobinLoop req n current 0
  if grant ≠ 0 then grant else current

/-- The loop of `ff1`, from bit `i - 1` downwards; a later assignment wins. -/
def ff1Loop (x : BitVec n) : Nat → BitVec n → BitVec n
  | 0, found => found
  | i + 1, found => ff1Loop x i (if x.getLsbD i then BitVec.ofNat n i else found)

/-- `ff1`. -/
def ff1 (x : BitVec n) : BitVec n := ff1Loop x n 0

namespace Arbiter

/-- `p_acc_o`. -/
def accO (s : Arbiter bw) : BitVec n :=
  (BitVec.ofBoolListLE ((List.finRange n).map fun k => (s.ports k).sdram.accO)).setWidth n

/-- `safe_to_switch`. -/
def safeToSwitch (s : Arbiter bw) (inputs : SdramInputs) : Bool :=
  inputs.sdramIdleI && !s.accO.getLsbD s.portEnc.toNat

/-- `port_sel` and `port_enc` after an edge of `sdram_clk`. -/
def selectionAfter (s : Arbiter bw) (inputs : SdramInputs) : BitVec n × BitVec n :=
  if inputs.sdramRst then (BitVec.ofNat n 1, 0)
  else if s.safeToSwitch inputs then
    (roundRobin s.portSel s.accO, ff1 (roundRobin s.portSel s.accO))
  else (s.portSel, s.portEnc)

/-! ## Telling the other ports -/

/-- `wbp_ack_o`. -/
def wbAckO (s : Arbiter bw) (k : Fin n) : Bool := (s.ports k).wb.wbAckO (s.ports k).full

/-- One round of the inner loop for port `k`. -/
def bufwRound (s : Arbiter bw) (inputs : WbInputs n) (k : Fin n) (slot : Bufw) (j : Fin n) :
    Bufw :=
  if j ≠ k ∧ (inputs.bus j).writes = true then
    ⟨(inputs.bus j).adr, (inputs.bus j).dat, (inputs.bus j).sel, s.wbAckO j⟩
  else slot

/-- The registers of port `k` after an edge of `wb_clk`. -/
def bufwAfter (s : Arbiter bw) (inputs : WbInputs n) (k : Fin n) : Bufw :=
  (List.finRange n).foldl (s.bufwRound inputs k) ⟨0, 0, 0, false⟩

/-! ## The machine -/

/-- What an instant is to port `k`. -/
def portInstant (s : Arbiter bw) (e : Instant n) (k : Fin n) : WbPort.Instant where
  wb := e.wb.map fun inputs =>
    { wbRst := inputs.wbRst, bus := inputs.bus k
      bufwAdrI := (s.bufw k).adr, bufwDatI := (s.bufw k).dat, bufwSelI := (s.bufw k).sel
      bufwWeI := (s.bufw k).we }
  sdram := e.sdram.map fun inputs =>
    { sdramRst := inputs.sdramRst, adrI := inputs.adrI, datI := inputs.datI
      ackI := inputs.ackI && s.portSel.getLsbD k }

/-- One instant. -/
def step (s : Arbiter bw) (e : Instant n) : Arbiter bw where
  ports k := (s.ports k).step (s.portInstant e k)
  bufw := match e.wb with
    | none => s.bufw
    | some inputs => s.bufwAfter inputs
  portSel := match e.sdram with
    | none => s.portSel
    | some inputs => (s.selectionAfter inputs).1
  portEnc := match e.sdram with
    | none => s.portEnc
    | some inputs => (s.selectionAfter inputs).2

end Arbiter

/-! ## Reset -/

/-- The ports have settled and no write is on its way to another port. -/
structure Settled (s : Arbiter bw) : Prop where
  ports : ∀ k, WbPort.Settled (s.ports k)
  bufw : ∀ k, (s.bufw k).we = false

/-- Edges of both clocks under both resets. -/
def resetInstant : Instant n where
  wb := some ⟨true, fun _ => Pins.idle⟩
  sdram := some ⟨true, true, 0, 0, false⟩

theorem underReset_portInstant (s : Arbiter bw) (k : Fin n) :
    UnderReset (s.portInstant resetInstant k) :=
  ⟨⟨_, rfl, rfl⟩, _, rfl, rfl⟩

/-- From any power-up contents, three edges of each clock under reset settle the ports
and the arbiter. -/
theorem settled_of_reset (s : Arbiter bw) :
    Settled (Trace.after Arbiter.step s [resetInstant, resetInstant, resetInstant]) where
  ports k := WbPort.settled_of_reset (s.ports k) (underReset_portInstant s k)
    (underReset_portInstant (s.step resetInstant) k)
    (underReset_portInstant ((s.step resetInstant).step resetInstant) k)
  bufw k := by
    have silent : ∀ (t : Arbiter bw) (ports : List (Fin n)),
        ports.foldl (t.bufwRound ⟨true, fun _ => Pins.idle⟩ k) ⟨0, 0, 0, false⟩ =
          ⟨0, 0, 0, false⟩ := by
      intro t ports
      induction ports with
      | nil => rfl
      | cons j ports ih =>
          rw [List.foldl_cons]
          simpa [Arbiter.bufwRound, Pins.idle, Pins.writes] using ih
    exact congrArg Bufw.we (silent _ (List.finRange n))

end OrpsocCores.WbPortArbiter
