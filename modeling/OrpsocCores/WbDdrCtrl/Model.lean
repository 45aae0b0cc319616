import OrpsocCores.WbPortArbiter.Selection

/-!
# The ports, the arbiter and the wrapper of the DDR controller

`ddr_ctrl_wrapper.v` turns the accesses of the selected port into commands of the
controller's local interface, and `wb_ddr_ctrl.v` puts it behind the arbiter.  The local
interface itself, `local_ready_i` and the read data, is an input.  `local_wdata_o` and
`local_be_o`, which only carry a write's data and byte enables through, are with the
requests in `OrpsocCores.WbDdrCtrl.Handshake`.
-/

set_option autoImplicit false

namespace OrpsocCores.WbDdrCtrl

open WbPort (Port)
open WbPortArbiter (Arbiter WbInputs)

variable {n : Nat} {bw : Fin n → Nat}

/-! ## The wrapper -/

/-- The states of the wrapper. -/
inductive State where
  | waitReady
  | idle
  | write
  | read
  deriving DecidableEq, Repr

/-- The registers of the wrapper. -/
structure Wrapper where
  localWriteReq : Bool
  localReadReq : Bool
  localBurstbegin : Bool
  localSize : BitVec 7
  state : State
  count : BitVec 32
  ackW : Bool
  adr : BitVec 32

/-- What the arbiter puts in front of the wrapper. -/
structure Command where
  accI : Bool
  weI : Bool
  adrI : BitVec 32
  bufWidthI : BitVec 4
  deriving DecidableEq

/-- The inputs sampled at an edge of `local_clk_i`. -/
structure LocalPins where
  localResetN : Bool
  localRdata : BitVec 32
  localRdataValid : Bool
  localReady : Bool

/-- `get_mask`. -/
def getMask (width : BitVec 4) : BitVec 32 := (1 : BitVec 32) <<< width.toNat - 1

/-- `local_address_o`, with `ADDR_WIDTH = aw`: the word of a write, the line of a read. -/
def Command.localAddressO (aw : Nat) (command : Command) : BitVec (aw - 2) :=
  if command.weI then command.adrI.extractLsb' 2 (aw - 2)
  else ((command.adrI.extractLsb' 2 (aw - 2)).setWidth 32 &&&
    ~~~getMask command.bufWidthI).setWidth (aw - 2)

namespace Wrapper

/-- `idle_o`. -/
def idleO (w : Wrapper) : Bool := w.state == .idle

/-- `ack_o`. -/
def ackO (w : Wrapper) (command : Command) (pins : LocalPins) : Bool :=
  if command.accI then
    if command.weI then pins.localReady && w.ackW else pins.localRdataValid
  else false

/-- The wrapper takes the access that is in front of it. -/
def takes (w : Wrapper) (command : Command) (pins : LocalPins) : Bool :=
  w.state == .idle && command.accI && pins.localReady

/-- The state machine, with the strobes cleared before it. -/
def machine (w : Wrapper) (command : Command) (pins : LocalPins) : Wrapper :=
  let w' := { w with
    ackW := false, localBurstbegin := false, localWriteReq := false, localReadReq := false }
  match w.state with
  | .waitReady => if pins.localReady then { w' with state := .idle } else w'
  | .idle =>
      if command.accI && command.weI && pins.localReady then
        { w' with
          ackW := true, localBurstbegin := true, localWriteReq := true, localSize := 1
          state := .write }
      else if command.accI && !command.weI && pins.localReady then
        { w' with
          localBurstbegin := true, localReadReq := true, state := .read
          localSize := (1 : BitVec 7) <<< command.bufWidthI.toNat
          adr := command.adrI &&& ~~~getMask (command.bufWidthI + 2)
          count := 0 }
      else w'
  | .write => if pins.localReady then { w' with state := .idle } else w'
  | .read =>
      let w' :=
        if pins.localRdataValid then
          { w' with
            count := w.count + 1
            adr := (w.adr &&& ~~~getMask (command.bufWidthI + 2)) |||
              ((((w.adr >>> 2) + 1) &&& getMask command.bufWidthI) <<< 2) }
        else w'
      if w.count == (1 : BitVec 32) <<< command.bufWidthI.toNat then { w' with count := 0, state := .idle }
      else w'

/-- An edge of `local_clk_i`.  `ack_w` has no reset. -/
def edge (w : Wrapper) (command : Command) (pins : LocalPins) : Wrapper :=
  if pins.localResetN then w.machine command pins
  else
    { w with
      localWriteReq := false, localReadReq := false, localBurstbegin := false, localSize := 1
      count := 0, adr := 0, state := .waitReady }

/-- The count at which the wrapper leaves `READ`. -/
theorem eq_shiftLeft_iff (count : BitVec 32) (width : BitVec 4) :
    count = (1 : BitVec 32) <<< width.toNat ↔ count.toNat = 2 ^ width.toNat := by
  have small : 2 ^ width.toNat ≤ 2 ^ 15 := Nat.pow_le_pow_right (by omega) (by omega)
  have value : ((1 : BitVec 32) <<< width.toNat).toNat = 2 ^ width.toNat := by
    rw [BitVec.toNat_shiftLeft, Nat.shiftLeft_eq]
    have one : (1 : BitVec 32).toNat * 2 ^ width.toNat = 2 ^ width.toNat := one_mul _
    rw [one]
    exact Nat.mod_eq_of_lt (by omega)
  rw [← BitVec.toNat_inj, value]

/-- While words are to come, the wrapper stays in `READ`. -/
theorem machine_of_below {w : Wrapper} {command : Command} (pins : LocalPins)
    (state : w.state = .read) (below : w.count.toNat < 2 ^ command.bufWidthI.toNat) :
    let w' := w.machine command pins
    w'.state = .read ∧ w'.localWriteReq = false ∧ w'.localReadReq = false ∧ w'.ackW = false ∧
      (w'.count = if pins.localRdataValid then w.count + 1 else w.count) ∧
      w'.adr = if pins.localRdataValid then
          (w.adr &&& ~~~getMask (command.bufWidthI + 2)) |||
            ((((w.adr >>> 2) + 1) &&& getMask command.bufWidthI) <<< 2)
        else w.adr := by
  have going : ¬w.count = 1#32 <<< command.bufWidthI.toNat :=
    fun last => below.ne ((eq_shiftLeft_iff _ _).mp last)
  cases valid : pins.localRdataValid with
  | false => simp [machine, state, valid, going]
  | true => simp [machine, state, valid, going]

end Wrapper

/-! ## The whole -/

/-- `adr_o` of a port. -/
def portAdrO {bw : Nat} (p : Port bw) : BitVec 32 :=
  if p.sdram.sdramState = .write then p.wrfifo.rd.rdDataO.extractLsb' 36 30 ++ 0#2
  else p.sdram.adrOR

/-- The port that `port_enc` names. -/
def selected (s : Arbiter bw) : Option (Fin n) :=
  if inside : s.portEnc.toNat < n then some ⟨s.portEnc.toNat, inside⟩ else none

/-- `acc_o`, `we_o`, `adr_o` and `buf_width_o` of the arbiter. -/
def command (s : Arbiter bw) : Command :=
  match selected s with
  | some k =>
      ⟨(s.ports k).sdram.accO, (s.ports k).sdram.weO, portAdrO (s.ports k), BitVec.ofNat 4 (bw k)⟩
  | none => ⟨false, false, 0, 0⟩

/-- `wb_ddr_ctrl`. -/
structure System (bw : Fin n → Nat) where
  arbiter : Arbiter bw
  wrapper : Wrapper

/-- One instant of a run: the clocks that have an edge. -/
structure Instant (n : Nat) where
  wb : Option (WbInputs n)
  sdram : Option LocalPins

namespace System

/-- `ack_o` of the wrapper. -/
def ackO (x : System bw) (pins : LocalPins) : Bool := x.wrapper.ackO (command x.arbiter) pins

/-- What an instant is to the arbiter. -/
def arbiterInstant (x : System bw) (e : Instant n) : WbPortArbiter.Instant n where
  wb := e.wb
  sdram := e.sdram.map fun pins =>
    { sdramRst := !pins.localResetN, sdramIdleI := x.wrapper.idleO, adrI := x.wrapper.adr
      datI := pins.localRdata, ackI := x.ackO pins }

/-- One instant. -/
def step (x : System bw) (e : Instant n) : System bw where
  arbiter := x.arbiter.step (x.arbiterInstant e)
  wrapper := match e.sdram with
    | none => x.wrapper
    | some pins => x.wrapper.edge (command x.arbiter) pins

end System

/-! ## Commands and their answers -/

/-- The port whose command is with the controller, and the words that are still to come,
each with the port that asked for it. -/
structure Ledger (n : Nat) where
  owner : Option (Fin n)
  toCome : List (Fin n)

def Ledger.empty : Ledger n := ⟨none, []⟩

/-- The words that a read command of this port returns. -/
def words (bw : Fin n → Nat) : Option (Fin n) → List (Fin n)
  | some k => List.replicate (2 ^ bw k) k
  | none => []

/-- The recorder.  A command belongs to the port that was selected when the wrapper took
it, until its last acknowledge; the controller accepts a read that is presented while
`local_ready_i` is high. -/
def Ledger.record (x : System bw) (e : Instant n) (ledger : Ledger n) : Ledger n :=
  match e.sdram with
  | none => ledger
  | some pins =>
      let left := if pins.localRdataValid then ledger.toCome.tail else ledger.toCome
      { owner :=
          if x.wrapper.takes (command x.arbiter) pins then selected x.arbiter
          else if x.ackO pins && ((command x.arbiter).weI || left.isEmpty) then none
          else ledger.owner
        toCome :=
          left ++ if x.wrapper.localReadReq && pins.localReady then words bw ledger.owner else [] }

/-- What the controller does: it is not reset, returns only words that were asked for
and is ready for every read. -/
structure Timely (x : System bw) (ledger : Ledger n) (e : Instant n) : Prop where
  running : ∀ pins ∈ e.sdram, pins.localResetN = true
  returns : ∀ pins ∈ e.sdram, pins.localRdataValid = true → ledger.toCome ≠ []
  ready : ∀ pins ∈ e.sdram, x.wrapper.localReadReq = true → pins.localReady = true

instance (x : System bw) (ledger : Ledger n) (e : Instant n) : Decidable (Timely x ledger e) :=
  decidable_of_iff
    ((∀ pins ∈ e.sdram, pins.localResetN = true) ∧
      (∀ pins ∈ e.sdram, pins.localRdataValid = true → ledger.toCome ≠ []) ∧
      ∀ pins ∈ e.sdram, x.wrapper.localReadReq = true → pins.localReady = true)
    ⟨fun ⟨running, returns, ready⟩ => ⟨running, returns, ready⟩,
    fun ⟨running, returns, ready⟩ => ⟨running, returns, ready⟩⟩

/-- `ack_i` of port `k`. -/
def System.portAckI (x : System bw) (pins : LocalPins) (k : Fin n) : Bool :=
  x.ackO pins && x.arbiter.portSel.getLsbD k

/-- Commands and acknowledges are attributed to the right port. -/
structure Attributed (x : System bw) (ledger : Ledger n) (e : Instant n) : Prop where
  /-- A command that is presented belongs to a port. -/
  presented : x.wrapper.localWriteReq = true ∨ x.wrapper.localReadReq = true →
    ∃ p, ledger.owner = some p
  /-- That port stays selected until the last acknowledge. -/
  selected : ∀ p, ledger.owner = some p → x.arbiter.selection.Selects p
  /-- A port sees only the acknowledges of its own command. -/
  acks : ∀ pins ∈ e.sdram, ∀ k, x.portAckI pins k = true → ledger.owner = some k ∧
    if (x.arbiter.ports k).sdram.weO = true then x.wrapper.localWriteReq = true
    else pins.localRdataValid = true ∧ ledger.toCome.head? = some k
  /-- In `IDLE` nothing is still to come. -/
  idle : x.wrapper.state = .idle → (command x.arbiter).accI = false →
    x.wrapper.localReadReq = false ∧ ledger.toCome = []

end OrpsocCores.WbDdrCtrl
