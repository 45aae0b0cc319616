import OrpsocCores.Foundation.ByteStore
import OrpsocCores.Foundation.Trace
import OrpsocCores.Wishbone.Common

/-!
# The three-port RAM

`ram_wb_b3.v` is a RAM with a registered address and its own burst address
generation; `ram_wb.v` lets three masters share it.  A memory address has
`mem_adr_width = m + 2` bits, of which the upper `m` are the word.

The burst address comes from a latch, `burst_adr_counter`.  It is modelled as a
register that holds what the latch settled at in the last cycle, and `settled` is
what it settles at in this one.
-/

set_option autoImplicit false

namespace OrpsocCores.RamWb

open Wishbone

variable {aw m : Nat}

/-- The signals of a port. -/
abbrev Bus (aw : Nat) := Pins aw 32 4

/-- `wb_adr_i[mem_adr_width-1:2]`. -/
def wordOf (m : Nat) (adr : BitVec aw) : BitVec m := adr.extractLsb' 2 m

theorem toNat_wordOf {adr : BitVec aw} (inRange : adr.toNat < 2 ^ (m + 2)) :
    (wordOf m adr).toNat = adr.toNat / 4 := by
  have bound : adr.toNat < 2 ^ m * 4 := by simpa [Nat.pow_add] using inRange
  rw [wordOf, BitVec.extractLsb'_toNat, Nat.shiftRight_eq_div_pow]
  exact Nat.mod_eq_of_lt (by omega)

/-! ## The RAM -/

/-- The registers, the latch and the memory of `ram_wb_b3`. -/
structure B3 (m : Nat) where
  adr : BitVec m
  wbB3Trans : Bool
  burstAdrCounter : BitVec m
  wbBteIR : Bte
  wbCtiIR : Cti
  wbAckOR : Bool
  mem : BitVec m → BitVec 32

namespace B3

/-- `wb_b3_trans_start`. -/
def wbB3TransStart (s : B3 m) (bus : Bus aw) : Bool :=
  (bus.cti == .constBurst || bus.cti == .incBurst) && bus.stb && !s.wbB3Trans && bus.cyc

/-- `burst_access_wrong_wb_adr`. -/
def burstAccessWrongWbAdr (s : B3 m) (bus : Bus aw) : Bool :=
  s.wbB3Trans && s.adr != wordOf m bus.adr

/-- `wb_ack_o`. -/
def wbAckO (s : B3 m) (bus : Bus aw) : Bool :=
  s.wbAckOR && bus.stb && !s.burstAccessWrongWbAdr bus

/-- `wb_err_o`. -/
def wbErrO (s : B3 m) (bus : Bus aw) : Bool :=
  s.wbAckOR && bus.stb && s.burstAccessWrongWbAdr bus

/-- `wb_b3_trans_stop`. -/
def wbB3TransStop (s : B3 m) (bus : Bus aw) : Bool :=
  bus.cti == .endBurst && bus.stb && s.wbB3Trans && s.wbAckO bus || s.wbErrO bus

/-- `burst_adr_counter[k-1:0] = adr[k-1:0] + 1`; the other bits of the latch stay. -/
def wrapCounter (s : B3 m) (k : Nat) : BitVec m :=
  (s.burstAdrCounter.extractLsb' k (m - k) ++ (s.adr.extractLsb' 0 k + 1#k)).setWidth m

/-- What `burst_adr_counter` settles at in a cycle. -/
def settled (s : B3 m) (bus : Bus aw) : BitVec m :=
  if s.wbB3TransStart bus then wordOf m bus.adr
  else if s.wbCtiIR == .incBurst && s.wbAckO bus && s.wbB3Trans then
    match s.wbBteIR with
    | .linear => s.adr + 1#m
    | .wrap4 => s.wrapCounter 2
    | .wrap8 => s.wrapCounter 3
    | .wrap16 => s.wrapCounter 4
  else s.burstAdrCounter

/-- `wb_dat_o`. -/
def wbDatO (s : B3 m) : BitVec 32 := s.mem s.adr

/-- `wb_ack_o_r` after an edge. -/
def ackAfter (s : B3 m) (bus : Bus aw) : Bool :=
  if bus.cyc then
    match bus.cti with
    | .classic => bus.stb ^^ s.wbAckOR
    | .constBurst => bus.stb
    | .incBurst => bus.stb
    | .endBurst => bus.stb && !s.wbAckOR
  else false

/-- An edge of `wb_clk_i`. -/
def edge (s : B3 m) (wbRstI : Bool) (bus : Bus aw) : B3 m where
  adr :=
    if wbRstI then 0
    else if s.wbB3Trans then s.settled bus
    else if bus.cyc && bus.stb then wordOf m bus.adr
    else s.adr
  wbB3Trans :=
    if wbRstI then false
    else if s.wbB3TransStart bus then true
    else if s.wbB3TransStop bus then false
    else s.wbB3Trans
  burstAdrCounter := s.settled bus
  wbBteIR := bus.bte
  wbCtiIR := bus.cti
  wbAckOR := if wbRstI then false else s.ackAfter bus
  mem :=
    if bus.we && s.wbAckO bus then Function.update s.mem s.adr (merge bus.sel bus.dat s.wbDatO)
    else s.mem

end B3

/-! ## The three ports -/

instance ports_neZero : NeZero 3 := ⟨by decide⟩

/-- The arbitration registers and the RAM. -/
structure State (m : Nat) where
  inputSelect : BitVec 3
  lastSelected : BitVec 3
  ram : B3 m

/-- The inputs of a cycle. -/
structure Inputs (aw : Nat) where
  wbRstI : Bool
  bus : Fin 3 → Bus aw

namespace State

/-- `arb_for_wbm0`, `arb_for_wbm1` and `arb_for_wbm2`, with the two other ports. -/
def arbFor (s : State m) (c : Inputs aw) (j k : Fin 3) : Bool :=
  (s.lastSelected.getLsbD j || s.lastSelected.getLsbD k || !(c.bus j).cyc || !(c.bus k).cyc) &&
    s.inputSelect == 0

/-- The port that the arbitration picks, as a select code. -/
def picks (s : State m) (c : Inputs aw) : Option (BitVec 3) :=
  let notAll := s.inputSelect != BitVec.allOnes 3
  if notAll && (c.bus 0).cyc && s.arbFor c 1 2 then some 0b001
  else if notAll && (c.bus 1).cyc && s.arbFor c 0 2 then some 0b010
  else if notAll && (c.bus 2).cyc && s.arbFor c 0 1 then some 0b100
  else none

/-- A selected port has dropped `cyc`. -/
def releases (s : State m) (c : Inputs aw) : Bool :=
  s.inputSelect.getLsbD 0 && !(c.bus 0).cyc || s.inputSelect.getLsbD 1 && !(c.bus 1).cyc ||
    s.inputSelect.getLsbD 2 && !(c.bus 2).cyc

/-- What the RAM sees of the ports. -/
def ramBus (s : State m) (c : Inputs aw) : Bus aw :=
  if s.inputSelect.getLsbD 2 then c.bus 2
  else if s.inputSelect.getLsbD 1 then c.bus 1
  else if s.inputSelect.getLsbD 0 then c.bus 0
  else Pins.idle

/-- `wbm0_ack_o`, `wbm1_ack_o` and `wbm2_ack_o`. -/
def wbmAckO (s : State m) (c : Inputs aw) (i : Fin 3) : Bool :=
  s.ram.wbAckO (s.ramBus c) && s.inputSelect.getLsbD i

/-- `wbm0_err_o`, `wbm1_err_o` and `wbm2_err_o`. -/
def wbmErrO (s : State m) (c : Inputs aw) (i : Fin 3) : Bool :=
  s.ram.wbErrO (s.ramBus c) && s.inputSelect.getLsbD i

/-- `wbm0_dat_o`, `wbm1_dat_o` and `wbm2_dat_o` are the RAM's output. -/
def wbmDatO (s : State m) : BitVec 32 := s.ram.wbDatO

/-- An edge of `wb_clk_i`. -/
def step (s : State m) (c : Inputs aw) : State m where
  inputSelect :=
    if c.wbRstI then 0 else if s.releases c then 0 else (s.picks c).getD s.inputSelect
  lastSelected := if c.wbRstI then 0 else (s.picks c).getD s.lastSelected
  ram := s.ram.edge c.wbRstI (s.ramBus c)

end State

/-- The registers after a reset; the memory, the latch and the unreset registers are
arbitrary. -/
structure Settled (s : State m) : Prop where
  inputSelect : s.inputSelect = 0
  wbB3Trans : s.ram.wbB3Trans = false
  wbAckOR : s.ram.wbAckOR = false

theorem settled_of_reset (s : State m) (bus : Fin 3 → Bus aw) : Settled (s.step ⟨true, bus⟩) :=
  ⟨rfl, rfl, rfl⟩

end OrpsocCores.RamWb
