import OrpsocCores.Foundation.ByteStore
import OrpsocCores.Foundation.Trace
import OrpsocCores.Wishbone.Common

/-!
# The on-chip RAM

`wb_ram.v` with `wb_ram_generic.v` inside, for a depth of `2 ^ (n + 2)` bytes.  The
RAM reads one beat ahead: its read address is the bus address when a new access
starts and otherwise what `wb_next_adr` makes of the registered address.  The write
takes place in the cycle of the ack, at the registered address.

The depth is an integer parameter, so that `n + 2 ≤ 32`; the results that rest on
`wb_next_adr`, which computes on 32 bits, say so.
-/

set_option autoImplicit false

namespace OrpsocCores.WbRam

open Wishbone

variable {n : Nat}

/-- The signals of the RAM's bus. -/
abbrev Bus (n : Nat) := Pins (n + 2) 32 4

/-- `adr[aw-1:2]`. -/
def wordOf (adr : BitVec (n + 2)) : BitVec n := adr.extractLsb' 2 n

theorem toNat_wordOf (adr : BitVec (n + 2)) : (wordOf adr).toNat = adr.toNat / 4 := by
  have bound : adr.toNat < 2 ^ n * 4 := by
    simpa [Nat.pow_add] using adr.isLt
  rw [wordOf, BitVec.extractLsb'_toNat, Nat.shiftRight_eq_div_pow]
  exact Nat.mod_eq_of_lt (by omega)

/-- The registers and the memory. -/
structure State (n : Nat) where
  adrR : BitVec (n + 2)
  validR : Bool
  isLastR : Bool
  wbAckO : Bool
  mem : BitVec n → BitVec 32
  wbDatO : BitVec 32

/-- The inputs of a cycle. -/
structure Inputs (n : Nat) where
  wbRstI : Bool
  bus : Bus n

namespace State

/-- `new_cycle`. -/
def newCycle (s : State n) (bus : Bus n) : Bool := bus.valid && !s.validR || s.isLastR

/-- `next_adr`. -/
def nextAdr (s : State n) (bus : Bus n) : BitVec (n + 2) :=
  (wbNextAdr (s.adrR.setWidth 32) bus.cti bus.bte 32).setWidth (n + 2)

/-- `adr`. -/
def adr (s : State n) (bus : Bus n) : BitVec (n + 2) :=
  if s.newCycle bus then bus.adr else s.nextAdr bus

/-- `ram_we`. -/
def ramWe (s : State n) (bus : Bus n) : Bool := bus.we && bus.valid && s.wbAckO

/-- The memory of `wb_ram_generic` after an edge. -/
def memAfter (s : State n) (bus : Bus n) : BitVec n → BitVec 32 :=
  let waddr := wordOf s.adrR
  if s.ramWe bus then Function.update s.mem waddr (merge bus.sel bus.dat (s.mem waddr)) else s.mem

/-- An edge of `wb_clk_i`.  `is_last_r` and the memory have no reset. -/
def step (s : State n) (c : Inputs n) : State n where
  adrR := if c.wbRstI then 0 else s.adr c.bus
  validR := !c.wbRstI && c.bus.valid
  isLastR := wbIsLast c.bus.cti
  wbAckO :=
    !c.wbRstI && (c.bus.valid && (!(c.bus.cti == .classic || c.bus.cti == .endBurst) || !s.wbAckO))
  mem := s.memAfter c.bus
  wbDatO := s.mem (wordOf (s.adr c.bus))

/-- A beat is acknowledged in this cycle. -/
def acks (s : State n) (bus : Bus n) : Bool := bus.valid && s.wbAckO

end State

/-- The registers after a reset; the memory and the unreset registers are arbitrary. -/
structure Settled (s : State n) : Prop where
  validR : s.validR = false
  wbAckO : s.wbAckO = false

theorem settled_of_reset (s : State n) (bus : Bus n) : Settled (s.step ⟨true, bus⟩) := ⟨rfl, rfl⟩

/-- The word of the address one beat ahead. -/
theorem toNat_nextAdr (integer : n + 2 ≤ 32) (s : State n) (bus : Bus n) :
    (s.nextAdr bus).toNat / 4 = bus.cti.nextWord bus.bte (s.adrR.toNat / 4) % 2 ^ n := by
  have wide : s.adrR.toNat < 2 ^ 32 := lt_of_lt_of_le s.adrR.isLt (Nat.pow_le_pow_right (by decide) integer)
  have size : 2 ^ (n + 2) = 4 * 2 ^ n := by rw [Nat.pow_add, Nat.mul_comm]
  have divides : 2 ^ n ∣ 2 ^ 30 := Nat.pow_dvd_pow 2 (by omega)
  rw [State.nextAdr, BitVec.toNat_setWidth, wbNextAdr_toNat, BitVec.toNat_setWidth,
    Nat.mod_eq_of_lt wide, size, Nat.mul_mod_mul_left, Nat.mul_div_cancel_left _ (by decide),
    Nat.mod_mod_of_dvd _ divides]

end OrpsocCores.WbRam
