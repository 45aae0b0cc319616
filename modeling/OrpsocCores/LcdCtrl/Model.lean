import Mathlib.Algebra.Ring.Int.Defs
import Mathlib.Algebra.Ring.Nat
import Mathlib.Tactic.Common

/-!
# The controller of the LCD panel

`lcd_ctrl.v` holds the panel in reset, waits, and then writes nineteen registers of the panel
over three wires: `lcd_scen` frames a transfer, and the panel takes a bit of `lcd_sda` at each
rising edge of `lcd_scl`.  The registers of the two `always` blocks are here, with the delays
that the module computes from `WB_CLOCK_FREQUENCY`.

The reset does not touch `delay`, which begins with whatever it was.
-/

set_option autoImplicit false

namespace OrpsocCores.LcdCtrl

/-- `state`. -/
inductive Fsm where
  | lcdReset
  | startDelay
  | idle
  | delayInit
  | startXfer
  | clkPulse0
  | clkPulse1
  | done
  | wait
  deriving DecidableEq, Repr

/-- `BIT_DELAY`. -/
def bitDelay (wbClockFrequency : Nat) : Nat := 100 * (wbClockFrequency / 1000000)

/-- `STARTUP_DELAY`. -/
def startupDelay (wbClockFrequency : Nat) : Nat := 100 * (wbClockFrequency / 1000)

/-- `RESET_DELAY`. -/
def resetDelay (wbClockFrequency : Nat) : Nat := 20 * (wbClockFrequency / 1000)

/-- `NB_INIT_REGS`. -/
def nbInitRegs : Nat := 19

/-- `{6'h.., 2'b00, 8'h..}`. -/
def initValue (address : BitVec 6) (value : BitVec 8) : BitVec 16 := address ++ 0#2 ++ value

/-- `init_values`, as far as it is initialized. -/
def initValues : List (BitVec 16) :=
  [initValue 0x11 0x05, initValue 0x12 0x6A, initValue 0x13 0xFF, initValue 0x14 0x6A,
    initValue 0x15 0xC8, initValue 0x16 0x21, initValue 0x17 0x77, initValue 0x18 0xCC,
    initValue 0x19 0x1F, initValue 0x1A 0x71, initValue 0x1B 0xC1, initValue 0x1C 0x11,
    initValue 0x1D 0x60, initValue 0x1E 0xAE, initValue 0x1F 0xFC, initValue 0x20 0xF0,
    initValue 0x21 0xF0, initValue 0x03 0x5F, initValue 0x02 0x07]

/-- The registers clocked by `wb_clk_i`. -/
structure Regs where
  state : Fsm
  lcdScen : Bool
  lcdScl : Bool
  lcdSda : Bool
  lcdReq : Bool
  lcdSerialDat : BitVec 16
  curReg : BitVec 8
  bitIdx : BitVec 5
  lcdRstN : Bool
  delay : Int

namespace Regs

/-- `wb_rst_i`. -/
def reset (s : Regs) : Regs :=
  { s with
    state := .lcdReset, lcdScen := true, lcdScl := false, lcdSda := true, curReg := 0
    bitIdx := 0, lcdReq := true, lcdRstN := false }

/-- A state that counts to a bound before it does something. -/
def waits (s : Regs) (bound : Nat) (next : Regs) : Regs :=
  if s.delay < bound then { s with delay := s.delay + 1 } else next

/-- `posedge wb_clk_i`, without `wb_rst_i`. -/
def clk (wbClockFrequency : Nat) (s : Regs) : Regs :=
  match s.state with
  | .lcdReset =>
      s.waits (resetDelay wbClockFrequency)
        { s with delay := 0, lcdRstN := true, state := .startDelay }
  | .startDelay => s.waits (startupDelay wbClockFrequency) { s with delay := 0, state := .idle }
  | .idle =>
      let loaded :=
        { s with
          curReg := if s.curReg.toNat < nbInitRegs - 1 then s.curReg + 1 else s.curReg
          lcdReq := if s.curReg.toNat < nbInitRegs - 1 then s.lcdReq else false
          lcdSerialDat := initValues.getD s.curReg.toNat 0 }
      if s.lcdReq then
        { loaded with lcdScen := false, bitIdx := 0, delay := 0, state := .delayInit }
      else loaded
  | .delayInit =>
      s.waits (bitDelay wbClockFrequency) { s with delay := 0, state := .startXfer }
  | .startXfer =>
      if s.bitIdx.toNat < 16 then
        { s with lcdSda := s.lcdSerialDat.getLsbD (15 - s.bitIdx.toNat), state := .clkPulse0 }
      else { s with lcdSda := false, delay := 0, state := .done }
  | .clkPulse0 =>
      s.waits (bitDelay wbClockFrequency)
        { s with delay := 0, state := .clkPulse1, lcdScl := true }
  | .clkPulse1 =>
      s.waits (bitDelay wbClockFrequency)
        { s with delay := 0, lcdScl := false, state := .startXfer, bitIdx := s.bitIdx + 1 }
  | .done =>
      s.waits (bitDelay wbClockFrequency)
        { s with lcdScen := true, delay := 0, state := if s.lcdReq then .wait else .done }
  | .wait => s.waits (bitDelay wbClockFrequency) { s with state := .idle }

end Regs

/-! ## The panel -/

/-- What the panel has taken from the three wires.  `stable` counts the edges of `wb_clk_i`
since `lcd_sda` changed, `held` those since `lcd_scl` rose. -/
structure Panel where
  bits : List Bool
  writes : List (List Bool)
  stable : Nat
  held : Nat

namespace Panel

/-- `lcd_scl` rises in a transfer. -/
def Rises (s s' : Regs) : Prop := s.lcdScl = false ∧ s'.lcdScl = true ∧ s'.lcdScen = false

instance (s s' : Regs) : Decidable (Rises s s') := inferInstanceAs (Decidable (_ ∧ _))

/-- The panel sees the wires change from those of `s` to those of `s'`. -/
def sees (p : Panel) (s s' : Regs) : Panel where
  bits :=
    if s.lcdScen = false ∧ s'.lcdScen = true then []
    else if Rises s s' then p.bits ++ [s'.lcdSda] else p.bits
  writes := if s.lcdScen = false ∧ s'.lcdScen = true then p.writes ++ [p.bits] else p.writes
  stable := if s'.lcdSda = s.lcdSda then p.stable + 1 else 0
  held := if Rises s s' then 0 else p.held + 1

end Panel

/-- The controller and the panel. -/
structure Board where
  regs : Regs
  panel : Panel

/-- `posedge wb_clk_i`. -/
def Board.clk (wbClockFrequency : Nat) (x : Board) : Board where
  regs := x.regs.clk wbClockFrequency
  panel := x.panel.sees x.regs (x.regs.clk wbClockFrequency)

/-- The first bits of a register write, its top bit first. -/
def firstBits (word : BitVec 16) (count : Nat) : List Bool :=
  (List.range count).map fun i => word.getLsbD (15 - i)

/-- The bits of a register write. -/
def msbFirst (word : BitVec 16) : List Bool := firstBits word 16

end OrpsocCores.LcdCtrl
