/-!
# The PS/2 interface

`ps2.v` is a serial interface for keyboards and mice.  Both lines, the clock and the data
line, are open: the host and the device can each pull them low, and a line that nobody
pulls is high.  The device makes the clock in both directions.

The registers of all processes are one state, and `step` is an edge of `clk_i` with the
reset released.  An input of a step is what the device leaves on the two lines, and what
the host puts on the other ports.  A run is a stream of inputs.
-/

set_option autoImplicit false

namespace OrpsocCores.Ps2

abbrev Byte := BitVec 8

/-- `state`. -/
inductive State
  | idle
  | writeRequest
  | start
  | data
  | parity
  | stop
  deriving DecidableEq, Repr

/-- `debounce_state`. -/
inductive DebounceState
  | stable
  | rise
  | fall
  | waitStable
  deriving DecidableEq, Repr

/-- What the device leaves on the lines, and what the host puts on the ports. -/
structure Inputs where
  ps2Clk : Bool
  ps2Data : Bool
  dataI : Byte
  ibfClrI : Bool
  obfSetI : Bool
  errClrI : Bool

/-- A two-bit synchronizer. -/
structure Synchronizer where
  r1 : Bool
  r0 : Bool
  deriving DecidableEq, Repr

structure Regs (debounceBits watchdogBits : Nat) where
  state : State
  debounceState : DebounceState
  debounceCnt : BitVec debounceBits
  ps2ClkR : Synchronizer
  ps2ClkClean : Bool
  ps2DataR : Synchronizer
  ps2ClkOut : Bool
  ps2DataOut : Bool
  writing : Bool
  shiftCnt : BitVec 3
  shiftReg : BitVec 9
  wdtCnt : BitVec watchdogBits
  ibf : Bool
  parityErr : Bool
  frameErr : Bool
  dataIReg : Byte
  dataOReg : Byte
  obfSet : Bool
  deriving DecidableEq

/-- `^` over the bits of a byte. -/
def reduceXor (byte : Byte) : Bool :=
  byte.getLsbD 0 ^^ byte.getLsbD 1 ^^ byte.getLsbD 2 ^^ byte.getLsbD 3 ^^ byte.getLsbD 4 ^^
    byte.getLsbD 5 ^^ byte.getLsbD 6 ^^ byte.getLsbD 7

namespace Regs

variable {debounceBits watchdogBits : Nat}

/-- The registers behind a reset, which leaves out `data_o_reg`. -/
def reset (dataOReg : Byte) : Regs debounceBits watchdogBits where
  state := .idle
  debounceState := .stable
  debounceCnt := 0
  ps2ClkR := ⟨false, false⟩
  ps2ClkClean := false
  ps2DataR := ⟨false, false⟩
  ps2ClkOut := true
  ps2DataOut := true
  writing := false
  shiftCnt := 0
  shiftReg := 0
  wdtCnt := 0
  ibf := false
  parityErr := false
  frameErr := false
  dataIReg := 0
  dataOReg := dataOReg
  obfSet := false

section Wires

variable (s : Regs debounceBits watchdogBits)

/-! ## The lines -/

/-- `ps2_clk_io`. -/
def ps2ClkIo (i : Inputs) : Bool := s.ps2ClkOut && i.ps2Clk

/-- `ps2_data_io`. -/
def ps2DataIo (i : Inputs) : Bool := s.ps2DataOut && i.ps2Data

/-! ## The wires -/

def ps2ClkSyn : Bool := s.ps2ClkR.r0

def ps2DataSyn : Bool := s.ps2DataR.r0

def debounceCao : Bool := s.debounceCnt.msb

def ps2ClkFall : Bool := s.debounceState = .fall

def ps2ClkRise : Bool := s.debounceState = .rise

def wdtCao : Bool := s.wdtCnt.msb

def wdtRst : Bool := s.ps2ClkFall

def shiftCao : Bool := s.shiftCnt = BitVec.allOnes 3

/-- `shift_reg[7:0]`. -/
def shiftByte : Byte := s.shiftReg.setWidth 8

def shiftParity : Bool := reduceXor s.shiftByte

def shiftLoad : Bool := s.obfSet && s.state = .writeRequest

def shiftCalcParity : Bool := s.state = .start && s.writing

def shiftInRead : Bool := (s.state = .data || s.state = .start) && s.ps2ClkFall

def shiftInWrite : Bool := (s.state = .data || s.state = .parity) && s.ps2ClkFall

/-- `shift_reg` behind a shift to the right. -/
def shifted (top : Bool) : BitVec 9 := BitVec.cons top (s.shiftReg.extractLsb' 1 8)

/-! ## The outputs -/

def dataO : Byte := s.dataOReg

def ibfO : Bool := s.ibf

def obfO : Bool := s.writing

def parityErrO : Bool := s.parityErr

def frameErrO : Bool := s.frameErr

/-! ## The processes -/

def nextDebounceState : DebounceState :=
  match s.debounceState with
  | .stable =>
      if s.ps2ClkClean ≠ s.ps2ClkSyn then if s.ps2ClkSyn then .rise else .fall else .stable
  | .waitStable => if s.debounceCao then .stable else .waitStable
  | .rise => .waitStable
  | .fall => .waitStable

def nextPs2ClkClean : Bool :=
  match s.debounceState with
  | .rise => true
  | .fall => false
  | .stable | .waitStable => s.ps2ClkClean

def nextShiftReg : BitVec 9 :=
  if s.shiftLoad then BitVec.cons false s.dataIReg
  else if s.shiftCalcParity then BitVec.cons (!s.shiftParity) s.shiftByte
  else if s.writing then if s.shiftInWrite then s.shifted true else s.shiftReg
  else if s.shiftInRead then s.shifted s.ps2DataSyn
  else s.shiftReg

def nextShiftCnt : BitVec 3 :=
  if s.state = .start then 0
  else if s.ps2ClkFall && s.state = .data then s.shiftCnt + 1
  else s.shiftCnt

/-- The device has acknowledged a frame. -/
def acknowledged : Bool := s.ps2ClkFall && !s.ps2DataSyn

def nextState : State :=
  match s.state with
  | .idle =>
      if s.obfSet && !s.writing then .writeRequest else if s.ps2ClkFall then .start else .idle
  | .writeRequest => if s.wdtCao then .start else .writeRequest
  | .start => if s.wdtCao then .idle else if s.ps2ClkFall then .data else .start
  | .data => if s.wdtCao then .idle else if s.ps2ClkFall && s.shiftCao then .parity else .data
  | .parity => if s.wdtCao then .idle else if s.ps2ClkFall then .stop else .parity
  | .stop => if s.writing then if s.acknowledged || s.wdtCao then .idle else .stop else .idle

def nextWriting : Bool :=
  match s.state with
  | .idle => s.obfSet || s.writing
  | .writeRequest => s.writing
  | .start | .data | .parity => s.writing && !s.wdtCao
  | .stop => s.writing && !(s.acknowledged || s.wdtCao)

def nextDataOReg : Byte :=
  if s.state = .stop ∧ s.writing = false then s.shiftByte else s.dataOReg

/-- A frame has been received. -/
def received : Bool := !s.writing && s.state = .stop

def nextParityErr (i : Inputs) : Bool :=
  if i.errClrI then false
  else if s.received && s.shiftReg.msb ≠ !s.shiftParity then true
  else s.parityErr

def nextFrameErr (i : Inputs) : Bool :=
  if i.errClrI then false
  else if (s.state = .start || s.state = .data || s.state = .parity) && s.wdtCao then true
  else s.frameErr

def nextIbf (i : Inputs) : Bool :=
  if i.ibfClrI then false
  else if s.received && s.shiftReg.msb = !s.shiftParity then true
  else s.ibf

def nextPs2DataOut : Bool :=
  if s.writing then
    if s.state = .writeRequest || s.state = .start then false
    else if s.state = .data || s.state = .parity then s.shiftReg.getLsbD 0
    else true
  else s.ps2DataOut

/-- An edge of `clk_i`. -/
def step (i : Inputs) : Regs debounceBits watchdogBits where
  state := s.nextState
  debounceState := s.nextDebounceState
  debounceCnt := if s.ps2ClkFall || s.ps2ClkRise || s.debounceCao then 0 else s.debounceCnt + 1
  ps2ClkR := ⟨s.ps2ClkIo i, s.ps2ClkR.r1⟩
  ps2ClkClean := s.nextPs2ClkClean
  ps2DataR := ⟨s.ps2DataIo i, s.ps2DataR.r1⟩
  ps2ClkOut := s.state ≠ .writeRequest
  ps2DataOut := s.nextPs2DataOut
  writing := s.nextWriting
  shiftCnt := s.nextShiftCnt
  shiftReg := s.nextShiftReg
  wdtCnt := if s.wdtRst || s.wdtCao then 0 else if s.debounceCao then s.wdtCnt + 1 else s.wdtCnt
  ibf := s.nextIbf i
  parityErr := s.nextParityErr i
  frameErr := s.nextFrameErr i
  dataIReg := if i.obfSetI then i.dataI else s.dataIReg
  dataOReg := s.nextDataOReg
  obfSet := i.obfSetI || (s.obfSet && s.state ≠ .writeRequest)

end Wires

/-- The registers at a cycle of a run. -/
def cycle (inputs : Nat → Inputs) (s : Regs debounceBits watchdogBits) :
    Nat → Regs debounceBits watchdogBits
  | 0 => s
  | n + 1 => (cycle inputs s n).step (inputs n)

/-- A run goes on as the run from its last cycle. -/
theorem cycle_add (inputs : Nat → Inputs) (s : Regs debounceBits watchdogBits) (m n : Nat) :
    cycle inputs s (m + n) = cycle (fun k => inputs (m + k)) (cycle inputs s m) n := by
  induction n with
  | zero => rfl
  | succ n ih => rw [Nat.add_succ, cycle, cycle, ih]

/-- A cycle depends on the inputs before it. -/
theorem cycle_congr {inputs inputs' : Nat → Inputs} {s : Regs debounceBits watchdogBits} {n : Nat}
    (same : ∀ m < n, inputs m = inputs' m) : cycle inputs s n = cycle inputs' s n := by
  induction n with
  | zero => rfl
  | succ n ih =>
      rw [cycle, cycle, ih fun m before => same m (Nat.lt_succ_of_lt before),
        same n (Nat.lt_succ_self n)]

/-! ## Lemmas of the shift register -/

section Shift

variable (s : Regs debounceBits watchdogBits)

theorem getLsbD_shifted_top (top : Bool) : (s.shifted top).getLsbD 8 = top := by
  rw [shifted, BitVec.getLsbD_cons, if_pos rfl]

theorem getLsbD_shifted (top : Bool) {j : Nat} (inside : j < 8) :
    (s.shifted top).getLsbD j = s.shiftReg.getLsbD (j + 1) := by
  rw [shifted, BitVec.getLsbD_cons, if_neg (Nat.ne_of_lt inside), BitVec.getLsbD_extractLsb',
    decide_eq_true inside, Bool.true_and, Nat.add_comm]

theorem getLsbD_shiftByte {j : Nat} (inside : j < 8) :
    s.shiftByte.getLsbD j = s.shiftReg.getLsbD j := by
  rw [shiftByte, BitVec.getLsbD_setWidth, decide_eq_true inside, Bool.true_and]

/-- The counter is full with the seventh edge. -/
theorem shiftCao_eq {k : Nat} (inside : k < 8) (shiftCnt : s.shiftCnt = BitVec.ofNat 3 k) :
    s.shiftCao = decide (k = 7) := by
  have full : BitVec.ofNat 3 k = BitVec.allOnes 3 ↔ k = 7 := by
    rw [← BitVec.toNat_inj, BitVec.toNat_ofNat, BitVec.toNat_allOnes]
    omega
  rw [shiftCao, shiftCnt]
  simp only [full]

end Shift

end Regs

end OrpsocCores.Ps2
