import OrpsocCores.Ps2.Port

/-!
# The PS/2 port on a Wishbone bus

`ps2_wb.v` gives a master two registers: the data of the port, and its status with the two
enables of the interrupt.  A write to the status register clears what it has a zero for: the
input buffer flag with bit 0, the errors with bit 3.  Every access takes one cycle.

A driver knows only what it reads.  `Driver` is one that polls: when the status shows the
flag, it reads the data, and it takes the byte with the write that clears the flag.
`every_byte_once` says that it takes every good byte that the keyboard sends, in order and
none twice, if it keeps up: a frame ends only when the flag has been cleared.  That is what
it has to keep up with, since a frame with a wrong parity takes the place of the byte, too.
-/

set_option autoImplicit false

namespace OrpsocCores.Ps2

open Regs

/-! ## The registers on the bus -/

/-- What the master puts on the bus, and the device on the lines. -/
structure WbInputs where
  wbDatI : Byte
  wbAdrI : Bool
  wbStbI : Bool
  wbWeI : Bool
  ps2Clk : Bool
  ps2Data : Bool

namespace WbInputs

variable (i : WbInputs)

def errClr : Bool := i.wbStbI && i.wbWeI && i.wbAdrI && !i.wbDatI.getLsbD 3

def ibfClr : Bool := i.wbStbI && i.wbWeI && i.wbAdrI && !i.wbDatI.getLsbD 0

def obfSet : Bool := i.wbStbI && i.wbWeI && !i.wbAdrI

def controlWrite : Bool := i.wbStbI && i.wbWeI && i.wbAdrI

/-- The ports of `ps2_uart`. -/
def uart : Inputs where
  ps2Clk := i.ps2Clk
  ps2Data := i.ps2Data
  dataI := i.wbDatI
  ibfClrI := i.ibfClr
  obfSetI := i.obfSet
  errClrI := i.errClr

end WbInputs

/-- `busy_o`. -/
def Regs.busyO {debounceBits watchdogBits : Nat} (r : Regs debounceBits watchdogBits) : Bool :=
  !(r.state = .idle && !r.writing)

/-- `ps2_uart` and `control_reg[7:6]`. -/
structure WbRegs (debounceBits watchdogBits : Nat) where
  uart : Regs debounceBits watchdogBits
  irqTxEnb : Bool
  irqRxEnb : Bool

namespace WbRegs

variable {debounceBits watchdogBits : Nat}

/-- The registers behind a reset. -/
def reset (dataOReg : Byte) : WbRegs debounceBits watchdogBits :=
  ⟨Regs.reset dataOReg, false, false⟩

variable (s : WbRegs debounceBits watchdogBits) (i : WbInputs)

def statusReg : Byte :=
  BitVec.ofBool s.irqTxEnb ++ BitVec.ofBool s.irqRxEnb ++ 0#2 ++
    BitVec.ofBool (s.uart.parityErrO || s.uart.frameErrO) ++ BitVec.ofBool s.uart.obfO ++
    BitVec.ofBool s.uart.ibfO ++ BitVec.ofBool s.uart.busyO

def wbDatO : Byte := if i.wbAdrI then s.statusReg else s.uart.dataO

def irqO : Bool := (s.uart.ibfO && s.irqRxEnb) || (!s.uart.obfO && s.irqTxEnb)

/-- `posedge wb_clk_i`, without `wb_rst_i`. -/
def step : WbRegs debounceBits watchdogBits where
  uart := s.uart.step i.uart
  irqTxEnb := if i.controlWrite then i.wbDatI.getLsbD 7 else s.irqTxEnb
  irqRxEnb := if i.controlWrite then i.wbDatI.getLsbD 6 else s.irqRxEnb

theorem statusReg_ibf : s.statusReg.getLsbD 1 = s.uart.ibfO := by
  rw [statusReg, BitVec.getLsbD_append, if_neg (by decide), BitVec.getLsbD_append,
    if_pos (by decide)]
  exact BitVec.getLsbD_ofBool s.uart.ibfO 0

/-- The registers at a cycle of a run. -/
def cycle (inputs : Nat → WbInputs) : Nat → WbRegs debounceBits watchdogBits
  | 0 => s
  | n + 1 => (cycle inputs n).step (inputs n)

theorem uart_cycle (inputs : Nat → WbInputs) (n : Nat) :
    (s.cycle inputs n).uart = Regs.cycle (fun m => (inputs m).uart) s.uart n := by
  induction n with
  | zero => rfl
  | succ n ih => exact congrArg (Regs.step · (inputs n).uart) ih

end WbRegs

/-! ## A driver -/

/-- What a driver remembers of its accesses. -/
structure Driver where
  /-- The status has shown the flag. -/
  seen : Bool
  /-- The data since then. -/
  byte : Option Byte
  /-- What it has taken. -/
  got : List Byte

/-- An access, with what it reads. -/
def Driver.step (d : Driver) (i : WbInputs) (wbDatO : Byte) : Driver :=
  if i.ibfClr then ⟨false, none, d.got ++ d.byte.toList⟩
  else if i.wbStbI && !i.wbWeI then
    if i.wbAdrI then { d with seen := d.seen || wbDatO.getLsbD 1 }
    else { d with byte := if d.seen then some wbDatO else d.byte }
  else d

section Run

variable {debounceBits watchdogBits : Nat} (inputs : Nat → WbInputs)
  (s : WbRegs debounceBits watchdogBits)

def driver : Nat → Driver
  | 0 => ⟨false, none, []⟩
  | n + 1 => (driver n).step (inputs n) ((s.cycle inputs n).wbDatO (inputs n))

/-- The port behind the bus. -/
def wbPort (n : Nat) : Port :=
  port (fun m => (inputs m).uart) s.uart (Port.reset s.uart.dataO) n

/-- The bytes with a right parity whose frames have ended. -/
def sent : Nat → List Byte
  | 0 => []
  | n + 1 =>
      let p := wbPort inputs s n
      sent n ++ if p.whole && oddParity p.taken then [frameByte p.taken] else []

/-- The byte that waits for the driver. -/
def waiting (n : Nat) : List Byte :=
  if (s.cycle inputs n).uart.ibfO then [(s.cycle inputs n).uart.dataO] else []

/-- The driver clears the flag when it has the byte, and frames end when it has cleared it. -/
structure KeepsUp (n : Nat) : Prop where
  clears : (inputs n).ibfClr = true → (driver inputs s n).byte ≠ none
  inTime : (wbPort inputs s n).whole = true → (s.cycle inputs n).uart.ibfO = false

end Run

/-! ## A cycle of the driver -/

section Cycle

variable {debounceBits watchdogBits : Nat} {s : WbRegs debounceBits watchdogBits} {d : Driver}
  {i : WbInputs} {p : Port}

/-- What the driver knows is so. -/
structure Knows (d : Driver) (r : Regs debounceBits watchdogBits) : Prop where
  seen : d.seen = true → r.ibfO = true
  byte : ∀ byte, d.byte = some byte → d.seen = true ∧ byte = r.dataO

/-- An access that does not clear the flag, while the port keeps the byte. -/
theorem Knows.step_quiet (knows : Knows d s.uart) (quiet : i.ibfClr = false)
    {r : Regs debounceBits watchdogBits} (ibf : s.uart.ibfO = true → r.ibfO = true)
    (dataO : d.seen = true → r.dataO = s.uart.dataO) :
    Knows (d.step i (s.wbDatO i)) r ∧ (d.step i (s.wbDatO i)).got = d.got := by
  have kept : Knows d r := by
    refine ⟨fun seen => ibf (knows.seen seen), fun byte held => ?_⟩
    obtain ⟨seen, same⟩ := knows.byte byte held
    exact ⟨seen, same.trans (dataO seen).symm⟩
  rw [Driver.step, if_neg (by rw [quiet]; exact Bool.false_ne_true)]
  split
  case isFalse => exact ⟨kept, rfl⟩
  case isTrue =>
    split
    case isTrue status =>
      refine ⟨⟨fun seen => ?_, fun byte held => ?_⟩, rfl⟩
      · rw [WbRegs.wbDatO, if_pos status, s.statusReg_ibf, Bool.or_eq_true] at seen
        exact seen.elim kept.seen ibf
      · obtain ⟨seen, same⟩ := kept.byte byte held
        exact ⟨by rw [seen, Bool.true_or], same⟩
    case isFalse data =>
      refine ⟨⟨kept.seen, fun byte held => ?_⟩, rfl⟩
      rw [WbRegs.wbDatO, if_neg data] at held
      by_cases seen : d.seen = true
      case pos =>
        rw [if_pos seen] at held
        exact ⟨seen, (Option.some.inj held).symm.trans (dataO seen).symm⟩
      case neg =>
        rw [if_neg seen] at held
        exact absurd (kept.byte byte held).1 seen

theorem ibfO_step (follows : Follows s.uart p) : (s.step i).uart.ibfO =
    if i.ibfClr then false else if p.whole && oddParity p.taken then true else s.uart.ibfO := by
  rw [follows.ibf]
  exact follows.step.ibf

theorem dataO_step (follows : Follows s.uart p) :
    (s.step i).uart.dataO = if p.whole then frameByte p.taken else s.uart.dataO := by
  rw [follows.dataO]
  exact follows.step.dataO

end Cycle

/-! ## A run of the driver -/

section Run

variable {debounceBits watchdogBits : Nat} {inputs : Nat → WbInputs}
  {s : WbRegs debounceBits watchdogBits} {n : Nat}

/-- The driver at a cycle. -/
structure Polls (inputs : Nat → WbInputs) (s : WbRegs debounceBits watchdogBits) (n : Nat) : Prop
    where
  knows : Knows (driver inputs s n) (s.cycle inputs n).uart
  got : (driver inputs s n).got ++ waiting inputs s n = sent inputs s n

/-- A cycle in which a frame ends. -/
theorem Polls.step_whole (polls : Polls inputs s n) (keepsUp : KeepsUp inputs s n)
    (follows : Follows (s.cycle inputs n).uart (wbPort inputs s n))
    (whole : (wbPort inputs s n).whole = true) : Polls inputs s (n + 1) := by
  have flag := keepsUp.inTime whole
  have unseen : (driver inputs s n).seen ≠ true := by
    intro seen
    exact Bool.false_ne_true (flag.symm.trans (polls.knows.seen seen))
  have quiet : (inputs n).ibfClr = false := by
    refine Bool.eq_false_iff.mpr fun clears => ?_
    obtain ⟨byte, held⟩ := Option.ne_none_iff_exists'.mp (keepsUp.clears clears)
    exact unseen (polls.knows.byte byte held).1
  have ibf := ibfO_step (i := inputs n) follows
  have dataO := dataO_step (i := inputs n) follows
  rw [quiet, if_neg Bool.false_ne_true, whole, Bool.true_and, flag] at ibf
  rw [whole, if_pos rfl] at dataO
  obtain ⟨knows, got⟩ := polls.knows.step_quiet (r := (s.cycle inputs (n + 1)).uart) quiet
    (fun set => absurd (flag.symm.trans set) Bool.false_ne_true) (fun seen => absurd seen unseen)
  refine ⟨knows, ?_⟩
  have before := polls.got
  rw [waiting, flag, if_neg Bool.false_ne_true, List.append_nil] at before
  show (Driver.step _ _ _).got ++ (if ((s.cycle inputs n).step (inputs n)).uart.ibfO then
    [((s.cycle inputs n).step (inputs n)).uart.dataO] else []) = _
  rw [got, before, ibf, dataO, sent, whole, Bool.true_and]
  cases oddParity (wbPort inputs s n).taken <;> rfl

/-- A cycle in which no frame ends. -/
theorem Polls.step_open (polls : Polls inputs s n) (keepsUp : KeepsUp inputs s n)
    (follows : Follows (s.cycle inputs n).uart (wbPort inputs s n))
    (inFrame : (wbPort inputs s n).whole = false) : Polls inputs s (n + 1) := by
  have ibf := ibfO_step (i := inputs n) follows
  have dataO := dataO_step (i := inputs n) follows
  rw [inFrame, Bool.false_and, if_neg Bool.false_ne_true] at ibf
  rw [inFrame, if_neg Bool.false_ne_true] at dataO
  have before := polls.got
  have same : sent inputs s (n + 1) = sent inputs s n := by
    rw [sent, inFrame, Bool.false_and, if_neg Bool.false_ne_true, List.append_nil]
  cases clears : (inputs n).ibfClr with
  | true =>
      obtain ⟨byte, held⟩ := Option.ne_none_iff_exists'.mp (keepsUp.clears clears)
      obtain ⟨seen, rfl⟩ := polls.knows.byte byte held
      rw [clears, if_pos rfl] at ibf
      rw [waiting, polls.knows.seen seen, if_pos rfl] at before
      have step : driver inputs s (n + 1) =
          ⟨false, none, (driver inputs s n).got ++ [(s.cycle inputs n).uart.dataO]⟩ := by
        rw [driver, Driver.step, if_pos clears, held]
        rfl
      have flag : (s.cycle inputs (n + 1)).uart.ibfO = false := ibf
      refine ⟨?_, ?_⟩
      · rw [step]
        exact ⟨fun seen => absurd seen Bool.false_ne_true, fun _ held => nomatch held⟩
      · rw [step, waiting, flag, same, ← before, if_neg Bool.false_ne_true, List.append_nil]
  | false =>
      rw [clears, if_neg Bool.false_ne_true] at ibf
      obtain ⟨knows, got⟩ := polls.knows.step_quiet (r := (s.cycle inputs (n + 1)).uart) clears
        (fun set => ibf.trans set) (fun _ => dataO)
      have waits : waiting inputs s (n + 1) = waiting inputs s n := by
        rw [waiting, waiting, WbRegs.cycle, ibf, dataO]
      exact ⟨knows, by rw [waits, same, ← before]; exact congrArg (· ++ _) got⟩

/-- A cycle of the driver. -/
theorem Polls.step (polls : Polls inputs s n) (keepsUp : KeepsUp inputs s n)
    (follows : Follows (s.cycle inputs n).uart (wbPort inputs s n)) :
    Polls inputs s (n + 1) := by
  cases whole : (wbPort inputs s n).whole with
  | true => exact polls.step_whole keepsUp follows whole
  | false => exact polls.step_open keepsUp follows whole

theorem follows_wbPort (inputs : Nat → WbInputs) (dataOReg : Byte) (n : Nat) :
    let s : WbRegs debounceBits watchdogBits := .reset dataOReg
    Follows (s.cycle inputs n).uart (wbPort inputs s n) := by
  intro s
  rw [WbRegs.uart_cycle]
  exact (follows_reset dataOReg).run _ n

theorem Polls.run (dataOReg : Byte) (n : Nat)
    (keepsUp : ∀ m < n, KeepsUp inputs (.reset dataOReg : WbRegs debounceBits watchdogBits) m) :
    Polls inputs (.reset dataOReg : WbRegs debounceBits watchdogBits) n := by
  induction n with
  | zero => exact ⟨⟨fun seen => absurd seen Bool.false_ne_true, fun _ held => nomatch held⟩, rfl⟩
  | succ n ih =>
      have polls := ih fun m before => keepsUp m (Nat.lt_succ_of_lt before)
      have now := keepsUp n (Nat.lt_succ_self n)
      exact polls.step now (follows_wbPort inputs dataOReg n)

end Run

instance {debounceBits watchdogBits : Nat} (inputs : Nat → WbInputs)
    (s : WbRegs debounceBits watchdogBits) (n : Nat) : Decidable (KeepsUp inputs s n) :=
  decidable_of_iff
    (((inputs n).ibfClr = true → (driver inputs s n).byte ≠ none) ∧
      ((wbPort inputs s n).whole = true → (s.cycle inputs n).uart.ibfO = false))
    ⟨fun ⟨clears, inTime⟩ => ⟨clears, inTime⟩, fun keepsUp => ⟨keepsUp.clears, keepsUp.inTime⟩⟩

/-- **Every good byte is taken once**, in order, or is the one that waits. -/
theorem every_byte_once {debounceBits watchdogBits : Nat} (inputs : Nat → WbInputs)
    (dataOReg : Byte) (n : Nat)
    (keepsUp : ∀ m < n, KeepsUp inputs (.reset dataOReg : WbRegs debounceBits watchdogBits) m) :
    let s : WbRegs debounceBits watchdogBits := .reset dataOReg
    (driver inputs s n).got ++ waiting inputs s n = sent inputs s n := by
  intro s
  exact (Polls.run dataOReg n keepsUp).got

/-- The keyboard sends its scan code, and the driver polls the status, reads the data and clears
the flag. -/
def keyPolled (n : Nat) : WbInputs where
  wbDatI := 0
  wbAdrI := n ≠ 175
  wbStbI := 174 ≤ n
  wbWeI := n = 176
  ps2Clk := (keyPressed n).ps2Clk
  ps2Data := (keyPressed n).ps2Data

theorem every_byte_once_keyPolled :
    let s : WbRegs 2 8 := .reset 0
    (driver keyPolled s 177).got = [0x1c] ∧
      (driver keyPolled s 177).got ++ waiting keyPolled s 177 = sent keyPolled s 177 := by
  intro s
  exact ⟨by decide +kernel, every_byte_once keyPolled 0 177 (by decide +kernel)⟩

end OrpsocCores.Ps2
