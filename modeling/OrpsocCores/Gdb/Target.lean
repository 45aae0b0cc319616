import OrpsocCores.Foundation.WordMemory
import OrpsocCores.Gdb.Digits

/-!
# The target behind the debug interface

The debug server reaches the processor and the memory through the `gdb_read_*`
and `gdb_write_*` functions.  Every handler selects the chain before it makes an
access, so that the chain is a part of the name here: `Reg` and `Regs` are
accesses to processor registers, `Byte` and `Words` accesses to the Wishbone
memory.  A block is counted in words.

The functions of `rsp-rtl_sim.c` under them always report success.  The handlers
also deal with failures, so that the result of every access is left open: `Host`
gives the code that the access of this number returns and, when that is not
`ERR_NONE`, what a read leaves in its variable.  `Reliable` is the interface as it is.
`Host` also says how the process is laid out, where the code depends on it.

The processor keeps its registers by their address.  One that flushes its
pipeline when the next program counter is written answers reads of it with zero
from then until it is released; one that does not is plain storage.
-/

set_option autoImplicit false

namespace OrpsocCores.Gdb

/-! ## The processor -/

/-- Next program counter. -/
def npcCpuRegAdd : BitVec 32 := 0x10

/-- Supervision register. -/
def srCpuRegAdd : BitVec 32 := 0x11

/-- Previous program counter. -/
def ppcCpuRegAdd : BitVec 32 := 0x12

/-- The first general purpose register. -/
def gprCpuRegAdd : BitVec 32 := 0x400

/-- The first register of the debug group. -/
def dbgCpuRegAdd : BitVec 32 := 6#32 <<< 11

structure Cpu where
  spr : BitVec 32 → BitVec 32
  stalled : Bool
  flushed : Bool

/-! ## The process -/

/-- The codes that a debug access returns. -/
inductive EnumErrors where
  | errNone
  | errCrc
  | errMem
  | jtagProxyInvalidCommand
  | jtagProxyServerTerminated
  | jtagProxyNoConnection
  | jtagProxyProtocolError
  | jtagProxyCommandNotImplemented
  | jtagProxyInvalidChain
  | jtagProxyInvalidAddress
  | jtagProxyAccessException
  | jtagProxyInvalidLength
  | jtagProxyOutOfMemory
  deriving DecidableEq

/-- The value of a code. -/
def EnumErrors.code : EnumErrors → Int
  | .errNone => 0
  | .errCrc => -1
  | .errMem => -2
  | .jtagProxyInvalidCommand => -3
  | .jtagProxyServerTerminated => -4
  | .jtagProxyNoConnection => -5
  | .jtagProxyProtocolError => -6
  | .jtagProxyCommandNotImplemented => -7
  | .jtagProxyInvalidChain => -8
  | .jtagProxyInvalidAddress => -9
  | .jtagProxyAccessException => -10
  | .jtagProxyInvalidLength => -11
  | .jtagProxyOutOfMemory => -12

/-- A test `err > 0` never holds. -/
@[simp] theorem EnumErrors.not_code_pos (err : EnumErrors) : ¬ 0 < err.code := by
  cases err <;> decide

/-- How a debug access ends. -/
structure Access where
  err : EnumErrors
  garbage : Nat → BitVec 32

/-- What the code of the server depends on and does not decide: the result of
each debug access, whether the processor flushes its pipeline, what an
uninitialised buffer holds, which requests for memory `malloc` grants, the
address of the packet buffer, and how many bytes from there on can be written
without harm to the process. -/
structure Host where
  access : Nat → Access
  flushes : Bool
  uninit : Chars
  malloc : Nat → Bool
  bufAddress : Nat
  room : Nat

/-- Every debug access succeeds. -/
def Host.Reliable (host : Host) : Prop := ∀ n, (host.access n).err = .errNone

/-- `malloc`; a size that is not the size of any object is never granted. -/
def Host.mallocs (host : Host) (size : Int) : Bool :=
  0 ≤ size ∧ host.malloc size.toNat

/-- The processor, the memory, and the number of accesses made so far. -/
structure Target where
  cpu : Cpu
  memory : Memory
  performed : Nat

/-- What an access returns: its code and its data. -/
structure Result (α : Type) where
  target : Target
  err : EnumErrors
  data : α

section Accesses

variable (host : Host) (t : Target)

namespace Cpu

def read (cpu : Cpu) (adr : BitVec 32) : BitVec 32 :=
  if adr = npcCpuRegAdd ∧ cpu.flushed then 0 else cpu.spr adr

def write (cpu : Cpu) (adr data : BitVec 32) : Cpu :=
  { cpu with
    spr := Function.update cpu.spr adr data
    flushed := cpu.flushed || (host.flushes && adr == npcCpuRegAdd) }

/-- The words in ascending order. -/
def writeBlock (cpu : Cpu) (adr : BitVec 32) (data : Nat → BitVec 32) (words : Nat) : Cpu :=
  (List.range words).foldl (fun cpu i => cpu.write host (adr + BitVec.ofNat 32 i) (data i)) cpu

/-- The control register: stall the processor, or release it. -/
def control (cpu : Cpu) (stall : Bool) : Cpu :=
  { cpu with stalled := stall, flushed := stall && cpu.flushed }

end Cpu

/-- The code the next access returns. -/
def Target.err : EnumErrors := (host.access t.performed).err

/-- A read with this data when it succeeds. -/
def Target.reads {α : Type} (data garbage : α) : Result α :=
  ⟨{ t with performed := t.performed + 1 }, t.err host,
    if t.err host = .errNone then data else garbage⟩

/-- A write that leaves this behind when it succeeds. -/
def Target.writes (written : Target) : Result Unit :=
  ⟨{ (if t.err host = .errNone then written else t) with performed := t.performed + 1 },
    t.err host, ()⟩

/-! ## Accesses to the processor -/

def gdbReadRegs (adr : BitVec 32) : Result (Nat → BitVec 32) :=
  t.reads host (fun i => t.cpu.read (adr + BitVec.ofNat 32 i)) (host.access t.performed).garbage

def gdbReadReg (adr : BitVec 32) : Result (BitVec 32) :=
  t.reads host (t.cpu.read adr) ((host.access t.performed).garbage 0)

def gdbWriteRegs (adr : BitVec 32) (data : Nat → BitVec 32) (words : Nat) : Result Unit :=
  t.writes host { t with cpu := t.cpu.writeBlock host adr data words }

/-- The address `JTAG_RISCOP` is remapped. -/
def gdbWriteReg (adr data : BitVec 32) : Result Unit :=
  t.writes host { t with cpu := t.cpu.write host (if adr = 4 then 0 else adr) data }

/-! ## Accesses to the memory -/

def gdbReadByte (adr : BitVec 32) : Result Byte :=
  t.reads host (t.memory adr) (((host.access t.performed).garbage 0).setWidth 8)

def gdbReadWords (adr : BitVec 32) : Result (Nat → BitVec 32) :=
  t.reads host (fun i => readWord t.memory (adr + BitVec.ofNat 32 (4 * i)))
    (host.access t.performed).garbage

def gdbWriteByte (adr : BitVec 32) (data : Byte) : Result Unit :=
  t.writes host { t with memory := Function.update t.memory adr data }

def gdbWriteWords (adr : BitVec 32) (data : Nat → BitVec 32) (words : Nat) : Result Unit :=
  t.writes host
    { t with
      memory := (List.range words).foldl
        (fun memory i => writeWord memory (adr + BitVec.ofNat 32 (4 * i)) (data i)) t.memory }

end Accesses

/-! ## What the accesses do -/

section Reliable

variable {host : Host} (reliable : host.Reliable) (t : Target)
include reliable

theorem Target.reads_reliable {α : Type} (data garbage : α) :
    t.reads host data garbage = ⟨{ t with performed := t.performed + 1 }, .errNone, data⟩ := by
  simp [Target.reads, Target.err, reliable t.performed]

theorem Target.writes_reliable (written : Target) :
    t.writes host written = ⟨{ written with performed := t.performed + 1 }, .errNone, ()⟩ := by
  simp [Target.writes, Target.err, reliable t.performed]

end Reliable

namespace Cpu

variable (host : Host) (cpu : Cpu)

@[simp] theorem write_stalled (adr data : BitVec 32) :
    (cpu.write host adr data).stalled = cpu.stalled := rfl

@[simp] theorem write_spr (adr data : BitVec 32) :
    (cpu.write host adr data).spr = Function.update cpu.spr adr data := rfl

/-- The registers after the first words of a block. -/
theorem writeBlock_succ (adr : BitVec 32) (data : Nat → BitVec 32) (words : Nat) :
    cpu.writeBlock host adr data (words + 1) =
      (cpu.writeBlock host adr data words).write host (adr + BitVec.ofNat 32 words) (data words) := by
  rw [writeBlock, List.range_succ, List.foldl_append]
  rfl

@[simp] theorem writeBlock_stalled (adr : BitVec 32) (data : Nat → BitVec 32) (words : Nat) :
    (cpu.writeBlock host adr data words).stalled = cpu.stalled := by
  induction words with
  | zero => rfl
  | succ words ih => rw [writeBlock_succ, write_stalled, ih]

/-- A block write leaves the registers outside the block as they are. -/
theorem writeBlock_spr_outside {adr : BitVec 32} {data : Nat → BitVec 32} {words : Nat}
    {a : BitVec 32} (outside : ∀ i < words, a ≠ adr + BitVec.ofNat 32 i) :
    (cpu.writeBlock host adr data words).spr a = cpu.spr a := by
  induction words with
  | zero => rfl
  | succ words ih =>
      rw [writeBlock_succ, write_spr, Function.update_of_ne (outside words (Nat.lt_succ_self _)),
        ih fun i inside => outside i (Nat.lt_succ_of_lt inside)]

/-- A block write sets the registers of the block. -/
theorem writeBlock_spr_inside {adr : BitVec 32} {data : Nat → BitVec 32} {words i : Nat}
    (inside : i < words) (small : words ≤ 2 ^ 32) :
    (cpu.writeBlock host adr data words).spr (adr + BitVec.ofNat 32 i) = data i := by
  induction words with
  | zero => exact absurd inside (Nat.not_lt_zero i)
  | succ words ih =>
      rw [writeBlock_succ, write_spr]
      rcases Nat.lt_succ_iff_lt_or_eq.mp inside with before | rfl
      · have apart : adr + BitVec.ofNat 32 i ≠ adr + BitVec.ofNat 32 words := by
          bv_omega
        rw [Function.update_of_ne apart, ih before (by omega)]
      · rw [Function.update_self]

end Cpu

end OrpsocCores.Gdb
