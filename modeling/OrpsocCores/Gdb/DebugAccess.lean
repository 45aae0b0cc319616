import OrpsocCores.Gdb.Target
import OrpsocCores.JpVpi.Bridge

/-!
# The debug accesses of the server

`Target` says what the server takes its debug accesses to do.  In the process they are the
functions at the end of `gdb.c`, which look at the chain that was set last and call a function
of `rsp-rtl_sim.c`.

An `Op` is an access as the requests make it: with the chain set in front of it.  It is one call
and never refused, whatever chain was set before (`Op.access_eq`).
-/

set_option autoImplicit false

namespace OrpsocCores.Gdb

open JpVpi (Call BlockLength)

/-! ## The functions of the server -/

/-- The chains of `gdb.h`. -/
inductive Sc where
  | global
  | riscDebug
  | riscTest
  | trace
  | register
  | wishbone
  | block
  deriving DecidableEq

/-- What a function does: a call of `rsp-rtl_sim.c`, which always succeeds, or none. -/
inductive DebugAccess (α : Type) where
  | call (c : Call) (data : JpVpi.Result → α)
  | ret (err : EnumErrors) (data : α)

/-- The data of a call that reads a byte, a register or a block. -/
def byteOf : JpVpi.Result → Byte
  | .byte data => data
  | _ => 0

def wordOf : JpVpi.Result → BitVec 32
  | .word data => data
  | .words data => data.headD 0
  | _ => 0

def wordsOf : JpVpi.Result → List (BitVec 32)
  | .words data => data
  | _ => []

namespace DebugAccess

def map {α β : Type} (f : α → β) : DebugAccess α → DebugAccess β
  | .call c data => .call c fun result => f (data result)
  | .ret err data => .ret err (f data)

/-- The code and the data of an access, when its call has given this result. -/
def answer {α : Type} : DebugAccess α → JpVpi.Result → EnumErrors × α
  | .call _ data, result => (.errNone, data result)
  | .ret err data, _ => (err, data)

section Functions

-- `gdb_chain`, where `none` is the `-1`
variable (gdbChain : Option Sc)

def gdbSetChain (chain : Sc) : EnumErrors × Option Sc :=
  match chain with
  | .riscDebug | .register | .trace | .wishbone => (.errNone, some chain)
  | _ => (.jtagProxyInvalidChain, gdbChain)

/-- `old` is what the variable for the data holds before. -/
def gdbReadByte (adr : BitVec 32) (old : Byte) : DebugAccess Byte :=
  match gdbChain with
  | some .riscDebug | some .register => .ret .errNone 0
  | some .wishbone => .call (.wbRead8 adr) byteOf
  | some .trace => .ret .errNone 0
  | _ => .ret .jtagProxyInvalidChain old

/-- The control register is read into the first byte of the variable. -/
def gdbReadReg (adr : BitVec 32) (old : BitVec 32) : DebugAccess (BitVec 32) :=
  match gdbChain with
  | some .riscDebug => .call (.cpu0Read adr 4) wordOf
  | some .register => .call .cpu0ReadCtrl fun result => old.extractLsb' 8 24 ++ byteOf result
  | some .wishbone => .call (.wbRead32 adr) wordOf
  | some .trace => .ret .errNone 0
  | _ => .ret .jtagProxyInvalidChain old

def gdbWriteByte (adr : BitVec 32) (data : Byte) : DebugAccess Unit :=
  match gdbChain with
  | some .wishbone => .call (.wbWrite8 adr data) fun _ => ()
  | _ => .ret .jtagProxyInvalidChain ()

def jtagRiscop : BitVec 32 := 0x4

def gdbWriteReg (adr data : BitVec 32) : DebugAccess Unit :=
  match gdbChain with
  | some .riscDebug =>
      .call (.cpu0Write (if adr = jtagRiscop then 0x00 else adr) [data]) fun _ => ()
  | some .register => .call (.cpu0WriteCtrl (data.setWidth 8)) fun _ => ()
  | some .wishbone => .call (.wbWrite32 adr data) fun _ => ()
  | some .trace => .ret .errNone ()
  | _ => .ret .jtagProxyInvalidChain ()

def gdbReadBlock (adr : BitVec 32) (len : Nat) (old : List (BitVec 32)) :
    DebugAccess (List (BitVec 32)) :=
  match gdbChain with
  | some .riscDebug => .call (.cpu0Read adr len) wordsOf
  | some .wishbone => .call (.wbReadBlock32 adr len) wordsOf
  | _ => .ret .jtagProxyInvalidChain old

def gdbWriteBlock (adr : BitVec 32) (data : List (BitVec 32)) : DebugAccess Unit :=
  match gdbChain with
  | some .riscDebug => .call (.cpu0Write adr data) fun _ => ()
  | some .wishbone => .call (.wbWriteBlock32 adr data) fun _ => ()
  | _ => .ret .jtagProxyInvalidChain ()

end Functions

end DebugAccess

/-! ## Accesses -/

/-- An access of the server to its target. -/
inductive Op where
  | readByte (adr : BitVec 32)
  | writeByte (adr : BitVec 32) (data : Byte)
  | readWords (adr : BitVec 32) (words : Nat)
  | writeWords (adr : BitVec 32) (data : List (BitVec 32))
  | readReg (adr : BitVec 32)
  | writeReg (adr data : BitVec 32)
  | readRegs (adr : BitVec 32) (words : Nat)
  | writeRegs (adr : BitVec 32) (data : List (BitVec 32))
  /-- `dbg_cpu0_write_ctrl`, as in `set_stall_state`. -/
  | writeCtrl (data : Byte)
  /-- `dbg_cpu0_read_ctrl`, of which `rsp_check_for_exception` looks at the stall bit. -/
  | readCtrl

/-- What an access gives to the server. -/
inductive Outcome where
  | none
  | byte (data : Byte)
  | word (data : BitVec 32)
  | words (data : List (BitVec 32))
  | stalled (stalled : Bool)
  deriving DecidableEq

namespace Op

/-- A block has a word, and fits into the storage of the simulator. -/
def Valid : Op → Prop
  | .readWords _ words | .readRegs _ words => BlockLength (4 * words)
  | .writeWords _ data | .writeRegs _ data => BlockLength (4 * data.length)
  | _ => True

/-- The access, whatever chain was set before it and the variables of the server hold. -/
def access (gdbChain : Option Sc) (old : List (BitVec 32)) (op : Op) : DebugAccess Outcome :=
  let wishbone := (DebugAccess.gdbSetChain gdbChain .wishbone).2
  let riscDebug := (DebugAccess.gdbSetChain gdbChain .riscDebug).2
  match op with
  | .readByte adr => (DebugAccess.gdbReadByte wishbone adr ((old.headD 0).setWidth 8)).map .byte
  | .writeByte adr data => (DebugAccess.gdbWriteByte wishbone adr data).map fun _ => .none
  | .readWords adr words => (DebugAccess.gdbReadBlock wishbone adr (4 * words) old).map .words
  | .writeWords adr data => (DebugAccess.gdbWriteBlock wishbone adr data).map fun _ => .none
  | .readReg adr => (DebugAccess.gdbReadReg riscDebug adr (old.headD 0)).map .word
  | .writeReg adr data => (DebugAccess.gdbWriteReg riscDebug adr data).map fun _ => .none
  | .readRegs adr words => (DebugAccess.gdbReadBlock riscDebug adr (4 * words) old).map .words
  | .writeRegs adr data => (DebugAccess.gdbWriteBlock riscDebug adr data).map fun _ => .none
  | .writeCtrl data => .call (.cpu0WriteCtrl data) fun _ => .none
  | .readCtrl => .call .cpu0ReadCtrl fun result => .stalled ((byteOf result).getLsbD 0)

/-- The call that an access is. -/
def call : Op → Call
  | .readByte adr => .wbRead8 adr
  | .writeByte adr data => .wbWrite8 adr data
  | .readWords adr words => .wbReadBlock32 adr (4 * words)
  | .writeWords adr data => .wbWriteBlock32 adr data
  | .readReg adr => .cpu0Read adr 4
  | .writeReg adr data => .cpu0Write (if adr = DebugAccess.jtagRiscop then 0x00 else adr) [data]
  | .readRegs adr words => .cpu0Read adr (4 * words)
  | .writeRegs adr data => .cpu0Write adr data
  | .writeCtrl data => .cpu0WriteCtrl data
  | .readCtrl => .cpu0ReadCtrl

/-- What comes of its result. -/
def outcome : Op → JpVpi.Result → Outcome
  | .readByte _, result => .byte (byteOf result)
  | .readWords _ _, result => .words (wordsOf result)
  | .readReg _, result => .word (wordOf result)
  | .readRegs _ _, result => .words (wordsOf result)
  | .readCtrl, result => .stalled ((byteOf result).getLsbD 0)
  | _, _ => .none

/-- Every access is one call. -/
theorem access_eq (gdbChain : Option Sc) (old : List (BitVec 32)) (op : Op) :
    op.access gdbChain old = .call op.call op.outcome := by
  cases op <;> rfl

theorem blockLength_word : BlockLength (4 * 1) := by decide

theorem blockLength_single (data : BitVec 32) : BlockLength (4 * [data].length) :=
  blockLength_word

theorem Valid.call {op : Op} (valid : op.Valid) : op.call.Valid := by
  cases op with
  | readWords | writeWords | readRegs | writeRegs => exact valid
  | readReg => exact blockLength_word
  | writeReg _ data => exact blockLength_single data
  | readByte | writeByte | writeCtrl | readCtrl => trivial

end Op

end OrpsocCores.Gdb
