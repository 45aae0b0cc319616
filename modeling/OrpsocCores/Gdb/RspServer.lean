import OrpsocCores.Gdb.DebugRegisters
import OrpsocCores.Gdb.MatchpointTable

/-!
# The state of the debug server

`RspServer` holds the static variables of `gdb.c` and the target.  The
matchpoint table is the map that its chains were shown to keep.  What the server
sends is the list of the bodies of its packets; how a packet is framed, and sent
again until the client acknowledges it, is the business of `putPacket`.

Two lists are not variables of the program: `touched` records the indices that
the code computes for its arrays, and `running` is false once the process has
ended, be it that it exits or that it is killed by an access to memory it does
not have.
-/

set_option autoImplicit false

namespace OrpsocCores.Gdb

inductive StallState where
  | stalled
  | unstalled
  | unknown
  deriving DecidableEq

/-- An element of an array that the code has computed the index of: a pair of
debug registers, a word of the cached debug registers, a word behind the start of
`gpr_regs`. -/
inductive Touch where
  | pair (wpNum : Int)
  | cacheWord (i : Nat)
  | gprWord (i : Nat)
  deriving DecidableEq

/-- The element is one of its array. -/
def Touch.InRange : Touch → Prop
  | .pair wpNum => 0 ≤ wpNum ∧ wpNum < or1kMaxMatchpoints
  | .cacheWord i => i < dbgGroupWords
  | .gprWord i => i < maxGprs

structure RspServer where
  target : Target
  stallState : StallState
  npcIsCached : Bool
  npcCachedValue : BitVec 32
  dbgRegs : DbgGroupRegs
  dbgRegsCacheDirty : Int
  gprRegs : Nat → BitVec 32
  clientWaiting : Bool
  connected : Bool
  sigval : Nat
  startAddr : BitVec 32
  mpHash : MpMap
  sent : List (List Byte)
  touched : List Touch
  running : Bool

/-- The signals of the client. -/
def targetSignalNone : Nat := 0
def targetSignalInt : Nat := 2
def targetSignalIll : Nat := 4
def targetSignalTrap : Nat := 5
def targetSignalFpe : Nat := 8
def targetSignalBus : Nat := 10
def targetSignalSegv : Nat := 11
def targetSignalAlrm : Nat := 14
def targetSignalUsr2 : Nat := 31
def targetSignalPwr : Nat := 32

namespace RspServer

section Operations

variable (host : Host) (s : RspServer)

/-- `put_packet` and `put_str_packet`: a packet with this body. -/
def put (body : List Byte) : RspServer := { s with sent := s.sent ++ [body] }

/-- The access that was made is not to memory of the process. -/
def crash : RspServer := { s with running := false }

def touch (touched : List Touch) : RspServer := { s with touched := s.touched ++ touched }

/-! ## The next program counter -/

/-- `get_npc`: the server afterwards and the value. -/
def getNpc : RspServer × BitVec 32 :=
  if s.stallState = .stalled then
    if s.npcIsCached then (s, s.npcCachedValue)
    else
      let npc := gdbReadReg host s.target npcCpuRegAdd
      let s : RspServer := { s with target := npc.target, npcCachedValue := npc.data }
      if 0 < npc.err.code then ({ s with connected := false }, 0)
      else ({ s with npcIsCached := true }, npc.data)
  else
    let npc := gdbReadReg host s.target npcCpuRegAdd
    let s : RspServer := { s with target := npc.target }
    if 0 < npc.err.code then ({ s with connected := false }, 0) else (s, npc.data)

/-- `set_npc`: nothing is written when the value is the current one. -/
def setNpc (addr : BitVec 32) : RspServer :=
  let current := s.getNpc host
  if addr = current.2 then current.1
  else
    let s : RspServer := { current.1 with
      target := (gdbWriteReg host current.1.target npcCpuRegAdd addr).target }
    if s.stallState = .stalled then { s with npcCachedValue := addr, npcIsCached := true }
    else { s with npcIsCached := false }

@[simp] theorem getNpc_cpu : (s.getNpc host).1.target.cpu = s.target.cpu := by
  unfold getNpc
  dsimp only
  split_ifs <;> rfl

@[simp] theorem getNpc_stallState : (s.getNpc host).1.stallState = s.stallState := by
  unfold getNpc
  dsimp only
  split_ifs <;> rfl

@[simp] theorem getNpc_dbgRegs : (s.getNpc host).1.dbgRegs = s.dbgRegs := by
  unfold getNpc
  dsimp only
  split_ifs <;> rfl

@[simp] theorem getNpc_dbgRegsCacheDirty :
    (s.getNpc host).1.dbgRegsCacheDirty = s.dbgRegsCacheDirty := by
  unfold getNpc
  dsimp only
  split_ifs <;> rfl

@[simp] theorem getNpc_touched : (s.getNpc host).1.touched = s.touched := by
  unfold getNpc
  dsimp only
  split_ifs <;> rfl

@[simp] theorem getNpc_sent : (s.getNpc host).1.sent = s.sent := by
  unfold getNpc
  dsimp only
  split_ifs <;> rfl

@[simp] theorem setNpc_stallState (addr : BitVec 32) :
    (s.setNpc host addr).stallState = s.stallState := by
  unfold setNpc
  dsimp only
  split_ifs <;> exact s.getNpc_stallState host

@[simp] theorem setNpc_touched (addr : BitVec 32) : (s.setNpc host addr).touched = s.touched := by
  unfold setNpc
  dsimp only
  split_ifs <;> exact s.getNpc_touched host

@[simp] theorem setNpc_sent (addr : BitVec 32) : (s.setNpc host addr).sent = s.sent := by
  unfold setNpc
  dsimp only
  split_ifs <;> exact s.getNpc_sent host

/-! ## The debug registers -/

/-- `get_debug_registers`: nothing is read while there is a copy. -/
def getDebugRegisters : RspServer :=
  if s.dbgRegsCacheDirty ≠ -1 then s
  else
    let regs := gdbReadRegs host s.target dbgCpuRegAdd
    { s with
      target := regs.target
      dbgRegs := fun i => if 0 ≤ i ∧ i < dbgGroupWords then regs.data i.toNat else s.dbgRegs i
      dbgRegsCacheDirty := 0 }

@[simp] theorem getDebugRegisters_cpu : (s.getDebugRegisters host).target.cpu = s.target.cpu := by
  unfold getDebugRegisters
  split <;> rfl

@[simp] theorem getDebugRegisters_stallState :
    (s.getDebugRegisters host).stallState = s.stallState := by
  unfold getDebugRegisters
  split <;> rfl

@[simp] theorem getDebugRegisters_touched : (s.getDebugRegisters host).touched = s.touched := by
  unfold getDebugRegisters
  split <;> rfl

@[simp] theorem getDebugRegisters_sent : (s.getDebugRegisters host).sent = s.sent := by
  unfold getDebugRegisters
  split <;> rfl

/-- `put_debug_registers`. -/
def putDebugRegisters : RspServer :=
  { s with
    target := (gdbWriteRegs host s.target dbgCpuRegAdd (fun i => s.dbgRegs i)
      dbgGroupWords).target }

/-! ## Running and stalling -/

/-- `set_stall_state`. -/
def setStallState (state : Bool) : RspServer :=
  let target := { s.target with cpu := s.target.cpu.control state }
  if state then { s with target := target, stallState := .stalled }
  else
    { s with
      target := target
      stallState := .unstalled
      npcIsCached := false
      sigval := targetSignalNone }

/-- The signal for the contents of the debug reason register. -/
def signalOf (drr : BitVec 32) : Nat :=
  if drr = 0x1 then targetSignalPwr
  else if drr = 0x2 then targetSignalBus
  else if drr = 0x4 then targetSignalSegv
  else if drr = 0x8 then targetSignalSegv
  else if drr = 0x10 then targetSignalAlrm
  else if drr = 0x20 then targetSignalBus
  else if drr = 0x40 then targetSignalIll
  else if drr = 0x80 then targetSignalInt
  else if drr = 0x100 then targetSignalSegv
  else if drr = 0x200 then targetSignalSegv
  else if drr = 0x400 then targetSignalFpe
  else if drr = 0x800 then targetSignalUsr2
  else if drr = 0x1000 then targetSignalFpe
  else targetSignalTrap

/-- `rsp_check_for_exception`. -/
def rspCheckForException : RspServer :=
  if s.target.cpu.stalled then
    let s : RspServer := { s with stallState := .stalled, npcIsCached := false }
    let s := s.getDebugRegisters host
    { s with sigval := signalOf (s.dbgRegs drr) }
  else s

/-- `rsp_report_exception`: the stop reply. -/
def rspReportException : RspServer :=
  s.put [chr 'S', digit (s.sigval / 16), digit (s.sigval % 16)]

/-- `rsp_continue_generic`. -/
def rspContinueGeneric (addr : BitVec 32) : RspServer :=
  let s := s.setNpc host addr
  let s : RspServer := { s with dbgRegs := continueRegs s.dbgRegs, dbgRegsCacheDirty := 1 }
  let s := (s.putDebugRegisters host).setStallState false
  { s with dbgRegsCacheDirty := -1, clientWaiting := true }

/-- `rsp_step_generic`. -/
def rspStepGeneric (addr : BitVec 32) : RspServer :=
  let s := s.setNpc host addr
  let s : RspServer := { s with dbgRegs := stepRegs s.dbgRegs, dbgRegsCacheDirty := 1 }
  let s := (s.putDebugRegisters host).setStallState false
  { s with dbgRegsCacheDirty := -1, clientWaiting := true }

/-- `setup_or32`: both of its writes go to the control register of the processor
and stall it; `stallState` does not learn of it. -/
def setupOr32 : RspServer :=
  let read := s.target.reads host () ()
  let first := read.target.writes host { read.target with cpu := read.target.cpu.control true }
  let second :=
    first.target.writes host { first.target with cpu := first.target.cpu.control true }
  { s with target := second.target }

end Operations

end RspServer

end OrpsocCores.Gdb
