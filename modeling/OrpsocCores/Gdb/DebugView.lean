import OrpsocCores.Gdb.HandleRsp

/-!
# What matters for stopping and resuming

Of all the state of the debug server and its target, `View` keeps the cached
debug registers with their flag, the debug registers and the next program counter
of the processor, the cache of the next program counter, the pending signal, and
who is waiting for whom.  On it a request is one of a few operations (`DebugRequest`), and
`debugRequest` reads off a packet which one it is.

`view_rspClientRequest` says that the server does to its view what that operation
does, for every packet, as long as the debug accesses succeed.  The results about
whole sessions are proved on the view.
-/

set_option autoImplicit false

namespace OrpsocCores.Gdb

open Scanf

/-! ## The view -/

structure View where
  regs : DbgGroupRegs
  dirty : Int
  cpuRegs : Nat → BitVec 32
  npc : BitVec 32
  flushed : Bool
  stalled : Bool
  stallState : StallState
  npcIsCached : Bool
  npcCachedValue : BitVec 32
  clientWaiting : Bool
  connected : Bool
  sigval : Nat
  startAddr : BitVec 32

/-- The debug registers of a processor. -/
def Cpu.debugRegs (cpu : Cpu) : Nat → BitVec 32 := fun i =>
  if i < dbgGroupWords then cpu.spr (dbgCpuRegAdd + BitVec.ofNat 32 i) else 0

def RspServer.view (s : RspServer) : View where
  regs := s.dbgRegs
  dirty := s.dbgRegsCacheDirty
  cpuRegs := s.target.cpu.debugRegs
  npc := s.target.cpu.spr npcCpuRegAdd
  flushed := s.target.cpu.flushed
  stalled := s.target.cpu.stalled
  stallState := s.stallState
  npcIsCached := s.npcIsCached
  npcCachedValue := s.npcCachedValue
  clientWaiting := s.clientWaiting
  connected := s.connected
  sigval := s.sigval
  startAddr := s.startAddr

/-- A debug register of the processor, by its address. -/
theorem RspServer.view_cpuRegs (s : RspServer) {i : Nat} (inside : i < dbgGroupWords) :
    s.view.cpuRegs i = s.target.cpu.spr (dbgCpuRegAdd + BitVec.ofNat 32 i) := if_pos inside

/-- What a request comes to for the view. -/
inductive DebugRequest where
  | none
  | readNpc
  | writeNpc (val : BitVec 32)
  | restart
  | readWord (i : Nat)
  | writeWord (i : Nat) (val : BitVec 32)
  | insert (addr : BitVec 32)
  | remove (addr : BitVec 32)
  | resume (step : Bool) (addr : Option (BitVec 32))
  | wait
  | detach
  | stall
  deriving DecidableEq

namespace View

variable (flushes : Bool) (v : View)

/-- The next program counter as the processor answers. -/
def readNpc : BitVec 32 := if v.flushed then 0 else v.npc

def getNpc : View × BitVec 32 :=
  if v.stallState = .stalled then
    if v.npcIsCached then (v, v.npcCachedValue)
    else ({ v with npcCachedValue := v.readNpc, npcIsCached := true }, v.readNpc)
  else (v, v.readNpc)

def setNpc (addr : BitVec 32) : View :=
  if addr = v.getNpc.2 then v.getNpc.1
  else
    let v := { v.getNpc.1 with npc := addr, flushed := v.getNpc.1.flushed || flushes }
    if v.stallState = .stalled then { v with npcCachedValue := addr, npcIsCached := true }
    else { v with npcIsCached := false }

def fetch : View :=
  if v.dirty ≠ -1 then v
  else
    { v with
      regs := fun i => if 0 ≤ i ∧ i < dbgGroupWords then v.cpuRegs i.toNat else v.regs i
      dirty := 0 }

/-- What a resume request writes back. -/
def resumeRegs (step : Bool) (regs : DbgGroupRegs) : DbgGroupRegs :=
  if step then stepRegs regs else continueRegs regs

def resume (step : Bool) (addr : BitVec 32) : View :=
  let v := v.setNpc flushes addr
  { v with
    regs := resumeRegs step v.regs
    dirty := -1
    cpuRegs := fun i => if i < dbgGroupWords then resumeRegs step v.regs i else 0
    flushed := false
    stalled := false
    stallState := .unstalled
    npcIsCached := false
    clientWaiting := true
    sigval := targetSignalNone }

def apply : DebugRequest → View
  | .none => v
  | .readNpc => v.getNpc.1
  | .writeNpc val => v.setNpc flushes val
  | .restart => v.setNpc flushes v.startAddr
  | .readWord _ => { v.fetch with dirty := 0 }
  | .writeWord i val => { v.fetch with regs := Function.update v.fetch.regs i val, dirty := 1 }
  | .insert addr => { v.fetch with regs := insertHwBreakpoint v.fetch.regs addr, dirty := 1 }
  | .remove addr => { v.fetch with regs := removeHwBreakpoint v.fetch.regs addr, dirty := 1 }
  | .resume step (some addr) => v.resume flushes step addr
  | .resume step none => v.getNpc.1.resume flushes step v.getNpc.2
  | .wait => { v with clientWaiting := true }
  | .detach => { v with connected := false }
  | .stall => { v with stalled := true }

end View

/-! ## Reading a packet -/

/-- What a `qRcmd` command comes to. -/
def commandRequest (cmd : List Byte) : DebugRequest :=
  if (str "readspr").isPrefixOf cmd then
    match one (sscanf readsprFormat cmd) with
    | some regno =>
        if maxSprs < regno.toNat then .none
        else if regno = npcCpuRegAdd then .readNpc
        else if RspServer.inDebugGroup regno then .readWord (RspServer.cacheWord regno)
        else .none
    | none => .none
  else if (str "writespr").isPrefixOf cmd then
    match two (sscanf writesprFormat cmd) with
    | some (regno, val) =>
        if maxSprs < regno.toNat then .none
        else if regno = npcCpuRegAdd then .writeNpc val
        else if RspServer.inDebugGroup regno then .writeWord (RspServer.cacheWord regno) val
        else .none
    | none => .none
  else .none

/-- What a `Z` or `z` request comes to. -/
def matchpointRequest (request : Char) (hardware : BitVec 32 → DebugRequest) (buf : RspBuf) :
    DebugRequest :=
  match three (sscanf (matchpointFormat request) buf.cText) with
  | some (type, addr, _) => if type = 1 then hardware addr else .none
  | none => .none

/-- Where a `c` or `s` request says to resume. -/
def resumeRequest (request : Char) (buf : RspBuf) : Option (BitVec 32) :=
  if buf.cText = [chr request] then none
  else
    match one (sscanf (resumeFormat request) buf.cText) with
    | some addr => some addr
    | none => none

/-- What a packet comes to. -/
def debugRequest (host : Host) (buf : RspBuf) : DebugRequest :=
  match requestKind (buf.chars 0) with
  | .continuing => .resume false (resumeRequest 'c' buf)
  | .stepping => .resume true (resumeRequest 's' buf)
  | .detach => .detach
  | .cycleStep => .wait
  | .writeAllRegs => .writeNpc (RspServer.packetReg buf npcRegnum)
  | .readReg =>
      match one (sscanf readRegFormat buf.cText) with
      | some regnum => if regnum.toNat = npcRegnum then .readNpc else .none
      | none => .none
  | .writeReg =>
      match numberAndWord (sscanf writeRegFormat buf.cText) with
      | some (regnum, valstr) =>
          if regnum.toNat = npcRegnum then .writeNpc (hex2reg (storeString host.uninit 0 valstr))
          else .none
      | none => .none
  | .query =>
      if buf.startsWith "qRcmd," then commandRequest (RspServer.command buf)
      else if buf.startsWith "qSupported" then .stall
      else .none
  | .restart => .restart
  | .vpkt => if buf.startsWith "vRun;" then .restart else .none
  | .removeMatchpoint => matchpointRequest 'z' .remove buf
  | .insertMatchpoint => matchpointRequest 'Z' .insert buf
  | _ => .none

/-! ## What the accesses do to the processor -/

/-- A register outside the debug group and other than the next program counter. -/
structure Plain (adr : BitVec 32) : Prop where
  notNpc : adr ≠ npcCpuRegAdd
  notDebug : ∀ i < dbgGroupWords, dbgCpuRegAdd + BitVec.ofNat 32 i ≠ adr

namespace Cpu

variable (host : Host) (cpu : Cpu)

theorem write_plain {adr : BitVec 32} (plain : Plain adr) (data : BitVec 32) :
    (cpu.write host adr data).debugRegs = cpu.debugRegs ∧
      (cpu.write host adr data).spr npcCpuRegAdd = cpu.spr npcCpuRegAdd ∧
      (cpu.write host adr data).flushed = cpu.flushed := by
  refine ⟨?_, Function.update_of_ne plain.notNpc.symm _ _, ?_⟩
  · funext i
    by_cases inside : i < dbgGroupWords
    · simp only [debugRegs, if_pos inside]
      exact Function.update_of_ne (plain.notDebug i inside) _ _
    · simp only [debugRegs, if_neg inside]
  · simp [write, plain.notNpc]

theorem writeBlock_plain {adr : BitVec 32} {words : Nat}
    (plain : ∀ i < words, Plain (adr + BitVec.ofNat 32 i)) (data : Nat → BitVec 32) :
    (cpu.writeBlock host adr data words).debugRegs = cpu.debugRegs ∧
      (cpu.writeBlock host adr data words).spr npcCpuRegAdd = cpu.spr npcCpuRegAdd ∧
      (cpu.writeBlock host adr data words).flushed = cpu.flushed := by
  induction words with
  | zero => exact ⟨rfl, rfl, rfl⟩
  | succ words ih =>
      obtain ⟨debug, npc, flushed⟩ := ih fun i inside => plain i (Nat.lt_succ_of_lt inside)
      obtain ⟨debug', npc', flushed'⟩ :=
        (cpu.writeBlock host adr data words).write_plain host (plain words (Nat.lt_succ_self _))
          (data words)
      rw [writeBlock_succ]
      exact ⟨debug'.trans debug, npc'.trans npc, flushed'.trans flushed⟩

end Cpu

theorem debugGroup_ne_npc : ∀ i < dbgGroupWords, dbgCpuRegAdd + BitVec.ofNat 32 i ≠ npcCpuRegAdd := by
  decide

theorem plain_gpr {regnum : BitVec 32} (small : regnum.toNat < 256) :
    Plain (gprCpuRegAdd + regnum) := by
  have isPlain : ∀ n < 256, Plain (gprCpuRegAdd + BitVec.ofNat 32 n) := by
    intro n bound
    refine ⟨?_, fun i inside => ?_⟩
    · simp only [gprCpuRegAdd, npcCpuRegAdd]
      bv_omega
    · simp only [gprCpuRegAdd, dbgCpuRegAdd, dbgGroupWords] at inside ⊢
      bv_omega
  simpa using isPlain regnum.toNat small

theorem plain_ppc : Plain ppcCpuRegAdd := ⟨by decide, by decide⟩

theorem plain_sr : Plain srCpuRegAdd := ⟨by decide, by decide⟩

theorem plain_of_not_inDebugGroup {regno : BitVec 32} (other : regno ≠ npcCpuRegAdd)
    (outside : RspServer.inDebugGroup regno = false) : Plain regno := by
  refine ⟨other, fun i inside same => ?_⟩
  have isInside : ∀ i < dbgGroupWords,
      RspServer.inDebugGroup (dbgCpuRegAdd + BitVec.ofNat 32 i) = true := by decide
  rw [← same, isInside i inside] at outside
  exact absurd outside (by decide)

section Blocks

variable (host : Host)

@[simp] theorem gdbReadByte_cpu (t : Target) (adr : BitVec 32) :
    (gdbReadByte host t adr).target.cpu = t.cpu := rfl

@[simp] theorem gdbReadWords_cpu (t : Target) (adr : BitVec 32) :
    (gdbReadWords host t adr).target.cpu = t.cpu := rfl

@[simp] theorem gdbReadReg_cpu (t : Target) (adr : BitVec 32) :
    (gdbReadReg host t adr).target.cpu = t.cpu := rfl

@[simp] theorem gdbReadRegs_cpu (t : Target) (adr : BitVec 32) :
    (gdbReadRegs host t adr).target.cpu = t.cpu := rfl

@[simp] theorem gdbWriteByte_cpu (t : Target) (adr : BitVec 32) (data : Byte) :
    (gdbWriteByte host t adr data).target.cpu = t.cpu := by
  simp only [gdbWriteByte, Target.writes]
  split <;> rfl

@[simp] theorem gdbWriteWords_cpu (t : Target) (adr : BitVec 32) (data : Nat → BitVec 32)
    (words : Nat) : (gdbWriteWords host t adr data words).target.cpu = t.cpu := by
  simp only [gdbWriteWords, Target.writes]
  split <;> rfl

@[simp] theorem readBytes_cpu (t : Target) (addr : BitVec 32) (n : Nat) :
    (readBytes host t addr n).target.cpu = t.cpu := by
  induction n generalizing t addr with
  | zero => rfl
  | succ n ih =>
      simp only [readBytes]
      split
      · rfl
      · exact ih _ _

@[simp] theorem readMemory_cpu (t : Target) (addr : BitVec 32) (n : Nat) :
    (readMemory host t addr n).target.cpu = t.cpu := by
  simp only [readMemory]
  split_ifs <;> simp

@[simp] theorem writeNibbles_cpu (t : Target) (addr val : BitVec 32) (nibc : Nat)
    (digits : List Byte) : (writeNibbles host t addr val nibc digits).target.cpu = t.cpu := by
  induction digits generalizing t addr val nibc with
  | nil => rfl
  | cons ch rest ih =>
      simp only [writeNibbles]
      split
      · split
        · exact gdbWriteWords_cpu host _ _ _ _
        · exact (ih _ _ _ _).trans (gdbWriteWords_cpu host _ _ _ _)
      · exact ih _ _ _ _

@[simp] theorem writeBytes_cpu (t : Target) (addr : BitVec 32) (data : Chars) (n : Nat) :
    (writeBytes host t addr data n).target.cpu = t.cpu := by
  induction n with
  | zero => rfl
  | succ n ih =>
      rw [writeBytes, List.range_succ, List.foldl_append, ← writeBytes]
      exact (gdbWriteByte_cpu host _ _ _).trans ih

@[simp] theorem writeMemory_cpu (t : Target) (addr : BitVec 32) (data : Chars) (n : Nat) :
    (writeMemory host t addr data n).target.cpu = t.cpu := by
  simp only [writeMemory]
  split_ifs <;> simp

end Blocks

/-! ## What the functions of the server do to the view -/

namespace RspServer

section Frame

variable (host : Host) (s : RspServer)

@[simp] theorem view_put (body : List Byte) : (s.put body).view = s.view := rfl

@[simp] theorem view_crash : s.crash.view = s.view := rfl

@[simp] theorem view_touch (touched : List Touch) : (s.touch touched).view = s.view := rfl

@[simp] theorem view_rspReportException : s.rspReportException.view = s.view := rfl

theorem view_ite {p : Prop} [Decidable p] {s s' : RspServer} {v : View} (first : s.view = v)
    (second : s'.view = v) : (if p then s else s').view = v := by
  split
  · exact first
  · exact second

/-- Only the processor matters of the target. -/
theorem view_target {t : Target} (same : t.cpu = s.target.cpu) :
    ({ s with target := t } : RspServer).view = s.view := by
  simp [view, same]

theorem view_readCpuReg (adr : BitVec 32) : (s.readCpuReg host adr).view = s.view := by
  simp only [readCpuReg, EnumErrors.not_code_pos, if_false, view_put]
  exact s.view_target (gdbReadReg_cpu host s.target adr)

theorem view_rspReadAllRegs : (s.rspReadAllRegs host).view = s.view :=
  s.view_target (t := (gdbReadRegs host (gdbReadRegs host s.target gprCpuRegAdd).target
    npcCpuRegAdd).target) rfl

theorem view_rspReadMem (buf : RspBuf) : (s.rspReadMem host buf).view = s.view := by
  have read (addr : BitVec 32) (n : Nat) := s.view_target (readMemory_cpu host s.target addr n)
  unfold rspReadMem
  split
  · dsimp only
    split_ifs <;> first | rfl | exact read _ _
  · rfl

theorem view_rspWriteMem (buf : RspBuf) : (s.rspWriteMem host buf).view = s.view := by
  have written (addr : BitVec 32) (digits : List Byte) :=
    s.view_target (writeNibbles_cpu host s.target addr 0 0 digits)
  unfold rspWriteMem
  split
  · dsimp only
    split_ifs <;> first | rfl | exact written _ _
  · rfl

theorem view_rspWriteMemBin (buf : RspBuf) : (s.rspWriteMemBin host buf).view = s.view := by
  have written (addr : BitVec 32) (data : Chars) (n : Nat) :=
    s.view_target (writeMemory_cpu host s.target addr data n)
  unfold rspWriteMemBin
  split
  · split
    · rfl
    · dsimp only
      split
      · rfl
      · split
        · rfl
        · split_ifs <;> first | rfl | exact written _ _ _
  · rfl

theorem view_rspSet (buf : RspBuf) : (s.rspSet buf).view = s.view := by
  unfold rspSet
  split_ifs <;> rfl

theorem view_insertMemory (addr : BitVec 32) : (s.insertMemory host addr).view = s.view := by
  unfold insertMemory
  dsimp only
  split <;> exact s.view_target (gdbWriteWords_cpu host _ _ _ _)

theorem view_removeMemory (addr : BitVec 32) : (s.removeMemory host addr).view = s.view := by
  unfold removeMemory
  split
  · rfl
  · dsimp only
    split <;> exact s.view_target (gdbWriteWords_cpu host _ _ _ _)

theorem view_matchpoint {request : Char} {buf : RspBuf}
    {memory hardware : BitVec 32 → RspServer} {op : BitVec 32 → DebugRequest}
    (quiet : ∀ addr, (memory addr).view = s.view)
    (effect : ∀ addr, (hardware addr).view = s.view.apply host.flushes (op addr)) :
    (match three (sscanf (matchpointFormat request) buf.cText) with
      | some (type, addr, _) =>
          if type = 0 then memory addr
          else if type = 1 then hardware addr
          else if type = 2 ∨ type = 3 ∨ type = 4 then s.put []
          else s.put (str "E01")
      | none => s.put (str "E01")).view =
      s.view.apply host.flushes (matchpointRequest request op buf) := by
  unfold matchpointRequest
  cases three (sscanf (matchpointFormat request) buf.cText) with
  | none => rfl
  | some all =>
      obtain ⟨type, addr, len⟩ := all
      dsimp only
      split_ifs with isMemory isHardware isHardware
      · exact absurd (isMemory.symm.trans isHardware) (by decide)
      · exact quiet addr
      · exact effect addr
      · rfl
      · rfl

end Frame

section Reliable

variable {host : Host} (reliable : host.Reliable) (s : RspServer)
include reliable

theorem view_getNpc :
    (s.getNpc host).1.view = s.view.getNpc.1 ∧ (s.getNpc host).2 = s.view.getNpc.2 := by
  have answered (reg : BitVec 32) :
      (gdbReadReg host s.target reg).data = s.target.cpu.read reg := by
    rw [gdbReadReg, Target.reads_reliable reliable]
  have npc : s.target.cpu.read npcCpuRegAdd = s.view.readNpc := by
    cases flushed : s.target.cpu.flushed <;> simp [Cpu.read, View.readNpc, view, flushed]
  unfold getNpc View.getNpc
  simp only [EnumErrors.not_code_pos, if_false, answered, npc]
  rw [show s.view.stallState = s.stallState from rfl,
    show s.view.npcIsCached = s.npcIsCached from rfl]
  split_ifs
  · exact ⟨rfl, rfl⟩
  · exact ⟨by simp [view], rfl⟩
  · exact ⟨s.view_target rfl, rfl⟩

/-- Writing a register and nothing else. -/
theorem gdbWriteReg_reliable (t : Target) (adr data : BitVec 32) :
    (gdbWriteReg host t adr data).target.cpu =
      t.cpu.write host (if adr = 4 then 0 else adr) data := by
  rw [gdbWriteReg, Target.writes_reliable reliable]

theorem view_setNpc (addr : BitVec 32) :
    (s.setNpc host addr).view = s.view.setNpc host.flushes addr := by
  obtain ⟨after, value⟩ := s.view_getNpc reliable
  have debug (cpu : Cpu) : (cpu.write host npcCpuRegAdd addr).debugRegs = cpu.debugRegs := by
    funext i
    by_cases inside : i < dbgGroupWords
    · simp only [Cpu.debugRegs, if_pos inside]
      exact Function.update_of_ne (debugGroup_ne_npc i inside) _ _
    · simp only [Cpu.debugRegs, if_neg inside]
  have cpu : (gdbWriteReg host (s.getNpc host).1.target npcCpuRegAdd addr).target.cpu =
      (s.getNpc host).1.target.cpu.write host npcCpuRegAdd addr := by
    rw [gdbWriteReg_reliable reliable, if_neg (by decide)]
  simp only [setNpc, View.setNpc]
  rw [value]
  split_ifs with same stalled stalled' stalled'
  · exact after
  all_goals
    rw [← after] at *
    simp_all [view, Cpu.write]

theorem view_getDebugRegisters : (s.getDebugRegisters host).view = s.view.fetch := by
  unfold getDebugRegisters View.fetch
  rw [show s.view.dirty = s.dbgRegsCacheDirty from rfl]
  split_ifs with copy
  · rfl
  · have data : (gdbReadRegs host s.target dbgCpuRegAdd).data =
        fun i => s.target.cpu.read (dbgCpuRegAdd + BitVec.ofNat 32 i) := by
      rw [gdbReadRegs, Target.reads_reliable reliable]
    have regs : (fun i : Int => if 0 ≤ i ∧ i < dbgGroupWords then
          (gdbReadRegs host s.target dbgCpuRegAdd).data i.toNat else s.dbgRegs i) =
        fun i : Int => if 0 ≤ i ∧ i < dbgGroupWords then s.target.cpu.debugRegs i.toNat
          else s.dbgRegs i := by
      funext i
      split_ifs with inside
      · have small : i.toNat < dbgGroupWords := by omega
        simp only [data]
        rw [Cpu.debugRegs, if_pos small, Cpu.read,
          if_neg fun both => debugGroup_ne_npc _ small both.1]
      · rfl
    simp only [view, regs]
    rfl

theorem view_writeCpuReg {adr : BitVec 32} (plain : Plain adr) (val : BitVec 32) :
    (s.writeCpuReg host adr val).view = s.view := by
  have remapped : Plain (if adr = 4 then 0 else adr) := by
    split_ifs
    · exact ⟨by decide, by decide⟩
    · exact plain
  obtain ⟨debug, npc, flushed⟩ := s.target.cpu.write_plain host remapped val
  simp only [writeCpuReg, EnumErrors.not_code_pos, if_false, view_put]
  simp only [view, gdbWriteReg_reliable reliable, debug, npc, flushed, Cpu.write_stalled]

theorem view_rspWriteAllRegs (buf : RspBuf) :
    (s.rspWriteAllRegs host buf).view =
      s.view.setNpc host.flushes (packetReg buf npcRegnum) := by
  have gprs : ∀ i < gprBlockWords, Plain (gprCpuRegAdd + BitVec.ofNat 32 i) := by
    intro i inside
    simp only [gprBlockWords, maxGprs] at inside
    apply plain_gpr
    rw [BitVec.toNat_ofNat]
    omega
  have pcs : ∀ i < 2, Plain (srCpuRegAdd + BitVec.ofNat 32 i) := by
    intro i inside
    interval_cases i
    · simpa using plain_sr
    · exact plain_ppc
  have block (t : Target) {adr : BitVec 32} {words : Nat} (data : Nat → BitVec 32)
      (plain : ∀ i < words, Plain (adr + BitVec.ofNat 32 i)) :
      (gdbWriteRegs host t adr data words).target.cpu.debugRegs = t.cpu.debugRegs ∧
        (gdbWriteRegs host t adr data words).target.cpu.spr npcCpuRegAdd =
          t.cpu.spr npcCpuRegAdd ∧
        (gdbWriteRegs host t adr data words).target.cpu.flushed = t.cpu.flushed ∧
        (gdbWriteRegs host t adr data words).target.cpu.stalled = t.cpu.stalled := by
    obtain ⟨debug, npc, flushed⟩ := t.cpu.writeBlock_plain host plain data
    rw [gdbWriteRegs, Target.writes_reliable reliable]
    exact ⟨debug, npc, flushed, Cpu.writeBlock_stalled host _ _ _ _⟩
  rw [rspWriteAllRegs, view_put, view_setNpc reliable]
  congr 1
  simp only [view, touch]
  obtain ⟨debug, npc, flushed, stalled⟩ := block s.target
    (fun i => if i < maxGprs then packetReg buf i else s.gprRegs i) gprs
  obtain ⟨debug', npc', flushed', stalled'⟩ := block
    (gdbWriteRegs host s.target gprCpuRegAdd
      (fun i => if i < maxGprs then packetReg buf i else s.gprRegs i) gprBlockWords).target
    (fun i => if i = 0 then packetReg buf srRegnum else packetReg buf ppcRegnum) pcs
  rw [debug', npc', flushed', stalled', debug, npc, flushed, stalled]

theorem view_readspr (regno : BitVec 32) :
    (s.readspr host regno).view =
      s.view.apply host.flushes
        (if regno = npcCpuRegAdd then .readNpc
        else if inDebugGroup regno then .readWord (cacheWord regno)
        else .none) := by
  unfold readspr
  dsimp only
  split_ifs
  · exact (s.view_getNpc reliable).1
  · rw [View.apply, ← s.view_getDebugRegisters reliable]
    rfl
  · exact s.view_target rfl

theorem view_writespr (regno val : BitVec 32) :
    (s.writespr host regno val).view =
      s.view.apply host.flushes
        (if regno = npcCpuRegAdd then .writeNpc val
        else if inDebugGroup regno then .writeWord (cacheWord regno) val
        else .none) := by
  unfold writespr
  split_ifs with npc debug
  · exact s.view_setNpc reliable val
  · rw [View.apply, ← s.view_getDebugRegisters reliable]
    rfl
  · have outside : inDebugGroup regno = false := Bool.eq_false_iff.mpr debug
    exact s.view_writeCpuReg reliable (plain_of_not_inDebugGroup npc outside) val

theorem view_rspCommand (buf : RspBuf) :
    (s.rspCommand host buf).view = s.view.apply host.flushes (commandRequest (command buf)) := by
  unfold rspCommand commandRequest
  dsimp only
  split_ifs
  · cases one (sscanf readsprFormat (command buf)) with
    | none => rfl
    | some regno =>
        dsimp only
        split_ifs <;> simp_all [view_readspr reliable, View.apply]
  · cases two (sscanf writesprFormat (command buf)) with
    | none => rfl
    | some both =>
        obtain ⟨regno, val⟩ := both
        dsimp only
        split_ifs <;> simp_all [view_writespr reliable, View.apply]
  · rfl

theorem view_removeHardware (addr : BitVec 32) :
    (s.removeHardware host addr).view = s.view.apply host.flushes (.remove addr) := by
  rw [View.apply, ← s.view_getDebugRegisters reliable]
  unfold removeHardware removeHwBreakpoint
  dsimp only [RspServer.view]
  split_ifs <;> rfl

theorem view_insertHardware (addr : BitVec 32) :
    (s.insertHardware host addr).view = s.view.apply host.flushes (.insert addr) := by
  rw [View.apply, ← s.view_getDebugRegisters reliable]
  unfold insertHardware insertHwBreakpoint
  dsimp only [RspServer.view]
  split_ifs <;> rfl

theorem view_setupOr32 : (s.setupOr32 host).view = s.view.apply host.flushes .stall := by
  simp only [setupOr32, Target.reads_reliable reliable, Target.writes_reliable reliable]
  rfl

theorem view_rspQuery (buf : RspBuf) :
    (s.rspQuery host buf).view = s.view.apply host.flushes
      (if buf.startsWith "qRcmd," then commandRequest (command buf)
      else if buf.startsWith "qSupported" then .stall
      else .none) := by
  split_ifs with isCommand isSupported
  · rw [rspQuery_command isCommand, view_rspCommand reliable]
  · rw [rspQuery_supported isSupported, view_put, view_setupOr32 reliable]
  · unfold rspQuery
    iterate 9 apply view_ite rfl
    rw [if_neg isCommand, if_neg isSupported]
    iterate 4 apply view_ite rfl
    rfl

theorem view_rspReadReg (buf : RspBuf) :
    (s.rspReadReg host buf).view = s.view.apply host.flushes
      (match one (sscanf readRegFormat buf.cText) with
      | some regnum => if regnum.toNat = npcRegnum then .readNpc else .none
      | none => .none) := by
  unfold rspReadReg
  cases one (sscanf readRegFormat buf.cText) with
  | none => rfl
  | some regnum =>
      dsimp only
      by_cases npc : regnum.toNat = npcRegnum
      · rw [if_neg (by rw [npc]; decide), if_neg (by rw [npc]; decide), if_pos npc, if_pos npc]
        exact (s.view_getNpc reliable).1
      · rw [if_neg npc, if_neg npc]
        split_ifs
        · exact s.view_readCpuReg host _
        · exact s.view_readCpuReg host _
        · exact s.view_readCpuReg host _
        · rfl

theorem view_rspWriteReg (buf : RspBuf) :
    (s.rspWriteReg host buf).view = s.view.apply host.flushes
      (match numberAndWord (sscanf writeRegFormat buf.cText) with
      | some (regnum, valstr) =>
          if regnum.toNat = npcRegnum then .writeNpc (hex2reg (storeString host.uninit 0 valstr))
          else .none
      | none => .none) := by
  unfold rspWriteReg
  cases numberAndWord (sscanf writeRegFormat buf.cText) with
  | none => rfl
  | some both =>
      obtain ⟨regnum, valstr⟩ := both
      dsimp only
      by_cases npc : regnum.toNat = npcRegnum
      · rw [if_neg (by rw [npc]; decide), if_neg (by rw [npc]; decide), if_pos npc, if_pos npc]
        exact s.view_setNpc reliable _
      · rw [if_neg npc, if_neg npc]
        split_ifs with gpr
        · exact s.view_writeCpuReg reliable (plain_gpr (Nat.lt_trans gpr (by decide))) _
        · exact s.view_writeCpuReg reliable plain_ppc _
        · exact s.view_writeCpuReg reliable plain_sr _
        · rfl

theorem view_rspVpkt (buf : RspBuf) :
    (s.rspVpkt host buf).view = s.view.apply host.flushes
      (if buf.startsWith "vRun;" then .restart else .none) := by
  split_ifs with isRun
  · have ne {other : String} (apart : ¬ str "vRun;" <+: str other) :=
      RspBuf.ne_of_startsWith isRun apart
    have not {other : String} (apart : ¬ (str "vRun;" <+: str other ∨ str other <+: str "vRun;")) :=
      RspBuf.not_startsWith isRun apart
    rw [rspVpkt, not (by decide), if_neg (by decide), if_neg (ne (by decide)), not (by decide),
      not (by decide), not (by decide), not (by decide), if_neg (ne (by decide)), isRun]
    exact s.view_setNpc reliable s.startAddr
  · unfold rspVpkt
    split_ifs <;> rfl

theorem view_resumeAddr (buf : RspBuf) (request : Char) :
    (s.resumeAddr host buf request).1.view =
        (match resumeRequest request buf with
          | some _ => s.view
          | none => s.view.getNpc.1) ∧
      (s.resumeAddr host buf request).2 =
        (match resumeRequest request buf with
          | some addr => addr
          | none => s.view.getNpc.2) := by
  unfold resumeAddr resumeRequest
  split_ifs
  · exact s.view_getNpc reliable
  · cases one (sscanf (resumeFormat request) buf.cText) with
    | none => exact s.view_getNpc reliable
    | some addr => exact ⟨rfl, rfl⟩

/-- The end of a resume request. -/
theorem view_release (step : Bool) (addr : BitVec 32)
    (regs : DbgGroupRegs) (same : regs = View.resumeRegs step (s.setNpc host addr).dbgRegs) :
    ({ ((({ s.setNpc host addr with dbgRegs := regs, dbgRegsCacheDirty := 1 } :
        RspServer).putDebugRegisters host).setStallState false) with
      dbgRegsCacheDirty := -1, clientWaiting := true } : RspServer).view =
      s.view.resume host.flushes step addr := by
  have after := s.view_setNpc reliable addr
  subst same
  rw [View.resume, ← after]
  simp only [putDebugRegisters, gdbWriteRegs, Target.writes_reliable reliable, setStallState,
    Cpu.control, Bool.false_and, view, Bool.false_eq_true, if_false]
  congr 1
  funext i
  by_cases inside : i < dbgGroupWords
  · simp only [Cpu.debugRegs, if_pos inside]
    exact Cpu.writeBlock_spr_inside host _ inside (by decide)
  · simp only [Cpu.debugRegs, if_neg inside]

theorem view_rspContinue (buf : RspBuf) :
    (s.rspContinue host buf).view =
      s.view.apply host.flushes (.resume false (resumeRequest 'c' buf)) := by
  obtain ⟨after, addr⟩ := s.view_resumeAddr reliable buf 'c'
  refine (view_release reliable (s.resumeAddr host buf 'c').1 false _ _ rfl).trans ?_
  rw [after, addr]
  cases resumeRequest 'c' buf <;> rfl

theorem view_rspStep (buf : RspBuf) :
    (s.rspStep host buf).view =
      s.view.apply host.flushes (.resume true (resumeRequest 's' buf)) := by
  obtain ⟨after, addr⟩ := s.view_resumeAddr reliable buf 's'
  refine (view_release reliable (s.resumeAddr host buf 's').1 true _ _ rfl).trans ?_
  rw [after, addr]
  cases resumeRequest 's' buf <;> rfl

/-- **What a packet does to the view.** -/
theorem view_rspClientRequest (buf : RspBuf) :
    (s.rspClientRequest host buf).view =
      s.view.apply host.flushes (debugRequest host buf) := by
  unfold rspClientRequest debugRequest
  cases requestKind (buf.chars 0) with
  | continuing => exact s.view_rspContinue reliable buf
  | readAllRegs => exact s.view_rspReadAllRegs host
  | writeAllRegs => exact s.view_rspWriteAllRegs reliable buf
  | readMem => exact s.view_rspReadMem host buf
  | writeMem => exact s.view_rspWriteMem host buf
  | readReg => exact s.view_rspReadReg reliable buf
  | writeReg => exact s.view_rspWriteReg reliable buf
  | query => exact s.view_rspQuery reliable buf
  | setting => exact s.view_rspSet buf
  | restart => exact s.view_setNpc reliable s.startAddr
  | stepping => exact s.view_rspStep reliable buf
  | vpkt => exact s.view_rspVpkt reliable buf
  | writeMemBin => exact s.view_rspWriteMemBin host buf
  | removeMatchpoint =>
      exact s.view_matchpoint host (s.view_removeMemory host) (s.view_removeHardware reliable)
  | insertMatchpoint =>
      exact s.view_matchpoint host (s.view_insertMemory host) (s.view_insertHardware reliable)
  | _ => rfl

end Reliable

end RspServer

end OrpsocCores.Gdb
