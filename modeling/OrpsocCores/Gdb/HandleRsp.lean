import OrpsocCores.Gdb.Breakpoints
import OrpsocCores.Gdb.Requests

/-!
# The main loop of the debug server

The matchpoint requests, the dispatch of a packet on its first character, and
the loop of `handle_rsp`.  One pass of the loop waits for a client if there is
none, reports a stop if the client waits for one and the processor has stalled,
and then looks at what the client has sent.  What the loop finds there is its
input: nothing, the interrupt character, a packet, or the end of the connection.
Between two passes the processor runs if it is not stalled; it executes
instructions and may stall by itself.
-/

set_option autoImplicit false

namespace OrpsocCores.Gdb

open Scanf

/-- What the client has sent when the main loop looks. -/
inductive Input where
  | nothing
  | interrupt
  | packet (buf : RspBuf)
  | closed

/-- The requests that are told apart by the first character of a packet. -/
inductive RequestKind where
  | acknowledged
  | lastSignal
  | unsupported
  | continuing
  | detach
  | readAllRegs
  | writeAllRegs
  | cycleStep
  | readMem
  | writeMem
  | readReg
  | writeReg
  | query
  | setting
  | restart
  | stepping
  | vpkt
  | writeMemBin
  | removeMatchpoint
  | insertMatchpoint
  | ignored
  deriving DecidableEq

/-- The request for a first character. -/
def requestKind (ch : Byte) : RequestKind :=
  if ch = chr '!' ∨ ch = chr 'H' ∨ ch = chr 'T' then .acknowledged
  else if ch = chr '?' then .lastSignal
  else if ch = chr 'A' then .unsupported
  else if ch = chr 'c' then .continuing
  else if ch = chr 'D' then .detach
  else if ch = chr 'g' then .readAllRegs
  else if ch = chr 'G' then .writeAllRegs
  else if ch = chr 'i' ∨ ch = chr 'I' then .cycleStep
  else if ch = chr 'm' then .readMem
  else if ch = chr 'M' then .writeMem
  else if ch = chr 'p' then .readReg
  else if ch = chr 'P' then .writeReg
  else if ch = chr 'q' then .query
  else if ch = chr 'Q' then .setting
  else if ch = chr 'R' then .restart
  else if ch = chr 's' then .stepping
  else if ch = chr 'v' then .vpkt
  else if ch = chr 'X' then .writeMemBin
  else if ch = chr 'z' then .removeMatchpoint
  else if ch = chr 'Z' then .insertMatchpoint
  -- `b`, `B`, `C`, `d`, `F`, `k`, `r`, `S`, `t` and everything unknown
  else .ignored

namespace RspServer

/-- The replies of one state that an earlier one had not sent. -/
def replies (s s' : RspServer) : List (List Byte) := s'.sent.drop s.sent.length

theorem replies_of_sent {s s' : RspServer} {bodies : List (List Byte)}
    (sent : s'.sent = s.sent ++ bodies) : s.replies s' = bodies := by
  rw [replies, sent, List.drop_left]

/-- The indices computed on the way from one state to a later one. -/
def touches (s s' : RspServer) : List Touch := s'.touched.drop s.touched.length

section Handlers

variable (host : Host) (s : RspServer)

/-! ## Matchpoints -/

/-- The `BP_MEMORY` case of `rsp_remove_matchpoint`. -/
def removeMemory (addr : BitVec 32) : RspServer :=
  match s.mpHash (.bpMemory, addr) with
  | none => s.put (str "OK")
  | some instr =>
      let written := gdbWriteWords host s.target addr (fun _ => instr) 1
      let s : RspServer :=
        { s with target := written.target, mpHash := s.mpHash.delete (.bpMemory, addr) }
      if written.err ≠ .errNone then s.put (str "E01") else s.put (str "OK")

/-- `remove_hw_watchpoint`. -/
def removeWatchpoint (wpNum : Int) : RspServer :=
  { s with dbgRegs := removeHwWatchpoint s.dbgRegs wpNum, dbgRegsCacheDirty := 1 }.touch
    [.pair wpNum]

/-- The `BP_HARDWARE` case of `rsp_remove_matchpoint`.  The pair is removed before
the search is looked at, and once more after that. -/
def removeHardware (addr : BitVec 32) : RspServer :=
  let s := s.getDebugRegisters host
  let wpNum := findMatchingDcrdvrPair s.dbgRegs addr or1kCcEq
  let s := s.removeWatchpoint wpNum
  if wpNum < 0 then s.put (str "E01")
  else
    let s := s.removeWatchpoint wpNum
    { s with dbgRegs := disableHwBreakpoint s.dbgRegs wpNum, dbgRegsCacheDirty := 1 }.put
      (str "OK")

/-- `rsp_remove_matchpoint`. -/
def rspRemoveMatchpoint (buf : RspBuf) : RspServer :=
  match three (sscanf (matchpointFormat 'z') buf.cText) with
  | some (type, addr, _) =>
      if type = 0 then s.removeMemory host addr
      else if type = 1 then s.removeHardware host addr
      else if type = 2 ∨ type = 3 ∨ type = 4 then s.put []
      else s.put (str "E01")
  | none => s.put (str "E01")

/-- The `BP_MEMORY` case of `rsp_insert_matchpoint`.  The code of the read is not
looked at. -/
def insertMemory (addr : BitVec 32) : RspServer :=
  let instr := gdbReadWords host s.target addr
  let written := gdbWriteWords host instr.target addr (fun _ => or1kTrapInstr) 1
  let s : RspServer :=
    { s with target := written.target, mpHash := s.mpHash.add (.bpMemory, addr) (instr.data 0) }
  if written.err ≠ .errNone then s.put (str "E01") else s.put (str "OK")

/-- The `BP_HARDWARE` case of `rsp_insert_matchpoint`.  The reply that there is no
free pair is followed by the insertion into pair `-1`. -/
def insertHardware (addr : BitVec 32) : RspServer :=
  let s := s.getDebugRegisters host
  let wpNum := findFreeDcrdvrPair s.dbgRegs
  let s := if wpNum = -1 then s.put [] else s
  let s := { s with
    dbgRegs := insertHwWatchpoint s.dbgRegs wpNum addr or1kCcEq
    dbgRegsCacheDirty := 1 }.touch [.pair wpNum]
  { s with dbgRegs := enableHwBreakpoint s.dbgRegs wpNum }.put (str "OK")

/-- `rsp_insert_matchpoint`. -/
def rspInsertMatchpoint (buf : RspBuf) : RspServer :=
  match three (sscanf (matchpointFormat 'Z') buf.cText) with
  | some (type, addr, _) =>
      if type = 0 then s.insertMemory host addr
      else if type = 1 then s.insertHardware host addr
      else if type = 2 ∨ type = 3 ∨ type = 4 then s.put []
      else s.put (str "E01")
  | none => s.put (str "E01")

/-! ## Dispatch -/

/-- `rsp_client_request`, for a packet. -/
def rspClientRequest (buf : RspBuf) : RspServer :=
  match requestKind (buf.chars 0) with
  | .acknowledged => s.put (str "OK")
  | .lastSignal => s.rspReportException
  | .unsupported => s.put (str "E01")
  | .continuing => s.rspContinue host buf
  | .detach => { s.put (str "OK") with connected := false, running := false }
  | .readAllRegs => s.rspReadAllRegs host
  | .writeAllRegs => s.rspWriteAllRegs host buf
  | .cycleStep => { s with clientWaiting := true }
  | .readMem => s.rspReadMem host buf
  | .writeMem => s.rspWriteMem host buf
  | .readReg => s.rspReadReg host buf
  | .writeReg => s.rspWriteReg host buf
  | .query => s.rspQuery host buf
  | .setting => s.rspSet buf
  | .restart => s.rspRestart host
  | .stepping => s.rspStep host buf
  | .vpkt => s.rspVpkt host buf
  | .writeMemBin => s.rspWriteMemBin host buf
  | .removeMatchpoint => s.rspRemoveMatchpoint host buf
  | .insertMatchpoint => s.rspInsertMatchpoint host buf
  | .ignored => s

/-- A `readspr` for a register number in range. -/
theorem rspClientRequest_readspr {buf : RspBuf} {regno : BitVec 32}
    (kind : requestKind (buf.chars 0) = .query) (isCommand : buf.startsWith "qRcmd," = true)
    (isRead : (str "readspr").isPrefixOf (command buf) = true)
    (parsed : one (sscanf readsprFormat (command buf)) = some regno)
    (accepted : regno.toNat ≤ maxSprs) :
    s.rspClientRequest host buf = s.readspr host regno := by
  rw [rspClientRequest, kind]
  dsimp only
  rw [rspQuery_command isCommand, rspCommand, if_pos isRead, parsed]
  exact if_neg (Nat.not_lt.mpr accepted)

/-! ## The loop -/

/-- `rsp_init`.  The flag of the cached debug registers keeps its value. -/
def rspInit : RspServer :=
  let s : RspServer :=
    { s with
      clientWaiting := false
      connected := false
      sigval := targetSignalTrap
      startAddr := 0x100
      dbgRegs := fun i => if 0 ≤ i ∧ i < dbgGroupWords then 0 else s.dbgRegs i
      mpHash := fun _ => none
      stallState := .stalled
      npcIsCached := false }
  (s.getNpc host).1

/-- `rsp_interrupt`, and what the loop does after it. -/
def rspInterrupt : RspServer :=
  let s := { s.setStallState true with sigval := targetSignalNone }.rspReportException
  { s with clientWaiting := false }

/-- The address of the last instruction; it is only read from the processor when
the server knows it to be stalled. -/
def readPpc (ppc : BitVec 32) : RspServer × BitVec 32 :=
  if s.stallState = .stalled then
    let read := gdbReadReg host s.target ppcCpuRegAdd
    ({ s with target := read.target }, read.data)
  else (s, ppc)

/-- A stop is reported if there is one. -/
def answerStop (ppc : BitVec 32) : RspServer :=
  if s.sigval = targetSignalTrap ∧ (s.mpHash (.bpMemory, ppc)).isSome then
    let s := if s.stallState ≠ .stalled then s.rspCheckForException host else s
    -- a software breakpoint: go back to the instruction it stands for
    { (s.setNpc host ppc).rspReportException with clientWaiting := false }
  else if s.stallState = .stalled then { s.rspReportException with clientWaiting := false }
  else s

/-- The part of the loop that reports a stop to a waiting client.  `ppc` is the
variable of `handle_rsp` for the address of the last instruction. -/
def reportStop (ppc : BitVec 32) : RspServer × BitVec 32 :=
  let read := (s.rspCheckForException host).readPpc host ppc
  (read.1.answerStop host read.2, read.2)

/-- The part of the loop that waits for a client. -/
def connect : RspServer :=
  if s.connected then s else { s with connected := true, clientWaiting := false }

/-- The part of the loop that looks at the input. -/
def handleInput : Input → RspServer
  | .nothing => s
  | .interrupt => if s.stallState ≠ .stalled then s.rspInterrupt else s
  | .packet buf => if s.clientWaiting then s else s.rspClientRequest host buf
  | .closed => if s.clientWaiting then s else { s with connected := false }

end Handlers

end RspServer

/-- A packet that carries a text. -/
def packetBuf (text : String) : RspBuf :=
  ⟨Vector.ofFn fun i => (str text).getD i.val 0, (str text).length⟩

/-- A process in which every debug access succeeds. -/
def idleHost : Host where
  access := fun _ => ⟨.errNone, fun _ => 0⟩
  flushes := true
  uninit := fun _ => 0
  malloc := fun _ => true
  bufAddress := 0x10000
  room := gdbBufMax

/-- The server when its process starts, with a stalled processor whose registers
are zero. -/
def idleServer : RspServer where
  target := ⟨⟨fun _ => 0, true, false⟩, fun _ => 0, 0⟩
  stallState := .stalled
  npcIsCached := false
  npcCachedValue := 0
  dbgRegs := fun _ => 0
  dbgRegsCacheDirty := -1
  gprRegs := fun _ => 0
  clientWaiting := false
  connected := true
  sigval := 0
  startAddr := 0
  mpHash := fun _ => none
  sent := []
  touched := []
  running := true

/-- The server between two passes of its loop, with the variable of `handle_rsp`. -/
structure Session where
  server : RspServer
  ppc : BitVec 32

/-- One thing that happens: a pass of the loop with this input, or the processor,
if it is not stalled, runs on to these registers and stalls or does not. -/
inductive Event where
  | pass (input : Input)
  | cpu (spr : BitVec 32 → BitVec 32) (stalls : Bool)

namespace Session

variable (host : Host)

/-- The processor runs, unless it is stalled. -/
def run (x : Session) (spr : BitVec 32 → BitVec 32) (stalls : Bool) : Session :=
  if x.server.target.cpu.stalled then x
  else
    { x with
      server := { x.server with
        target := { x.server.target with cpu := ⟨spr, stalls, false⟩ } } }

/-- A pass of the loop up to the input. -/
def beforeInput (x : Session) : Session :=
  let s := x.server.connect
  if s.clientWaiting then ⟨(s.reportStop host x.ppc).1, (s.reportStop host x.ppc).2⟩
  else ⟨s, x.ppc⟩

/-- One pass of the loop. -/
def pass (x : Session) (input : Input) : Session :=
  if x.server.running then
    let x := x.beforeInput host
    { x with server := x.server.handleInput host input }
  else x

def step (x : Session) : Event → Session
  | .pass input => x.pass host input
  | .cpu spr stalls => x.run spr stalls

end Session

end OrpsocCores.Gdb
