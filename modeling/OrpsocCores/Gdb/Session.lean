import OrpsocCores.Foundation.Trace
import OrpsocCores.Gdb.DebugView

/-!
# Sessions

A session is what becomes of the server and its target, from `rsp_init` on, as
the main loop passes over its input again and again and the processor runs in
between.  On the view an event of a session is a `ViewEvent`: it keeps the
registers that the processor runs on to, the request a packet comes to, and the
address of a software breakpoint that a pass finds the processor to have hit.
`view_step` connects the two.
-/

set_option autoImplicit false

namespace OrpsocCores.Gdb

/-! ## Events on the view -/

/-- The input of a pass. -/
inductive ViewInput where
  | nothing
  | interrupt
  | request (request : DebugRequest)
  | closed

inductive ViewEvent where
  | pass (rollback : Option (BitVec 32)) (input : ViewInput)
  | cpu (debugRegs : Nat → BitVec 32) (npc : BitVec 32) (stalls : Bool)
  | ended

namespace View

variable (flushes : Bool) (v : View)

/-- The server looks whether the processor has stalled. -/
def check : View :=
  if v.stalled then
    let v := { v with stallState := .stalled, npcIsCached := false }.fetch
    { v with sigval := RspServer.signalOf (v.regs drr) }
  else v

/-- A waiting client is told of a stop, after a software breakpoint with the next
program counter set back to it. -/
def answerStop : Option (BitVec 32) → View
  | some ppc =>
      if v.sigval = targetSignalTrap then { v.setNpc flushes ppc with clientWaiting := false }
      else if v.stallState = .stalled then { v with clientWaiting := false }
      else v
  | none => if v.stallState = .stalled then { v with clientWaiting := false } else v

def reportStop (rollback : Option (BitVec 32)) : View := v.check.answerStop flushes rollback

/-- The server stalls the processor and reports it. -/
def interrupt : View :=
  { v with stalled := true, stallState := .stalled, sigval := targetSignalNone, clientWaiting := false }

def input : ViewInput → View
  | .nothing => v
  | .interrupt => if v.stallState ≠ .stalled then v.interrupt else v
  | .request request => if v.clientWaiting then v else v.apply flushes request
  | .closed => if v.clientWaiting then v else { v with connected := false }

@[simp] theorem input_interrupt :
    v.input flushes .interrupt = if v.stallState ≠ .stalled then v.interrupt else v := rfl

@[simp] theorem input_request (request : DebugRequest) :
    v.input flushes (.request request) = if v.clientWaiting then v else v.apply flushes request :=
  rfl

@[simp] theorem input_closed :
    v.input flushes .closed = if v.clientWaiting then v else { v with connected := false } := rfl

/-- A client is there. -/
def connect : View :=
  if v.connected then v else { v with connected := true, clientWaiting := false }

/-- The view in front of the input of a pass. -/
def beforeInput (rollback : Option (BitVec 32)) : View :=
  if v.connect.clientWaiting then v.connect.reportStop flushes rollback else v.connect

/-- The processor runs, unless it is stalled. -/
def run (debugRegs : Nat → BitVec 32) (npc : BitVec 32) (stalls : Bool) : View :=
  if v.stalled then v
  else { v with cpuRegs := debugRegs, npc := npc, stalled := stalls, flushed := false }

def step : ViewEvent → View
  | .pass rollback input => (v.beforeInput flushes rollback).input flushes input
  | .cpu debugRegs npc stalls => v.run debugRegs npc stalls
  | .ended => v

@[simp] theorem fetch_stalled : v.fetch.stalled = v.stalled := by
  unfold fetch
  split_ifs <;> rfl

@[simp] theorem fetch_stallState : v.fetch.stallState = v.stallState := by
  unfold fetch
  split_ifs <;> rfl

/-- A look never leaves a stalled processor unnoticed. -/
theorem not_stalled_of_check (unnoticed : v.check.stallState ≠ .stalled) : v.stalled = false := by
  by_contra stalled
  rw [check, if_pos (by simpa using stalled)] at unnoticed
  simp at unnoticed

end View

/-! ## Events of a session -/

namespace RspServer

variable (host : Host) (s : RspServer)

/-- The address of the software breakpoint that the processor has hit. -/
def rollback (ppc : BitVec 32) : Option (BitVec 32) :=
  let read := (s.rspCheckForException host).readPpc host ppc
  if (read.1.mpHash (.bpMemory, read.2)).isSome then some read.2 else none

end RspServer

/-- The input as the view has it. -/
def Input.view (host : Host) : Input → ViewInput
  | .nothing => .nothing
  | .interrupt => .interrupt
  | .packet buf => .request (debugRequest host buf)
  | .closed => .closed

namespace Session

variable (host : Host) (x : Session)

/-- The event as the view has it. -/
def viewEvent : Event → ViewEvent
  | .pass input =>
      if x.server.running then .pass (x.server.connect.rollback host x.ppc) (input.view host) else .ended
  | .cpu spr stalls => .cpu (Cpu.mk spr stalls false).debugRegs (spr npcCpuRegAdd) stalls

end Session

namespace RspServer

variable {host : Host} (reliable : host.Reliable) (s : RspServer)
include reliable

theorem view_rspCheckForException : (s.rspCheckForException host).view = s.view.check := by
  unfold rspCheckForException View.check
  rw [show s.view.stalled = s.target.cpu.stalled from rfl]
  split_ifs
  · have fetched := view_getDebugRegisters reliable
      ({ s with stallState := .stalled, npcIsCached := false } : RspServer)
    exact congrArg (fun v : View => { v with sigval := signalOf (v.regs drr) }) fetched
  · rfl

/-- Looking twice is looking once, as long as the processor has not been seen to
stall. -/
theorem rspCheckForException_twice
    (unnoticed : (s.rspCheckForException host).stallState ≠ .stalled) :
    (s.rspCheckForException host).rspCheckForException host = s.rspCheckForException host := by
  have running : s.target.cpu.stalled = false := by
    apply s.view.not_stalled_of_check
    rw [← s.view_rspCheckForException reliable]
    exact unnoticed
  have once : s.rspCheckForException host = s := by
    rw [rspCheckForException, if_neg (by simp [running])]
  rw [once, once]

omit reliable in
theorem view_readPpc (ppc : BitVec 32) : (s.readPpc host ppc).1.view = s.view := by
  unfold readPpc
  split
  · exact s.view_target rfl
  · rfl

/-- The stop is reported by a server that has looked whether there is one. -/
theorem view_answerStop (ppc : BitVec 32)
    (looked : s.stallState ≠ .stalled → s.rspCheckForException host = s) :
    (s.answerStop host ppc).view = s.view.answerStop host.flushes
      (if (s.mpHash (.bpMemory, ppc)).isSome then some ppc else none) := by
  have back := s.view_setNpc reliable ppc
  have same : (if s.stallState ≠ .stalled then s.rspCheckForException host else s) = s := by
    split_ifs with unnoticed
    · exact looked unnoticed
    · rfl
  unfold answerStop View.answerStop
  rw [show s.view.sigval = s.sigval from rfl, show s.view.stallState = s.stallState from rfl]
  cases (s.mpHash (.bpMemory, ppc)).isSome with
  | false =>
      simp only [Bool.false_eq_true, and_false, if_false]
      split <;> rfl
  | true =>
      simp only [and_true, if_true, same]
      split
      · exact congrArg (fun v : View => { v with clientWaiting := false }) back
      · split <;> rfl

theorem view_reportStop (ppc : BitVec 32) :
    (s.reportStop host ppc).1.view =
      s.view.reportStop host.flushes (s.rollback host ppc) := by
  have looked : ((s.rspCheckForException host).readPpc host ppc).1.stallState ≠ .stalled →
      ((s.rspCheckForException host).readPpc host ppc).1.rspCheckForException host =
        ((s.rspCheckForException host).readPpc host ppc).1 := by
    unfold readPpc
    split_ifs with stalled
    · exact fun unnoticed => absurd stalled unnoticed
    · exact fun unnoticed => s.rspCheckForException_twice reliable unnoticed
  rw [reportStop, view_answerStop reliable _ _ looked, view_readPpc,
    view_rspCheckForException reliable]
  rfl

theorem view_handleInput (input : Input) :
    (s.handleInput host input).view = s.view.input host.flushes (input.view host) := by
  cases input with
  | nothing => rfl
  | interrupt =>
      simp only [handleInput, View.input, Input.view]
      rw [show s.view.stallState = s.stallState from rfl]
      split_ifs
      · rfl
      · rfl
  | packet buf =>
      simp only [handleInput, View.input, Input.view]
      rw [show s.view.clientWaiting = s.clientWaiting from rfl]
      split_ifs
      · rfl
      · exact s.view_rspClientRequest reliable buf
  | closed =>
      simp only [handleInput, View.input, Input.view]
      rw [show s.view.clientWaiting = s.clientWaiting from rfl]
      split_ifs <;> rfl

end RspServer

namespace Session

variable {host : Host} (reliable : host.Reliable) (x : Session)
include reliable

theorem view_beforeInput :
    (x.beforeInput host).server.view =
      x.server.view.beforeInput host.flushes (x.server.connect.rollback host x.ppc) := by
  have connects : x.server.connect.view = x.server.view.connect := by
    unfold RspServer.connect View.connect
    rw [show x.server.view.connected = x.server.connected from rfl]
    split <;> rfl
  unfold beforeInput View.beforeInput
  rw [← connects, show x.server.connect.view.clientWaiting = x.server.connect.clientWaiting from rfl,
    ← x.server.connect.view_reportStop reliable x.ppc]
  dsimp only
  split <;> rfl

/-- **What an event of a session does to the view.** -/
theorem view_step (event : Event) :
    (x.step host event).server.view =
      x.server.view.step host.flushes (x.viewEvent host event) := by
  cases event with
  | cpu spr stalls =>
      simp only [step, run, viewEvent, View.step, View.run]
      rw [show x.server.view.stalled = x.server.target.cpu.stalled from rfl]
      split_ifs <;> rfl
  | pass input =>
      simp only [step, pass, viewEvent]
      split_ifs with running
      · rw [View.step, ← x.view_beforeInput reliable, ← RspServer.view_handleInput reliable]
      · rfl

/-- A pass of the running server. -/
theorem view_pass {input : Input} (running : x.server.running = true) :
    (x.step host (.pass input)).server.view =
      (x.beforeInput host).server.view.input host.flushes (input.view host) := by
  rw [← RspServer.view_handleInput reliable, step, pass, if_pos running]

omit reliable in
/-- A packet that a pass serves. -/
theorem step_served {buf : RspBuf} (running : x.server.running = true)
    (idle : (x.beforeInput host).server.clientWaiting = false) :
    (x.step host (.pass (.packet buf))).server =
      (x.beforeInput host).server.rspClientRequest host buf := by
  rw [step, pass, if_pos running]
  simp only [RspServer.handleInput, idle, Bool.false_eq_true, if_false]

theorem view_served {buf : RspBuf} (running : x.server.running = true)
    (idle : (x.beforeInput host).server.clientWaiting = false) :
    (x.step host (.pass (.packet buf))).server.view =
      (x.beforeInput host).server.view.apply host.flushes (debugRequest host buf) := by
  rw [x.step_served running idle, RspServer.view_rspClientRequest reliable]

end Session

/-! ## Who runs, and who waits -/

namespace View

/-- Two views that differ at most in the next program counter and its cache. -/
structure SameButNpc (v w : View) : Prop where
  regs : w.regs = v.regs
  dirty : w.dirty = v.dirty
  cpuRegs : w.cpuRegs = v.cpuRegs
  stalled : w.stalled = v.stalled
  stallState : w.stallState = v.stallState
  clientWaiting : w.clientWaiting = v.clientWaiting
  connected : w.connected = v.connected
  sigval : w.sigval = v.sigval

variable (flushes : Bool) (v : View)

theorem getNpc_same : SameButNpc v v.getNpc.1 := by
  unfold getNpc
  split_ifs <;> exact ⟨rfl, rfl, rfl, rfl, rfl, rfl, rfl, rfl⟩

theorem setNpc_same (addr : BitVec 32) : SameButNpc v (v.setNpc flushes addr) := by
  obtain ⟨regs, dirty, cpuRegs, stalled, stallState, clientWaiting, connected, sigval⟩ :=
    v.getNpc_same
  unfold setNpc
  dsimp only
  split_ifs <;>
    exact ⟨regs, dirty, cpuRegs, stalled, stallState, clientWaiting, connected, sigval⟩

/-- The server's idea of the processor is right where it matters: while nobody
waits for a stop the processor is stalled and known to be, a pending trap has been
seen, and there is a copy of the debug registers only of a stalled processor. -/
structure Ruled (v : View) : Prop where
  idle : v.clientWaiting = false ∨ v.connected = false →
    v.stalled = true ∧ v.stallState = .stalled
  seen : v.sigval = targetSignalTrap → v.stallState = .stalled
  known : v.stallState = .stalled → v.stalled = true
  copy : v.dirty ≠ -1 → v.stalled = true

variable {flushes : Bool} {v : View}

theorem Ruled.same {w : View} (ruled : v.Ruled) (same : SameButNpc v w) : w.Ruled := by
  refine ⟨?_, ?_, ?_, ?_⟩
  · rw [same.clientWaiting, same.connected, same.stalled, same.stallState]
    exact ruled.idle
  · rw [same.sigval, same.stallState]
    exact ruled.seen
  · rw [same.stallState, same.stalled]
    exact ruled.known
  · rw [same.dirty, same.stalled]
    exact ruled.copy

/-- A processor that is stalled and known to be. -/
theorem Ruled.of_stalled (stalled : v.stalled = true) (known : v.stallState = .stalled) :
    v.Ruled :=
  ⟨fun _ => ⟨stalled, known⟩, fun _ => known, fun _ => stalled, fun _ => stalled⟩

theorem Ruled.connect (ruled : v.Ruled) : v.connect.Ruled := by
  unfold View.connect
  split_ifs with connected
  · exact ruled
  · obtain ⟨stalled, known⟩ := ruled.idle (.inr (by simpa using connected))
    exact .of_stalled stalled known

@[simp] theorem fetch_clientWaiting (v : View) : v.fetch.clientWaiting = v.clientWaiting := by
  unfold fetch
  split_ifs <;> rfl

@[simp] theorem fetch_connected (v : View) : v.fetch.connected = v.connected := by
  unfold fetch
  split_ifs <;> rfl

/-- The end of a look at the processor. -/
theorem check_cases (v : View) :
    (v.stalled = false ∧ v.check = v) ∨
      (v.stalled = true ∧ v.check.stalled = true ∧ v.check.stallState = .stalled ∧
        v.check.connected = v.connected) := by
  cases stalled : v.stalled with
  | false => exact .inl ⟨rfl, by rw [check, if_neg (by simp [stalled])]⟩
  | true =>
      right
      rw [check, if_pos stalled]
      exact ⟨rfl, by simp [stalled], by simp, by simp⟩

/-- The outcome of reporting a stop: either the processor runs and the view is as
it was, or it is stalled and the client does not wait any more. -/
theorem Ruled.reportStop_cases (ruled : v.Ruled) (flushes : Bool)
    (rollback : Option (BitVec 32)) :
    (v.stalled = false ∧ v.reportStop flushes rollback = v) ∨
      (v.stalled = true ∧ (v.reportStop flushes rollback).stalled = true ∧
        (v.reportStop flushes rollback).stallState = .stalled ∧
        (v.reportStop flushes rollback).clientWaiting = false ∧
        ∃ w, (w = v.check ∨ ∃ ppc, rollback = some ppc ∧ v.check.sigval = targetSignalTrap ∧
            w = v.check.setNpc flushes ppc) ∧
          v.reportStop flushes rollback = { w with clientWaiting := false }) := by
  rcases v.check_cases with ⟨running, same⟩ | ⟨stalled, stalled', known, -⟩
  · left
    have unknown : v.stallState ≠ .stalled := by
      intro known
      rw [ruled.known known] at running
      exact absurd running (by decide)
    have quiet : v.sigval ≠ targetSignalTrap := fun trap => unknown (ruled.seen trap)
    refine ⟨running, ?_⟩
    rw [View.reportStop, same]
    cases rollback with
    | none => rw [answerStop, if_neg unknown]
    | some ppc => rw [answerStop, if_neg quiet, if_neg unknown]
  · right
    refine ⟨stalled, ?_⟩
    rw [View.reportStop]
    cases rollback with
    | none =>
        rw [answerStop, if_pos known]
        exact ⟨stalled', known, rfl, v.check, .inl rfl, rfl⟩
    | some ppc =>
        unfold answerStop
        split_ifs with trap
        · have same := v.check.setNpc_same flushes ppc
          exact ⟨same.stalled.trans stalled', same.stallState.trans known, rfl,
            v.check.setNpc flushes ppc, .inr ⟨ppc, rfl, trap, rfl⟩, rfl⟩
        · exact ⟨stalled', known, rfl, v.check, .inl rfl, rfl⟩

theorem Ruled.beforeInput (ruled : v.Ruled) (rollback : Option (BitVec 32)) :
    (v.beforeInput flushes rollback).Ruled := by
  unfold View.beforeInput
  split_ifs with waiting
  · rcases ruled.connect.reportStop_cases flushes rollback with
      ⟨-, same⟩ | ⟨-, stalled, known, -⟩
    · rw [same]
      exact ruled.connect
    · exact .of_stalled stalled known
  · exact ruled.connect

theorem connect_connected (v : View) : v.connect.connected = true := by
  unfold View.connect
  split_ifs with connected
  · exact connected
  · rfl

/-- A pass looks at the input on behalf of a client. -/
theorem Ruled.beforeInput_connected (ruled : v.Ruled) (rollback : Option (BitVec 32)) :
    (v.beforeInput flushes rollback).connected = true := by
  have there := v.connect_connected
  unfold View.beforeInput
  split_ifs
  · rcases ruled.connect.reportStop_cases flushes rollback with
      ⟨-, same⟩ | ⟨stalled, -, -, -, w, from_check, same⟩
    · rw [same, there]
    · have checked : v.connect.check.connected = true := by
        rcases v.connect.check_cases with ⟨running, -⟩ | ⟨-, -, -, kept⟩
        · rw [stalled] at running
          exact absurd running (by decide)
        · rw [kept, there]
      rw [same]
      rcases from_check with rfl | ⟨ppc, -, -, rfl⟩
      · exact checked
      · exact (v.connect.check.setNpc_same flushes ppc).connected.trans checked
  · exact there

/-- A request is served by a stalled processor, and leaves it stalled unless it
resumes. -/
theorem Ruled.apply (stalled : v.stalled = true) (known : v.stallState = .stalled)
    (connected : v.connected = true) (request : DebugRequest) :
    (v.apply flushes request).Ruled := by
  have kept {w : View} (same : SameButNpc v w) : w.Ruled :=
    .of_stalled (same.stalled.trans stalled) (same.stallState.trans known)
  have resumed {v : View} (connected : v.connected = true) (step : Bool) (addr : BitVec 32) :
      (v.resume flushes step addr).Ruled := by
    have there : (v.resume flushes step addr).connected = true :=
      (v.setNpc_same flushes addr).connected.trans connected
    refine ⟨?_, nofun, nofun, fun copy => absurd rfl copy⟩
    rintro (idle | gone)
    · exact absurd idle Bool.noConfusion
    · rw [there] at gone
      exact absurd gone (by decide)
  cases request with
  | none => exact .of_stalled stalled known
  | readNpc => exact kept v.getNpc_same
  | writeNpc val => exact kept (v.setNpc_same flushes val)
  | restart => exact kept (v.setNpc_same flushes v.startAddr)
  | readWord i => exact .of_stalled (v.fetch_stalled.trans stalled) (v.fetch_stallState.trans known)
  | writeWord i val =>
      exact .of_stalled (v.fetch_stalled.trans stalled) (v.fetch_stallState.trans known)
  | insert addr =>
      exact .of_stalled (v.fetch_stalled.trans stalled) (v.fetch_stallState.trans known)
  | remove addr =>
      exact .of_stalled (v.fetch_stalled.trans stalled) (v.fetch_stallState.trans known)
  | resume step addr =>
      cases addr with
      | some addr => exact resumed connected step addr
      | none => exact resumed (v.getNpc_same.connected.trans connected) step _
  | wait => exact .of_stalled stalled known
  | detach => exact .of_stalled stalled known
  | stall => exact .of_stalled rfl known

theorem Ruled.input (ruled : v.Ruled) (connected : v.connected = true) (input : ViewInput) :
    (v.input flushes input).Ruled := by
  cases input with
  | nothing => exact ruled
  | interrupt =>
      rw [input_interrupt]
      split_ifs
      · exact .of_stalled rfl rfl
      · exact ruled
  | request request =>
      rw [input_request]
      split_ifs with waiting
      · exact ruled
      · obtain ⟨stalled, known⟩ := ruled.idle (.inl (by simpa using waiting))
        exact .apply stalled known connected request
  | closed =>
      rw [input_closed]
      split_ifs with waiting
      · exact ruled
      · obtain ⟨stalled, known⟩ := ruled.idle (.inl (by simpa using waiting))
        exact .of_stalled stalled known

/-- The processor runs on. -/
theorem Ruled.run (ruled : v.Ruled) (debugRegs : Nat → BitVec 32) (npc : BitVec 32)
    (stalls : Bool) : (v.run debugRegs npc stalls).Ruled := by
  unfold View.run
  split_ifs with stalled
  · exact ruled
  · have absurdly {p : Prop} (h : v.stalled = true) : p := absurd h stalled
    exact ⟨fun idle => absurdly (ruled.idle idle).1, ruled.seen,
      fun known => absurdly (ruled.known known), fun copy => absurdly (ruled.copy copy)⟩

/-- **The rules hold after every event.** -/
theorem Ruled.step (ruled : v.Ruled) (event : ViewEvent) : (v.step flushes event).Ruled := by
  cases event with
  | pass rollback input =>
      exact (ruled.beforeInput rollback).input (ruled.beforeInput_connected rollback) input
  | cpu debugRegs npc stalls => exact ruled.run debugRegs npc stalls
  | ended => exact ruled

end View

/-! ## The start of a session -/

/-- A process in front of its main loop: it has no copy of the debug registers,
and the processor is stalled and has nothing to flush, which is what `rsp_init`
takes for granted. -/
structure Booted (s : RspServer) : Prop where
  stalled : s.target.cpu.stalled = true
  settled : s.target.cpu.flushed = false
  noCopy : s.dbgRegsCacheDirty = -1

namespace RspServer

variable {host : Host} {s : RspServer}

/-- The registers when the main loop begins. -/
def initialRegs (s : RspServer) : DbgGroupRegs := fun i =>
  if 0 ≤ i ∧ i < dbgGroupWords then 0 else s.dbgRegs i

/-- The view when the main loop begins. -/
theorem view_rspInit (reliable : host.Reliable) (booted : Booted s) :
    (s.rspInit host).view =
      { s.view with
        clientWaiting := false
        connected := false
        sigval := targetSignalTrap
        startAddr := 0x100
        regs := s.initialRegs
        stallState := .stalled
        npcIsCached := true
        npcCachedValue := s.target.cpu.spr npcCpuRegAdd } := by
  have cleared := (view_getNpc reliable
    ({ s with
      clientWaiting := false
      connected := false
      sigval := targetSignalTrap
      startAddr := 0x100
      dbgRegs := s.initialRegs
      mpHash := fun _ => none
      stallState := .stalled
      npcIsCached := false } : RspServer)).1
  have unflushed : s.target.cpu.flushed = false := booted.settled
  refine Eq.trans cleared ?_
  simp [View.getNpc, View.readNpc, view, unflushed]

end RspServer

end OrpsocCores.Gdb
