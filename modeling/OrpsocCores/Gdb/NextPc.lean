import OrpsocCores.Gdb.RegisterBlock
import OrpsocCores.Gdb.Session

/-!
# The next program counter

A processor that flushes its pipeline when its next program counter is written
answers reads of the register with zero until it is released.  The server keeps
the value it wrote, so that as long as the processor is stalled every read is to
return what was written last, or what the processor had when it stalled, and a
`c` or `s` without an address is to resume there.

Two things stand in the way.  A `g` does not look at the cached value, and the
first digit of its field for the register is overwritten anyway.  And an `i` or
`I` makes the client wait: the next pass of the main loop takes the processor,
which never left, to have stalled just now and drops the cached value.
`npc_consistent` is about the sessions without a `g` in which no `i` or `I`
follows a change of the register to anything but zero.
-/

set_option autoImplicit false

namespace OrpsocCores.Gdb

open Scanf Trace

/-! ## The record -/

/-- The value written last while the processor was stalled, or the one it had when
it stalled, and whether it was given another one since. -/
structure NpcRecord where
  value : BitVec 32
  changed : Bool

namespace NpcRecord

variable (g : NpcRecord) (v : View)

def write (val : BitVec 32) : NpcRecord := ⟨val, g.changed || val ≠ g.value⟩

/-- A pass that finds the processor to have hit a software breakpoint sets the
register back. -/
def poll : Option (BitVec 32) → NpcRecord
  | some ppc =>
      if v.connect.clientWaiting ∧ v.stalled ∧ v.connect.check.sigval = targetSignalTrap then
        g.write ppc
      else g
  | none => g

/-- A request that is served, with the view in front of it. -/
def serve : DebugRequest → NpcRecord
  | .writeNpc val => g.write val
  | .restart => g.write v.startAddr
  | .resume _ (some addr) => ⟨addr, false⟩
  | .resume _ none => ⟨g.value, false⟩
  | _ => g

/-- The input of a pass, with the view in front of it. -/
def input : ViewInput → NpcRecord
  | .request request => if v.clientWaiting then g else g.serve v request
  | .interrupt => if v.stallState ≠ .stalled then ⟨v.npc, false⟩ else g
  | .nothing | .closed => g

def step (flushes : Bool) : ViewEvent → NpcRecord
  | .pass rollback input => (g.poll v rollback).input (v.beforeInput flushes rollback) input
  | .cpu _ npc _ => if v.stalled then g else ⟨npc, false⟩
  | .ended => g

end NpcRecord

/-! ## What is known of the register -/

/-- Two views that agree on the next program counter. -/
structure View.SameNpc (v w : View) : Prop where
  npc : w.npc = v.npc
  flushed : w.flushed = v.flushed
  stallState : w.stallState = v.stallState
  npcIsCached : w.npcIsCached = v.npcIsCached
  npcCachedValue : w.npcCachedValue = v.npcCachedValue

theorem View.fetch_sameNpc (v : View) : View.SameNpc v v.fetch := by
  unfold View.fetch
  split_ifs <;> exact ⟨rfl, rfl, rfl, rfl, rfl⟩

/-- The register has the value of the record, and so has what the server takes it
to have; a value is only cached, and the pipeline only flushed, while the server
knows the processor to be stalled. -/
structure Follows (v : View) (g : NpcRecord) : Prop where
  ruled : v.Ruled
  value : v.npc = g.value
  reads : v.getNpc.2 = g.value
  running : v.stallState ≠ .stalled → v.npcIsCached = false ∧ v.flushed = false
  changed : v.flushed = true → g.changed = true

namespace Follows

variable {v w : View} {g : NpcRecord} {flushes : Bool}

theorem same (follows : Follows v g) (ruled : w.Ruled) (same : View.SameNpc v w) : Follows w g := by
  have got : w.getNpc.2 = v.getNpc.2 := by
    unfold View.getNpc View.readNpc
    rw [same.stallState, same.npcIsCached, same.npcCachedValue, same.flushed, same.npc]
    split_ifs <;> rfl
  refine ⟨ruled, same.npc.trans follows.value, got.trans follows.reads, ?_, ?_⟩
  · rw [same.stallState, same.npcIsCached, same.flushed]
    exact follows.running
  · rw [same.flushed]
    exact follows.changed

/-- Nothing is cached, and the processor answers with the value. -/
theorem of_uncached (ruled : v.Ruled) (value : v.npc = g.value) (uncached : v.npcIsCached = false)
    (reads : v.readNpc = g.value) (running : v.stallState ≠ .stalled → v.flushed = false)
    (changed : v.flushed = true → g.changed = true) : Follows v g := by
  refine ⟨ruled, value, ?_, fun unknown => ⟨uncached, running unknown⟩, changed⟩
  unfold View.getNpc
  split_ifs with known cached
  · exact absurd (uncached.symm.trans cached) (by decide)
  · exact reads
  · exact reads

/-- Nothing is cached and nothing flushed. -/
theorem of_settled (ruled : v.Ruled) (value : v.npc = g.value) (uncached : v.npcIsCached = false)
    (settled : v.flushed = false) : Follows v g := by
  have reads : v.readNpc = g.value := by
    rw [View.readNpc, settled]
    exact value
  exact .of_uncached ruled value uncached reads (fun _ => settled)
    fun flushed => absurd (settled.symm.trans flushed) (by decide)

theorem getNpc (follows : Follows v g) : Follows v.getNpc.1 g := by
  have ruled := follows.ruled.same v.getNpc_same
  have reads := follows.reads
  by_cases fills : v.stallState = .stalled ∧ v.npcIsCached = false
  · obtain ⟨known, uncached⟩ := fills
    have filled : v.getNpc =
        ({ v with npcCachedValue := v.readNpc, npcIsCached := true }, v.readNpc) := by
      rw [View.getNpc, if_pos known, if_neg (by simp [uncached])]
    rw [filled] at ruled reads ⊢
    refine ⟨ruled, follows.value, ?_, fun unknown => absurd known unknown, follows.changed⟩
    rw [View.getNpc, if_pos known, if_pos rfl]
    exact reads
  · have same : v.getNpc.1 = v := by
      unfold View.getNpc
      split_ifs with known cached
      · rfl
      · exact absurd ⟨known, by simpa using cached⟩ fills
      · rfl
    rw [same]
    exact follows

/-- Writing the register of a processor that is known to be stalled. -/
theorem setNpc (follows : Follows v g) (known : v.stallState = .stalled) (val : BitVec 32) :
    Follows (v.setNpc flushes val) (g.write val) := by
  have ruled := follows.ruled.same (v.setNpc_same flushes val)
  have known' : v.getNpc.1.stallState = .stalled := v.getNpc_same.stallState.trans known
  by_cases current : val = v.getNpc.2
  · have unchanged : v.setNpc flushes val = v.getNpc.1 := by rw [View.setNpc, if_pos current]
    have kept : g.write val = g := by
      rw [NpcRecord.write, current, follows.reads]
      simp
    rw [unchanged, kept]
    exact follows.getNpc
  · have changed : (g.write val).changed = true := by
      rw [follows.reads] at current
      simp [NpcRecord.write, current]
    have written : v.setNpc flushes val =
        { v.getNpc.1 with
          npc := val
          flushed := v.getNpc.1.flushed || flushes
          npcCachedValue := val
          npcIsCached := true } := by
      rw [View.setNpc, if_neg current]
      exact if_pos known'
    rw [written] at ruled ⊢
    refine ⟨ruled, rfl, ?_, fun unknown => absurd known' unknown, fun _ => changed⟩
    rw [View.getNpc, if_pos known', if_pos rfl]
    rfl

end Follows

/-- While the client waits, nothing would be lost with the cached value. -/
structure Tracked (v : View) (g : NpcRecord) : Prop where
  follows : Follows v g
  waiting : v.clientWaiting = true → v.readNpc = g.value

namespace Tracked

variable {v : View} {g : NpcRecord} {flushes : Bool}

theorem of_idle (follows : Follows v g) (idle : v.clientWaiting = false) : Tracked v g :=
  ⟨follows, fun waiting => absurd (idle.symm.trans waiting) (by decide)⟩

theorem of_settled (ruled : v.Ruled) (value : v.npc = g.value) (uncached : v.npcIsCached = false)
    (settled : v.flushed = false) : Tracked v g := by
  refine ⟨.of_settled ruled value uncached settled, fun _ => ?_⟩
  rw [View.readNpc, settled]
  exact value

theorem connect (tracked : Tracked v g) : Tracked v.connect g := by
  have ruled := tracked.follows.ruled.connect
  unfold View.connect at ruled ⊢
  split_ifs at ruled ⊢
  · exact tracked
  · exact .of_idle (tracked.follows.same ruled ⟨rfl, rfl, rfl, rfl, rfl⟩) rfl

/-- A look at a processor that has stalled drops the cached value. -/
theorem check (tracked : Tracked v g) (waiting : v.clientWaiting = true)
    (stalled : v.stalled = true) : Follows v.check g := by
  have noticed : Follows { v with stallState := .stalled, npcIsCached := false } g :=
    .of_uncached (.of_stalled stalled rfl) tracked.follows.value rfl (tracked.waiting waiting)
      (fun unknown => absurd rfl unknown) tracked.follows.changed
  have fetched : Follows
      (View.fetch { v with stallState := .stalled, npcIsCached := false }) g :=
    noticed.same (.of_stalled ((View.fetch_stalled _).trans stalled) (View.fetch_stallState _))
      (View.fetch_sameNpc _)
  rw [View.check, if_pos stalled]
  exact fetched.same
    (.of_stalled ((View.fetch_stalled _).trans stalled) (View.fetch_stallState _))
    ⟨rfl, rfl, rfl, rfl, rfl⟩

/-- Reporting a stop to the client that waits for it. -/
theorem answerStop {v : View} (follows : Follows v g) (stalled : v.stalled = true)
    (known : v.stallState = .stalled) (rollback : Option (BitVec 32)) :
    Tracked (v.answerStop flushes rollback)
      (match rollback with
        | some ppc => if v.sigval = targetSignalTrap then g.write ppc else g
        | none => g) := by
  have told {w : View} {g : NpcRecord} (follows : Follows w g) (stalled : w.stalled = true)
      (known : w.stallState = .stalled) : Tracked { w with clientWaiting := false } g :=
    .of_idle (follows.same (.of_stalled stalled known) ⟨rfl, rfl, rfl, rfl, rfl⟩) rfl
  cases rollback with
  | none =>
      rw [View.answerStop, if_pos known]
      exact told follows stalled known
  | some ppc =>
      rw [View.answerStop]
      dsimp only
      split_ifs with trap
      · have same := v.setNpc_same flushes ppc
        exact told (follows.setNpc known ppc) (same.stalled.trans stalled)
          (same.stallState.trans known)
      · exact told follows stalled known

/-- The main loop up to the input. -/
theorem beforeInput (tracked : Tracked v g) (rollback : Option (BitVec 32)) :
    Tracked (v.beforeInput flushes rollback) (g.poll v rollback) := by
  have connected := tracked.connect
  have sameStall : v.connect.stalled = v.stalled := by
    unfold View.connect
    split <;> rfl
  unfold View.beforeInput
  by_cases stops : v.connect.clientWaiting = true ∧ v.stalled = true
  · obtain ⟨waiting, stalled⟩ := stops
    have stalled' : v.connect.stalled = true := sameStall.trans stalled
    rcases v.connect.check_cases with ⟨running, -⟩ | ⟨-, stalledCheck, known, -⟩
    · exact absurd (running.symm.trans stalled') (by decide)
    · rw [if_pos waiting, View.reportStop]
      have answered : Tracked (v.connect.check.answerStop flushes rollback) _ :=
        answerStop (connected.check waiting stalled') stalledCheck known rollback
      cases rollback with
      | none => exact answered
      | some ppc =>
          rw [NpcRecord.poll]
          simp only [waiting, stalled, true_and]
          exact answered
  · have kept : g.poll v rollback = g := by
      cases rollback with
      | none => rfl
      | some ppc => exact if_neg fun all => stops ⟨all.1, all.2.1⟩
    rw [kept]
    split_ifs with waiting
    · rcases connected.follows.ruled.reportStop_cases flushes rollback with
        ⟨-, same⟩ | ⟨stalled, -⟩
      · rw [same]
        exact connected
      · exact absurd ⟨waiting, sameStall.symm.trans stalled⟩ stops
    · exact connected

/-- Releasing the processor. -/
theorem resume {v : View} (follows : Follows v g) (connected : v.connected = true)
    (stalled : v.stalled = true) (known : v.stallState = .stalled) (step : Bool)
    (addr : BitVec 32) : Tracked (v.resume flushes step addr) ⟨addr, false⟩ := by
  have ruled : (v.resume flushes step addr).Ruled :=
    .apply stalled known connected (.resume step (some addr))
  exact .of_settled ruled (follows.setNpc known addr).value rfl rfl

/-- A request that is served; an `i` or `I` does not follow a change. -/
theorem apply (tracked : Tracked v g) (connected : v.connected = true)
    (idle : v.clientWaiting = false) (request : DebugRequest)
    (unchanged : request = .wait → g.changed = false ∨ g.value = 0) :
    Tracked (v.apply flushes request) (g.serve v request) := by
  have follows := tracked.follows
  obtain ⟨stalled, known⟩ := follows.ruled.idle (.inl idle)
  have ruled : (v.apply flushes request).Ruled := .apply stalled known connected request
  have kept {w : View} (ruled : w.Ruled) (same : View.SameNpc v w)
      (waits : w.clientWaiting = v.clientWaiting) : Tracked w g :=
    .of_idle (follows.same ruled same) (waits.trans idle)
  have fetched {w : View} (ruled : w.Ruled) (same : View.SameNpc v.fetch w)
      (waits : w.clientWaiting = v.fetch.clientWaiting) : Tracked w g := by
    have before : View.SameNpc v v.fetch := v.fetch_sameNpc
    exact kept ruled
      ⟨same.npc.trans before.npc, same.flushed.trans before.flushed,
        same.stallState.trans before.stallState, same.npcIsCached.trans before.npcIsCached,
        same.npcCachedValue.trans before.npcCachedValue⟩
      (waits.trans v.fetch_clientWaiting)
  cases request with
  | none => exact tracked
  | readNpc => exact .of_idle follows.getNpc (v.getNpc_same.clientWaiting.trans idle)
  | writeNpc val =>
      exact .of_idle (follows.setNpc known val)
        ((v.setNpc_same flushes val).clientWaiting.trans idle)
  | restart =>
      exact .of_idle (follows.setNpc known v.startAddr)
        ((v.setNpc_same flushes v.startAddr).clientWaiting.trans idle)
  | readWord i => exact fetched ruled ⟨rfl, rfl, rfl, rfl, rfl⟩ rfl
  | writeWord i val => exact fetched ruled ⟨rfl, rfl, rfl, rfl, rfl⟩ rfl
  | insert addr => exact fetched ruled ⟨rfl, rfl, rfl, rfl, rfl⟩ rfl
  | remove addr => exact fetched ruled ⟨rfl, rfl, rfl, rfl, rfl⟩ rfl
  | resume step target =>
      cases target with
      | some addr =>
          have released : Tracked (v.resume flushes step addr) ⟨addr, false⟩ :=
            .resume follows connected stalled known step addr
          exact released
      | none =>
          have released : Tracked (v.getNpc.1.resume flushes step v.getNpc.2) ⟨v.getNpc.2, false⟩ :=
            .resume follows.getNpc (v.getNpc_same.connected.trans connected)
              (v.getNpc_same.stalled.trans stalled) (v.getNpc_same.stallState.trans known) step _
          have record : (⟨v.getNpc.2, false⟩ : NpcRecord) = ⟨g.value, false⟩ := by
            rw [follows.reads]
          rw [record] at released
          exact released
  | wait =>
      refine ⟨follows.same ruled ⟨rfl, rfl, rfl, rfl, rfl⟩, fun _ => ?_⟩
      have value : v.npc = g.value := follows.value
      rw [View.readNpc]
      cases flushed : v.flushed with
      | false =>
          simp only [View.apply, flushed, Bool.false_eq_true, if_false]
          exact value
      | true =>
          simp only [View.apply, flushed, if_true]
          rcases unchanged rfl with settled | zero
          · exact absurd (settled.symm.trans (follows.changed flushed)) (by decide)
          · exact zero.symm
  | detach => exact kept ruled ⟨rfl, rfl, rfl, rfl, rfl⟩ rfl
  | stall => exact kept ruled ⟨rfl, rfl, rfl, rfl, rfl⟩ rfl

theorem interrupt (tracked : Tracked v g) :
    Tracked (v.input flushes .interrupt) (g.input v .interrupt) := by
  rw [View.input_interrupt, NpcRecord.input]
  split_ifs with unknown
  · obtain ⟨uncached, settled⟩ := tracked.follows.running unknown
    exact .of_settled (.of_stalled rfl rfl) rfl uncached settled
  · exact tracked

/-- The processor runs on. -/
theorem run (tracked : Tracked v g) (debugRegs : Nat → BitVec 32) (npc : BitVec 32)
    (stalls : Bool) :
    Tracked (v.run debugRegs npc stalls) (g.step v flushes (.cpu debugRegs npc stalls)) := by
  have ruled := tracked.follows.ruled.run debugRegs npc stalls
  unfold View.run at ruled ⊢
  rw [NpcRecord.step]
  split_ifs at ruled ⊢ with stalled
  · exact tracked
  · have unknown : v.stallState ≠ .stalled := fun known =>
      stalled (tracked.follows.ruled.known known)
    exact .of_settled ruled rfl (tracked.follows.running unknown).1 rfl

/-- An input of the client. -/
theorem input (tracked : Tracked v g) (connected : v.connected = true) (input : ViewInput)
    (unchanged : v.clientWaiting = false → input = .request .wait →
      g.changed = false ∨ g.value = 0) :
    Tracked (v.input flushes input) (g.input v input) := by
  cases input with
  | nothing => exact tracked
  | interrupt => exact tracked.interrupt
  | request request =>
      rw [View.input_request, NpcRecord.input]
      by_cases waiting : v.clientWaiting = true
      · rw [if_pos waiting, if_pos waiting]
        exact tracked
      · have idle : v.clientWaiting = false := by simpa using waiting
        rw [if_neg waiting, if_neg waiting]
        exact tracked.apply connected idle request fun waits =>
          unchanged idle (congrArg ViewInput.request waits)
  | closed =>
      rw [View.input_closed, NpcRecord.input]
      split_ifs with waiting
      · exact tracked
      · have idle : v.clientWaiting = false := by simpa using waiting
        obtain ⟨stalled, known⟩ := tracked.follows.ruled.idle (.inl idle)
        exact .of_idle (tracked.follows.same (.of_stalled stalled known) ⟨rfl, rfl, rfl, rfl, rfl⟩)
          idle

end Tracked

/-! ## Whole sessions -/

namespace Session

/-- The record beside a session. -/
def npcRecord (host : Host) (x : Session) (event : Event) (g : NpcRecord) : NpcRecord :=
  g.step x.server.view host.flushes (x.viewEvent host event)

/-- The record when a pass looks at its input. -/
def npcBeforeInput (host : Host) (y : Session × NpcRecord) : NpcRecord :=
  y.2.poll y.1.server.view (y.1.server.connect.rollback host y.1.ppc)

/-- The event does not reach what is wrong: it is not a `g`, and an `i` or `I` does
not follow a change of the register to anything but zero. -/
def KeepsNpc (host : Host) (y : Session × NpcRecord) : Event → Prop
  | .pass (.packet buf) =>
      y.1.server.running = true → (y.1.beforeInput host).server.clientWaiting = false →
        requestKind (buf.chars 0) ≠ .readAllRegs ∧
          (debugRequest host buf = .wait →
            (npcBeforeInput host y).changed = false ∨ (npcBeforeInput host y).value = 0)
  | _ => True

instance (host : Host) (y : Session × NpcRecord) : (event : Event) → Decidable (KeepsNpc host y event)
  | .pass (.packet buf) =>
      inferInstanceAs (Decidable
        (y.1.server.running = true → (y.1.beforeInput host).server.clientWaiting = false →
          requestKind (buf.chars 0) ≠ .readAllRegs ∧
            (debugRequest host buf = .wait →
              (npcBeforeInput host y).changed = false ∨ (npcBeforeInput host y).value = 0)))
  | .pass .nothing | .pass .interrupt | .pass .closed | .cpu _ _ => .isTrue trivial

end Session

/-- What a packet tells of the next program counter, between two states of the
server: `p` of its number, `readspr` of its address, its field of `g`, and where a
`c` or `s` without an address resumes. -/
structure TellsNpc (host : Host) (npc : BitVec 32) (buf : RspBuf) (s s' : RspServer) : Prop where
  register : requestKind (buf.chars 0) = .readReg → ∀ regnum,
    one (sscanf readRegFormat buf.cText) = some regnum → regnum.toNat = npcRegnum →
      s.replies s' = [reg2hex npc]
  special : requestKind (buf.chars 0) = .query → buf.startsWith "qRcmd," = true →
    (str "readspr").isPrefixOf (RspServer.command buf) = true →
      one (sscanf readsprFormat (RspServer.command buf)) = some npcCpuRegAdd →
        s.replies s' = [ascii2hex (sprintf8x npc)]
  all : requestKind (buf.chars 0) = .readAllRegs →
    ∃ reply, s.replies s' = [reply] ∧ (reply.drop (npcRegnum * 8)).take 8 = reg2hex npc
  resumed : ∀ step, debugRequest host buf = .resume step none →
    s'.target.cpu.spr npcCpuRegAdd = npc

/-- Whatever a packet that is served tells of the next program counter is true. -/
def Session.ReadsNpc (host : Host) (y : Session × NpcRecord) : Event → Prop
  | .pass (.packet buf) =>
      y.1.server.running = true → (y.1.beforeInput host).server.clientWaiting = false →
        TellsNpc host (npcBeforeInput host y).value buf (y.1.beforeInput host).server
          (y.1.step host (.pass (.packet buf))).server
  | _ => True

namespace RspServer

variable (host : Host) (s : RspServer) {buf : RspBuf}

theorem readReg_npc {regnum : BitVec 32} (kind : requestKind (buf.chars 0) = .readReg)
    (parsed : one (sscanf readRegFormat buf.cText) = some regnum)
    (npc : regnum.toNat = npcRegnum) :
    s.replies (s.rspClientRequest host buf) = [reg2hex (s.getNpc host).2] := by
  apply replies_of_sent
  simp only [rspClientRequest, kind, rspReadReg, parsed]
  rw [if_neg (by rw [npc]; decide), if_neg (by rw [npc]; decide), if_pos npc, put, getNpc_sent]

theorem readspr_npc (kind : requestKind (buf.chars 0) = .query)
    (isCommand : buf.startsWith "qRcmd," = true)
    (isRead : (str "readspr").isPrefixOf (command buf) = true)
    (parsed : one (sscanf readsprFormat (command buf)) = some npcCpuRegAdd) :
    s.replies (s.rspClientRequest host buf) = [ascii2hex (sprintf8x (s.getNpc host).2)] := by
  apply replies_of_sent
  rw [s.rspClientRequest_readspr host kind isCommand isRead parsed (by decide), readspr]
  simp only [if_true, put, getNpc_sent]

end RspServer

section Sessions

variable {host : Host} (reliable : host.Reliable)
include reliable

/-- The record after a pass of the running server. -/
theorem Session.npcRecord_pass {x : Session} {input : Input} (running : x.server.running = true)
    (g : NpcRecord) :
    x.npcRecord host (.pass input) g =
      (npcBeforeInput host (x, g)).input (x.beforeInput host).server.view (input.view host) := by
  rw [x.view_beforeInput reliable, npcRecord, viewEvent, if_pos running]
  rfl

theorem Tracked.beforeInput_session {x : Session} {g : NpcRecord}
    (tracked : Tracked x.server.view g) :
    Tracked (x.beforeInput host).server.view (Session.npcBeforeInput host (x, g)) := by
  rw [x.view_beforeInput reliable]
  exact tracked.beforeInput _

/-- What is known of the register, after one event of a session. -/
theorem Tracked.sessionStep {x : Session} {g : NpcRecord} (tracked : Tracked x.server.view g)
    {event : Event} (keeps : Session.KeepsNpc host (x, g) event) :
    Tracked (x.step host event).server.view (x.npcRecord host event g) := by
  cases event with
  | cpu spr stalls =>
      rw [x.view_step reliable]
      exact tracked.run _ _ _
  | pass input =>
      by_cases running : x.server.running = true
      · have before := tracked.beforeInput_session reliable
        have connected : (x.beforeInput host).server.view.connected = true := by
          rw [x.view_beforeInput reliable]
          exact tracked.follows.ruled.beforeInput_connected _
        rw [Session.npcRecord_pass reliable running, x.view_pass reliable running]
        refine before.input connected _ fun idle waits => ?_
        cases input with
        | packet buf => exact (keeps running idle).2 (ViewInput.request.inj waits)
        | nothing => cases waits
        | interrupt => cases waits
        | closed => cases waits
      · have same : x.step host (.pass input) = x := if_neg running
        have kept : x.npcRecord host (.pass input) g = g := by
          rw [Session.npcRecord, Session.viewEvent, if_neg running]
          rfl
        rw [same, kept]
        exact tracked

/-- What one event tells. -/
theorem Tracked.readsNpc {x : Session} {g : NpcRecord} (tracked : Tracked x.server.view g)
    {event : Event} (keeps : Session.KeepsNpc host (x, g) event) :
    Session.ReadsNpc host (x, g) event := by
  cases event with
  | cpu spr stalls => trivial
  | pass input =>
      cases input with
      | packet buf =>
          intro running idle
          have before := (tracked.beforeInput_session reliable).follows
          have value : ((x.beforeInput host).server.getNpc host).2 =
              (Session.npcBeforeInput host (x, g)).value :=
            (RspServer.view_getNpc reliable _).2.trans before.reads
          have after := (tracked.sessionStep reliable keeps).follows.value
          rw [x.step_served running idle, Session.npcRecord_pass reliable running] at after
          rw [x.step_served running idle]
          refine ⟨?_, ?_, ?_, ?_⟩
          · intro kind regnum parsed npc
            rw [RspServer.readReg_npc host _ kind parsed npc, value]
          · intro kind isCommand isRead parsed
            rw [RspServer.readspr_npc host _ kind isCommand isRead parsed, value]
          · exact fun kind => absurd kind (keeps running idle).1
          · intro step resumes
            have waits : (x.beforeInput host).server.view.clientWaiting = false := idle
            rw [Input.view, NpcRecord.input, if_neg (by simp [waits]), resumes] at after
            exact after
      | nothing => trivial
      | interrupt => trivial
      | closed => trivial

theorem Tracked.rspInit {s : RspServer} (booted : Booted s) :
    Tracked (s.rspInit host).view ⟨s.target.cpu.spr npcCpuRegAdd, false⟩ := by
  rw [RspServer.view_rspInit reliable booted]
  refine .of_idle ⟨.of_stalled booted.stalled rfl, rfl, ?_, fun unknown => absurd rfl unknown,
    fun flushed => absurd (booted.settled.symm.trans flushed) (by decide)⟩ rfl
  rw [View.getNpc, if_pos rfl, if_pos rfl]

/-- **The next program counter.**  In every session without a `g` in which no `i` or
`I` follows a change of the register to anything but zero, every way of reading it
gives the value written last in this stall, or the one the processor stalled with,
and that is where a `c` or `s` without an address resumes. -/
theorem npc_consistent {s : RspServer} (booted : Booted s) (ppc : BitVec 32) (events : List Event)
    (keeps : Always (monitored (Session.step host) (Session.npcRecord host))
      (Session.KeepsNpc host) (⟨s.rspInit host, ppc⟩, ⟨s.target.cpu.spr npcCpuRegAdd, false⟩)
      events) :
    Always (monitored (Session.step host) (Session.npcRecord host)) (Session.ReadsNpc host)
      (⟨s.rspInit host, ppc⟩, ⟨s.target.cpu.spr npcCpuRegAdd, false⟩) events :=
  Always.of_invariant (fun y => Tracked y.1.server.view y.2)
    (fun _ _ tracked keeps => tracked.sessionStep reliable keeps)
    (fun _ _ tracked keeps => tracked.readsNpc reliable keeps) (.rspInit reliable booted) keeps

end Sessions

/-! ## A value that is lost -/

theorem idleServer_booted : Booted idleServer := ⟨rfl, rfl, rfl⟩

/-- An `i` after the register has been written: the next read of it gives zero. -/
theorem cycleStep_loses_npc :
    ¬ Always (monitored (Session.step idleHost) (Session.npcRecord idleHost))
      (Session.ReadsNpc idleHost) (⟨idleServer.rspInit idleHost, 0⟩, ⟨0, false⟩)
      [.pass (.packet (packetBuf "P21=00001000")), .pass (.packet (packetBuf "i")),
        .pass .nothing, .pass (.packet (packetBuf "p21"))] := by
  intro always
  have told := (always.2.2.2.1 (by decide +kernel) (by decide +kernel)).register
    (by decide +kernel) 0x21 (by decide +kernel) (by decide +kernel)
  exact absurd told (by decide +kernel)

/-- The register is written and read, and the processor resumes there. -/
theorem npc_consistent_written :
    Always (monitored (Session.step idleHost) (Session.npcRecord idleHost))
      (Session.ReadsNpc idleHost) (⟨idleServer.rspInit idleHost, 0⟩, ⟨0, false⟩)
      [.pass (.packet (packetBuf "P21=00001000")), .pass (.packet (packetBuf "p21")),
        .pass (.packet (packetBuf "c"))] :=
  npc_consistent (fun _ => rfl) idleServer_booted 0 _ (by decide +kernel)

end OrpsocCores.Gdb
