import Mathlib.Data.List.Find
import OrpsocCores.Gdb.HardwareBreakpoints
import OrpsocCores.Gdb.Session

/-!
# What is written back to the debug registers

When the processor is released all the cached debug registers are written to it.
A register is to get the value it had when the processor stalled, changed only by
what the client has asked for since then and by what releasing sets on purpose.
`Ledger` keeps that value, `Agree` compares it with the cache.

The cache holds these values once it has been fetched: by a pass of the main loop
that notices a stop of the processor, or by a request of the client for a
hardware breakpoint or a register of the debug group.  Nothing else fetches it.
At the start of a session it is all zeros, and after an interrupt it is what was
written back before the processor ran, so that the first `c` or `s` of a session,
or one that follows an interrupt, writes values the registers do not have.
`writeBack_exact` is about the sessions in which each `c` and `s` finds the cache
fetched and no request leaves the cached structure.
-/

set_option autoImplicit false

namespace OrpsocCores.Gdb

open Trace

/-! ## Registers that agree -/

/-- Two contents of the structure are the same; the memory around it may differ. -/
def Agree (regs regs' : DbgGroupRegs) : Prop :=
  ∀ k : Int, 0 ≤ k → k < dbgGroupWords → regs k = regs' k

namespace Agree

variable {regs regs' : DbgGroupRegs}

theorem update (agree : Agree regs regs') (k : Int) (x : BitVec 32) :
    Agree (Function.update regs k x) (Function.update regs' k x) := by
  intro j lower upper
  by_cases here : j = k
  · rw [here, Function.update_self, Function.update_self]
  · rw [Function.update_of_ne here, Function.update_of_ne here]
    exact agree j lower upper

/-- A word is changed to a function of itself. -/
theorem modify (agree : Agree regs regs') {k : Int} (lower : 0 ≤ k) (upper : k < dbgGroupWords)
    (f : BitVec 32 → BitVec 32) :
    Agree (Function.update regs k (f (regs k))) (Function.update regs' k (f (regs' k))) := by
  rw [agree k lower upper]
  exact agree.update k _

theorem dvr (agree : Agree regs regs') {i : Nat} (inside : i < or1kMaxMatchpoints) :
    regs (dvr i) = regs' (Gdb.dvr i) := by
  simp only [or1kMaxMatchpoints] at inside
  exact agree _ (by simp only [Gdb.dvr]; omega) (by simp only [Gdb.dvr, dbgGroupWords]; omega)

theorem dcr (agree : Agree regs regs') {i : Nat} (inside : i < or1kMaxMatchpoints) :
    regs (dcr i) = regs' (Gdb.dcr i) := by
  simp only [or1kMaxMatchpoints] at inside
  exact agree _ (by simp only [Gdb.dcr]; omega) (by simp only [Gdb.dcr, dbgGroupWords]; omega)

theorem findFree (agree : Agree regs regs') :
    findFreeDcrdvrPair regs = findFreeDcrdvrPair regs' := by
  rw [findFreeDcrdvrPair, findFreeDcrdvrPair]
  congr 1
  apply List.find?_congr
  intro i member
  rw [agree.dcr (List.mem_range.mp member)]

theorem findMatching (agree : Agree regs regs') (addr : BitVec 32) :
    findMatchingDcrdvrPair regs addr or1kCcEq = findMatchingDcrdvrPair regs' addr or1kCcEq := by
  rw [findMatchingDcrdvrPair, findMatchingDcrdvrPair]
  congr 1
  apply List.find?_congr
  intro i member
  rw [agree.dcr (List.mem_range.mp member), agree.dvr (List.mem_range.mp member)]

theorem disable (agree : Agree regs regs') (wpNum : Int) :
    Agree (disableHwBreakpoint regs wpNum) (disableHwBreakpoint regs' wpNum) :=
  agree.modify (k := dmr2) (by decide) (by decide) fun word => word &&& ~~~wgbBit wpNum

theorem removeWatchpoint (agree : Agree regs regs') {i : Nat} (inside : i < or1kMaxMatchpoints) :
    Agree (removeHwWatchpoint regs i) (removeHwWatchpoint regs' i) := by
  have cleared := agree.update (Gdb.dvr i) 0
  rw [removeHwWatchpoint, removeHwWatchpoint]
  rw [cleared.dcr inside]
  exact (cleared.update _ _).disable i

/-- An insertion that finds a free pair. -/
theorem insert (agree : Agree regs regs') {addr : BitVec 32}
    (free : ∃ i < or1kMaxMatchpoints, FreePair regs i) :
    Agree (insertHwBreakpoint regs addr) (insertHwBreakpoint regs' addr) := by
  rcases findFreeDcrdvrPair_spec regs with ⟨i, inside, -, found⟩ | ⟨none, -⟩
  · have written := agree.update (Gdb.dvr i) addr
    rw [insertHwBreakpoint, insertHwBreakpoint, ← agree.findFree, found, insertHwWatchpoint,
      insertHwWatchpoint]
    rw [written.dcr inside]
    exact (written.update _ _).modify (k := dmr2) (by decide) (by decide) fun word =>
      word ||| wgbBit i
  · obtain ⟨i, inside, free⟩ := free
    exact absurd free (none i inside)

/-- A removal that finds a pair. -/
theorem remove (agree : Agree regs regs') {addr : BitVec 32}
    (set : ∃ i < or1kMaxMatchpoints, SetFor regs addr i) :
    Agree (removeHwBreakpoint regs addr) (removeHwBreakpoint regs' addr) := by
  rcases findMatchingDcrdvrPair_spec regs addr with ⟨i, inside, -, -, found⟩ | ⟨none, -⟩
  · have notNegative : ¬ (i : Int) < 0 := by omega
    rw [removeHwBreakpoint, removeHwBreakpoint, ← agree.findMatching, found]
    rw [if_neg notNegative, if_neg notNegative]
    exact ((agree.removeWatchpoint inside).removeWatchpoint inside).disable i
  · obtain ⟨i, inside, set⟩ := set
    exact absurd set (none i inside)

theorem resumeRegs (agree : Agree regs regs') (step : Bool) :
    Agree (View.resumeRegs step regs) (View.resumeRegs step regs') := by
  have cleared := agree.update drr 0
  cases step with
  | false =>
      exact (cleared.modify (k := dmr1) (by decide) (by decide) fun word =>
        word &&& ~~~sprDmr1St).modify (k := dsr) (by decide) (by decide) fun word =>
          word ||| sprDsrTe
  | true =>
      exact ((cleared.modify (k := dmr1) (by decide) (by decide) fun word =>
        word ||| sprDmr1St).modify (k := dsr) (by decide) (by decide) fun word =>
          word ||| sprDsrTe).modify (k := dmr2) (by decide) (by decide) fun word =>
            word &&& ~~~sprDmr2Wgb

end Agree

/-! ## The ledger -/

namespace DebugRequest

/-- What a request of the client changes in the debug registers. -/
def changes : DebugRequest → DbgGroupRegs → DbgGroupRegs
  | .writeWord i val, regs => Function.update regs i val
  | .insert addr, regs => insertHwBreakpoint regs addr
  | .remove addr, regs => removeHwBreakpoint regs addr
  | _, regs => regs

/-- The request is for the debug registers. -/
def fetches : DebugRequest → Bool
  | .readWord _ | .writeWord _ _ | .insert _ | .remove _ => true
  | _ => false

/-- The request releases the processor. -/
def resumes : DebugRequest → Bool
  | .resume _ _ => true
  | _ => false

/-- The request stays inside the cached structure, on these registers: a `Z1`
finds a free pair, a `z1` a pair set for its address, and a `writespr` a word of
the structure. -/
def StaysInside (regs : DbgGroupRegs) : DebugRequest → Prop
  | .writeWord i _ => i < dbgGroupWords
  | .insert _ => ∃ i < or1kMaxMatchpoints, FreePair regs i
  | .remove addr => ∃ i < or1kMaxMatchpoints, SetFor regs addr i
  | _ => True

instance (regs : DbgGroupRegs) : (request : DebugRequest) → Decidable (request.StaysInside regs)
  | .writeWord i _ => inferInstanceAs (Decidable (i < dbgGroupWords))
  | .insert _ => inferInstanceAs (Decidable (∃ i < or1kMaxMatchpoints, FreePair regs i))
  | .remove addr => inferInstanceAs (Decidable (∃ i < or1kMaxMatchpoints, SetFor regs addr i))
  | .none | .readNpc | .writeNpc _ | .restart | .readWord _ | .resume _ _ | .wait | .detach
  | .stall => .isTrue trivial

end DebugRequest

/-- What the debug registers of the processor are to be, and whether the cache has
been fetched since the processor was released. -/
structure Ledger where
  held : DbgGroupRegs
  fetched : Bool

/-- The registers of a processor as a content of the structure. -/
def ofCpuRegs (cpuRegs : Nat → BitVec 32) : DbgGroupRegs := fun k => cpuRegs k.toNat

namespace View

variable (v : View)

theorem fetch_of_copy (copy : v.dirty ≠ -1) : v.fetch = v := if_pos copy

theorem fetch_of_none (none : v.dirty = -1) :
    v.fetch = { v with
      regs := fun i => if 0 ≤ i ∧ i < dbgGroupWords then v.cpuRegs i.toNat else v.regs i
      dirty := 0 } :=
  if_neg (not_not.mpr none)

/-- After it there is a copy. -/
theorem fetch_dirty : v.fetch.dirty ≠ -1 := by
  by_cases copy : v.dirty = -1
  · simp [v.fetch_of_none copy]
  · rw [v.fetch_of_copy copy]
    exact copy

/-- A copy that is made is one of what the processor holds. -/
theorem agree_fetch (none : v.dirty = -1) : Agree (ofCpuRegs v.cpuRegs) v.fetch.regs := by
  intro k lower upper
  rw [v.fetch_of_none none]
  exact (if_pos ⟨lower, upper⟩).symm

end View

namespace Ledger

variable (l : Ledger) (v : View)

/-- A pass that notices a stop fetches the registers. -/
def poll : Ledger :=
  if v.connect.clientWaiting ∧ v.stalled then { l with fetched := true } else l

/-- The input of a pass, with the view in front of it. -/
def input : ViewInput → Ledger
  | .request request =>
      if v.clientWaiting then l
      else ⟨request.changes l.held, (l.fetched || request.fetches) && !request.resumes⟩
  | .interrupt =>
      if v.stallState ≠ .stalled ∧ v.stalled = false then { l with held := ofCpuRegs v.cpuRegs }
      else l
  | .nothing | .closed => l

def step (flushes : Bool) : ViewEvent → Ledger
  | .pass rollback input => (l.poll v).input (v.beforeInput flushes rollback) input
  | .cpu debugRegs _ stalls =>
      if v.stalled = false ∧ stalls then { l with held := ofCpuRegs debugRegs } else l
  | .ended => l

end Ledger

/-! ## The cache agrees with the ledger -/

/-- While the processor is stalled the registers of the ledger are in the cache,
or in the processor if there is no copy; once they have been fetched there is
one. -/
structure Kept (v : View) (l : Ledger) : Prop where
  ruled : v.Ruled
  copy : l.fetched = true → v.dirty ≠ -1
  cached : v.stalled = true → v.dirty ≠ -1 → Agree v.regs l.held
  fresh : v.stalled = true → v.dirty = -1 → Agree (ofCpuRegs v.cpuRegs) l.held

namespace Kept

variable {v : View} {l : Ledger}

/-- A view that differs only where it does not matter. -/
theorem same {w : View} (kept : Kept v l) (same : View.SameButNpc v w) : Kept w l := by
  refine ⟨kept.ruled.same same, ?_, ?_, ?_⟩
  · rw [same.dirty]
    exact kept.copy
  · rw [same.stalled, same.dirty, same.regs]
    exact kept.cached
  · rw [same.stalled, same.dirty, same.cpuRegs]
    exact kept.fresh

/-- Fetching leaves a copy that agrees with the ledger. -/
theorem fetch (kept : Kept v l) (stalled : v.stalled = true) :
    v.fetch.dirty ≠ -1 ∧ Agree v.fetch.regs l.held := by
  refine ⟨v.fetch_dirty, ?_⟩
  by_cases copy : v.dirty = -1
  · intro k lower upper
    rw [← v.agree_fetch copy k lower upper]
    exact kept.fresh stalled copy k lower upper
  · rw [v.fetch_of_copy copy]
    exact kept.cached stalled copy

/-- A stalled processor with a copy that agrees. -/
theorem of_cached (stalled : v.stalled = true) (known : v.stallState = .stalled)
    (copy : v.dirty ≠ -1) (agree : Agree v.regs l.held) : Kept v l :=
  ⟨.of_stalled stalled known, fun _ => copy, fun _ _ => agree, fun _ none => absurd none copy⟩

theorem connect (kept : Kept v l) : Kept v.connect l := by
  have ruled := kept.ruled.connect
  unfold View.connect at ruled ⊢
  split_ifs at ruled ⊢
  · exact kept
  · exact ⟨ruled, kept.copy, kept.cached, kept.fresh⟩

/-- The main loop up to the input. -/
theorem beforeInput {flushes : Bool} (kept : Kept v l) (rollback : Option (BitVec 32)) :
    Kept (v.beforeInput flushes rollback) (l.poll v) := by
  have connected := kept.connect
  have sameStall : v.connect.stalled = v.stalled := by
    unfold View.connect
    split <;> rfl
  unfold View.beforeInput Ledger.poll
  by_cases waiting : v.connect.clientWaiting = true
  · rw [if_pos waiting]
    rcases connected.ruled.reportStop_cases flushes rollback with
      ⟨running, same⟩ | ⟨stalled, stalled', known, -, w, looked, same⟩
    · rw [same, if_neg fun both => by rw [← sameStall, running] at both; exact absurd both.2 (by decide)]
      exact connected
    · rw [if_pos ⟨waiting, sameStall ▸ stalled⟩]
      have kept' : Kept { v.connect with stallState := .stalled, npcIsCached := false } l :=
        ⟨.of_stalled stalled rfl, connected.copy, connected.cached, connected.fresh⟩
      obtain ⟨copy, agree⟩ := kept'.fetch stalled
      have checked : Kept v.connect.check { l with fetched := true } := by
        rw [View.check, if_pos stalled]
        exact of_cached ((View.fetch_stalled _).trans stalled) (View.fetch_stallState _) copy agree
      have answered : Kept w { l with fetched := true } := by
        rcases looked with rfl | ⟨ppc, -, -, rfl⟩
        · exact checked
        · exact checked.same (v.connect.check.setNpc_same flushes ppc)
      rw [same] at stalled' known ⊢
      exact ⟨.of_stalled stalled' known, answered.copy, answered.cached, answered.fresh⟩
  · rw [if_neg waiting, if_neg fun both => waiting both.1]
    exact connected

/-- A request that stays inside the structure. -/
theorem request {flushes : Bool} (kept : Kept v l) (connected : v.connected = true)
    (idle : v.clientWaiting = false) (request : DebugRequest)
    (inside : request.StaysInside v.fetch.regs) :
    Kept (v.apply flushes request)
      ⟨request.changes l.held, (l.fetched || request.fetches) && !request.resumes⟩ := by
  obtain ⟨stalled, known⟩ := kept.ruled.idle (.inl idle)
  obtain ⟨copy, agree⟩ := kept.fetch stalled
  have stalled' : v.fetch.stalled = true := v.fetch_stalled.trans stalled
  have known' : v.fetch.stallState = .stalled := v.fetch_stallState.trans known
  have ruled : (v.apply flushes request).Ruled := .apply stalled known connected request
  have quiet {w : View} (kept : Kept w l) : Kept w ⟨l.held, (l.fetched || false) && !false⟩ := by
    rwa [Bool.or_false, Bool.not_false, Bool.and_true]
  have gone {w : View} {l' : Ledger} (ruled : w.Ruled) (running : w.stalled = false)
      (unfetched : l'.fetched = false) : Kept w l' :=
    ⟨ruled, fun fetched => absurd (unfetched.symm.trans fetched) (by decide),
      fun stalled => absurd (running.symm.trans stalled) (by decide),
      fun stalled => absurd (running.symm.trans stalled) (by decide)⟩
  cases request with
  | none => exact quiet kept
  | readNpc => exact quiet (kept.same v.getNpc_same)
  | writeNpc val => exact quiet (kept.same (v.setNpc_same flushes val))
  | restart => exact quiet (kept.same (v.setNpc_same flushes v.startAddr))
  | readWord i => exact of_cached stalled' known' (by simp [View.apply]) agree
  | writeWord i val =>
      exact of_cached stalled' known' (by simp [View.apply]) (agree.update i val)
  | insert addr => exact of_cached stalled' known' (by simp [View.apply]) (agree.insert inside)
  | remove addr => exact of_cached stalled' known' (by simp [View.apply]) (agree.remove inside)
  | resume step addr =>
      have running : (v.apply flushes (.resume step addr)).stalled = false := by
        cases addr <;> rfl
      exact gone ruled running (by simp [DebugRequest.resumes])
  | wait => exact quiet ⟨ruled, kept.copy, kept.cached, kept.fresh⟩
  | detach => exact quiet ⟨ruled, kept.copy, kept.cached, kept.fresh⟩
  | stall => exact quiet ⟨ruled, kept.copy, fun _ => kept.cached stalled, fun _ => kept.fresh stalled⟩

end Kept

/-! ## Sessions -/

/-- A request that is served stays inside the structure. -/
def ViewEvent.StaysInside (flushes : Bool) (v : View) : ViewEvent → Prop
  | .pass rollback (.request request) =>
      (v.beforeInput flushes rollback).clientWaiting = false →
        request.StaysInside (v.beforeInput flushes rollback).fetch.regs
  | _ => True

namespace Kept

variable {v : View} {l : Ledger}

/-- A processor that runs: there is no copy, and none has been fetched. -/
theorem running (kept : Kept v l) (running : v.stalled = false) :
    v.dirty = -1 ∧ l.fetched = false := by
  have none : v.dirty = -1 := by
    by_contra copy
    exact absurd (running.symm.trans (kept.ruled.copy copy)) (by decide)
  refine ⟨none, ?_⟩
  by_contra fetched
  exact kept.copy (by simpa using fetched) none

/-- The processor runs on and may stall: the registers it then has are new. -/
theorem run (kept : Kept v l) (debugRegs : Nat → BitVec 32) (npc : BitVec 32) (stalls flushes : Bool) :
    Kept (v.run debugRegs npc stalls) (l.step v flushes (.cpu debugRegs npc stalls)) := by
  have ruled := kept.ruled.run debugRegs npc stalls
  cases stalled : v.stalled with
  | true =>
      have same : v.run debugRegs npc stalls = v := by rw [View.run, if_pos stalled]
      rw [same, Ledger.step, if_neg (by simp [stalled])]
      exact kept
  | false =>
      obtain ⟨none, unfetched⟩ := kept.running stalled
      have ran : v.run debugRegs npc stalls =
          { v with cpuRegs := debugRegs, npc := npc, stalled := stalls, flushed := false } := by
        rw [View.run, if_neg (by simp [stalled])]
      rw [ran] at ruled ⊢
      rw [Ledger.step]
      cases stalls with
      | false =>
          rw [if_neg (by simp)]
          refine ⟨ruled, fun fetched => absurd (unfetched.symm.trans fetched) (by decide), ?_, ?_⟩
          · intro stalled
            cases stalled
          · intro stalled
            cases stalled
      | true =>
          rw [if_pos ⟨stalled, rfl⟩]
          exact ⟨ruled, fun fetched => absurd (unfetched.symm.trans fetched) (by decide),
            fun _ copy => absurd none copy, fun _ _ _ _ _ => rfl⟩

/-- An interrupt: if it is what stalls the processor, the ledger starts again from
the registers the processor then has. -/
theorem interrupt (kept : Kept v l) (flushes : Bool) :
    Kept (v.input flushes .interrupt) (l.input v .interrupt) := by
  rw [View.input_interrupt, Ledger.input]
  by_cases known : v.stallState = .stalled
  · rw [if_neg (not_not.mpr known), if_neg fun both => both.1 known]
    exact kept
  · rw [if_pos known]
    have ruled : v.interrupt.Ruled := .of_stalled rfl rfl
    cases stalled : v.stalled with
    | true =>
        rw [if_neg (by simp)]
        exact ⟨ruled, kept.copy, fun _ => kept.cached stalled, fun _ => kept.fresh stalled⟩
    | false =>
        obtain ⟨none, unfetched⟩ := kept.running stalled
        rw [if_pos ⟨known, rfl⟩]
        exact ⟨ruled, fun fetched => absurd (unfetched.symm.trans fetched) (by decide),
          fun _ copy => absurd none copy, fun _ _ _ _ _ => rfl⟩

/-- What a resume request writes back when the cache has been fetched. -/
theorem resume (kept : Kept v l) (idle : v.clientWaiting = false) (fetched : l.fetched = true)
    (flushes step : Bool) (addr : Option (BitVec 32)) :
    v.dirty ≠ -1 ∧ ∀ i < dbgGroupWords,
      (v.apply flushes (.resume step addr)).cpuRegs i = View.resumeRegs step l.held i := by
  have copy := kept.copy fetched
  have agree := (kept.cached (kept.ruled.idle (.inl idle)).1 copy).resumeRegs step
  refine ⟨copy, fun i inside => ?_⟩
  rw [← agree i (by omega) (by omega)]
  cases addr with
  | some addr =>
      simp only [View.apply, View.resume, if_pos inside, (v.setNpc_same flushes addr).regs]
  | none =>
      simp only [View.apply, View.resume, if_pos inside,
        (v.getNpc.1.setNpc_same flushes v.getNpc.2).regs, v.getNpc_same.regs]

/-- **What is kept holds after every event that the condition permits.** -/
theorem step {flushes : Bool} (kept : Kept v l) (event : ViewEvent)
    (inside : event.StaysInside flushes v) :
    Kept (v.step flushes event) (l.step v flushes event) := by
  cases event with
  | ended => exact kept
  | cpu debugRegs npc stalls => exact kept.run debugRegs npc stalls flushes
  | pass rollback input =>
      have before : Kept (v.beforeInput flushes rollback) (l.poll v) := kept.beforeInput rollback
      cases input with
      | nothing => exact before
      | interrupt => exact before.interrupt flushes
      | request request =>
          rw [View.step, Ledger.step, View.input_request, Ledger.input]
          by_cases waiting : (v.beforeInput flushes rollback).clientWaiting = true
          · rw [if_pos waiting, if_pos waiting]
            exact before
          · rw [if_neg waiting, if_neg waiting]
            have idle : (v.beforeInput flushes rollback).clientWaiting = false := by simpa using waiting
            exact before.request (kept.ruled.beforeInput_connected rollback) idle request
              (inside idle)
      | closed =>
          rw [View.step, Ledger.step, View.input_closed, Ledger.input]
          split_ifs with waiting
          · exact before
          · obtain ⟨stalled, known⟩ := before.ruled.idle (.inl (by simpa using waiting))
            exact ⟨.of_stalled stalled known, before.copy, before.cached, before.fresh⟩

end Kept

/-! ## Whole sessions -/

namespace Session

/-- The ledger beside a session. -/
def ledger (host : Host) (x : Session) (event : Event) (l : Ledger) : Ledger :=
  l.step x.server.view host.flushes (x.viewEvent host event)

/-- The event does not reach what is wrong: a resume request finds the cache
fetched, and every request stays inside the structure. -/
def Fetched (host : Host) (y : Session × Ledger) : Event → Prop
  | .pass (.packet buf) =>
      y.1.server.running = true → (y.1.beforeInput host).server.clientWaiting = false →
        (debugRequest host buf).StaysInside ((y.1.beforeInput host).server.debugRegs host) ∧
          ((debugRequest host buf).resumes = true → (y.2.poll y.1.server.view).fetched = true)
  | _ => True

instance (host : Host) (y : Session × Ledger) : (event : Event) → Decidable (Fetched host y event)
  | .pass (.packet buf) =>
      inferInstanceAs (Decidable
        (y.1.server.running = true → (y.1.beforeInput host).server.clientWaiting = false →
          (debugRequest host buf).StaysInside ((y.1.beforeInput host).server.debugRegs host) ∧
            ((debugRequest host buf).resumes = true → (y.2.poll y.1.server.view).fetched = true)))
  | .pass .nothing | .pass .interrupt | .pass .closed | .cpu _ _ => .isTrue trivial

/-- A resume request that is served writes back what the ledger says, and there is
a copy to be written back. -/
def WritesBack (host : Host) (y : Session × Ledger) : Event → Prop
  | .pass (.packet buf) =>
      y.1.server.running = true → (y.1.beforeInput host).server.clientWaiting = false →
        ∀ step addr, debugRequest host buf = .resume step addr →
          (y.1.beforeInput host).server.dbgRegsCacheDirty ≠ -1 ∧
            ∀ i < dbgGroupWords,
              (y.1.step host (.pass (.packet buf))).server.target.cpu.spr
                  (dbgCpuRegAdd + BitVec.ofNat 32 i) =
                View.resumeRegs step y.2.held i
  | _ => True

end Session

@[simp] theorem Ledger.poll_held (l : Ledger) (v : View) : (l.poll v).held = l.held := by
  unfold Ledger.poll
  split <;> rfl

/-- The ledger when the main loop begins. -/
def initialLedger (s : RspServer) : Ledger := ⟨ofCpuRegs s.target.cpu.debugRegs, false⟩

section Sessions

variable {host : Host} (reliable : host.Reliable)
include reliable

theorem Kept.rspInit {s : RspServer} (booted : Booted s) :
    Kept (s.rspInit host).view (initialLedger s) := by
  rw [RspServer.view_rspInit reliable booted]
  exact ⟨.of_stalled booted.stalled rfl, nofun, fun _ copy => absurd booted.noCopy copy,
    fun _ _ _ _ _ => rfl⟩

/-- Staying inside, as the view sees it. -/
theorem Session.staysInside_viewEvent {x : Session} {l : Ledger} {event : Event}
    (fetched : Session.Fetched host (x, l) event) :
    (x.viewEvent host event).StaysInside host.flushes x.server.view := by
  cases event with
  | cpu spr stalls => trivial
  | pass input =>
      unfold Session.viewEvent
      dsimp only
      split_ifs with running
      · cases input with
        | packet buf =>
            intro idle
            rw [← x.view_beforeInput reliable] at idle ⊢
            rw [← RspServer.view_getDebugRegisters reliable]
            exact (fetched running idle).1
        | nothing => trivial
        | interrupt => trivial
        | closed => trivial
      · trivial

/-- What is kept, for one event of a session. -/
theorem Kept.sessionStep {x : Session} {l : Ledger} (kept : Kept x.server.view l) {event : Event}
    (fetched : Session.Fetched host (x, l) event) :
    Kept (x.step host event).server.view (x.ledger host event l) := by
  rw [x.view_step reliable]
  exact kept.step _ (Session.staysInside_viewEvent reliable fetched)

/-- What one event writes back. -/
theorem Kept.writesBack {x : Session} {l : Ledger} (kept : Kept x.server.view l) {event : Event}
    (fetched : Session.Fetched host (x, l) event) : Session.WritesBack host (x, l) event := by
  cases event with
  | cpu spr stalls => trivial
  | pass input =>
      cases input with
      | packet buf =>
          intro running idle step addr resumes
          have before : Kept (x.beforeInput host).server.view (l.poll x.server.view) := by
            rw [x.view_beforeInput reliable]
            exact kept.beforeInput _
          obtain ⟨-, known⟩ := fetched running idle
          obtain ⟨copy, written⟩ := before.resume idle (known (by rw [resumes]; rfl)) host.flushes
            step addr
          have after : (x.step host (.pass (.packet buf))).server.view =
              (x.beforeInput host).server.view.apply host.flushes (.resume step addr) := by
            rw [x.view_served reliable running idle, resumes]
          refine ⟨copy, fun i inside => ?_⟩
          rw [← RspServer.view_cpuRegs _ inside, after, written i inside, l.poll_held]
      | nothing => trivial
      | interrupt => trivial
      | closed => trivial

end Sessions

/-! ## The first resume request of a session -/

/-- A processor that has its first pair of debug registers. -/
def onePairServer : RspServer :=
  { idleServer with
    target := ⟨⟨fun adr => if adr = dbgCpuRegAdd + 8 then 1 else 0, true, false⟩, fun _ => 0, 0⟩ }

theorem onePairServer_booted : Booted onePairServer := ⟨rfl, rfl, rfl⟩

end OrpsocCores.Gdb
