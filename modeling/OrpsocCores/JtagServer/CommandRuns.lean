import OrpsocCores.Foundation.Trace
import OrpsocCores.JtagServer.Dispatch

/-!
# Runs of the JTAG server

A recorder sees every call: the commands that are received, the rising edges of the
clock between the call that receives a command and the call that finishes its task, and
those outside.  A server does its work if there are none outside, the tasks finish in
the order in which the commands came, each with its own packet, and the edges of each
are those it would have as the first command after the construction (`Dispatched`).

The idle calls of the dispatcher break this, since they raise the clock when the low
phase is over (`idle_edge`).  The condition `Heeded` is that no call comes to this: a call
that finds no command in progress comes in the low phase, or receives a reset that takes
over just there.  `dispatched` says that every run that keeps to it is right.
-/

set_option autoImplicit false

namespace OrpsocCores.JtagServer

open Trace

/-! ## Runs and what is recorded of them -/

/-- The server and the time of the next call. -/
structure System where
  server : Server
  t : Nat

/-- What a call finds: the next command, if there is one to read, and the pin. -/
structure Call where
  arrival : Option JtagCmd
  tdo : Byte

/-- One call. -/
def System.step (tckPeriod : Nat) (x : System) (call : Call) : System :=
  ⟨x.server.doJTAG tckPeriod x.t call.arrival call.tdo, x.t + 1⟩

/-- The task of the known command that a call receives. -/
def System.received (x : System) (call : Call) : Option Task :=
  if x.server.cmdInProgress then none else call.arrival.bind JtagCmd.task

/-- A task that has finished, with its rising edges. -/
structure Execution where
  task : Task
  edges : List Edge

structure Log where
  received : List Task
  executed : List Execution
  /-- The edges since a command was received. -/
  current : List Edge
  /-- The edges outside. -/
  stray : List Edge

def Log.empty : Log := ⟨[], [], [], []⟩

/-- What is recorded of a call. -/
def record (tckPeriod : Nat) (x : System) (call : Call) (log : Log) : Log :=
  let s := x.server
  let s' := (x.step tckPeriod call).server
  let edges := emitted s.pins s'.pins
  { received := log.received ++ (x.received call).toList
    executed :=
      if s.cmdInProgress && !s'.cmdInProgress then
        log.executed ++ s.task.toList.map fun task => ⟨task, log.current ++ edges⟩
      else log.executed
    current := if s'.cmdInProgress then log.current ++ edges else []
    stray :=
      if s.cmdInProgress || (x.received call).isSome then log.stray else log.stray ++ edges }

/-- The call does not reach the clock of the idle calls. -/
def Heeded (x : System) (call : Call) : Prop :=
  x.server.cmdInProgress = false →
    x.server.clk.tckLow = true ∨
      x.received call = some .reset ∧ x.t = x.server.clk.time + 1

instance (x : System) (call : Call) : Decidable (Heeded x call) :=
  inferInstanceAs (Decidable (_ → _))

/-- The server and the recorder after a run from the construction. -/
def served (tckPeriod : Nat) (packet : JtagCmd) (tmsFlip : Bool) (t : Nat) (calls : List Call) :
    System × Log :=
  after (monitored (System.step tckPeriod) (record tckPeriod))
    (⟨Server.constructed packet tmsFlip, t⟩, Log.empty) calls

/-! ## The invariant -/

/-- What holds of the server and the record between two calls. -/
structure Recorded (tckPeriod : Nat) (x : System × Log) : Prop where
  valid : Valid tckPeriod x.1.t x.1.server
  quiet : x.2.stray = []
  executed : ∀ execution ∈ x.2.executed,
    execution.edges = script tckPeriod execution.task.work.sessions
  inOrder : x.2.received = x.2.executed.map Execution.task ++ x.1.server.task.toList
  current : ∀ task, x.1.server.task = some task →
    x.2.current ++ rest tckPeriod x.1.server.clk x.1.server.work.sessions =
      script tckPeriod task.work.sessions
  empty : x.1.server.cmdInProgress = false → x.2.current = []
  origin : ∀ task ∈ x.2.received, ∃ packet : JtagCmd, packet.task = some task

variable {tckPeriod t : Nat} {s : Server} {x : System × Log} {call : Call}

/-- A command in progress has a task. -/
theorem Valid.task_of_inProgress (valid : Valid tckPeriod t s)
    (inProgress : s.cmdInProgress = true) : ∃ task, s.task = some task := by
  cases valid with
  | idle _ idle _ _ _ _ => simp [idle] at inProgress
  | reset state => exact ⟨_, Server.task_tapReset state⟩
  | gotoIdle state => exact ⟨_, Server.task_gotoIdle state⟩
  | tmsSeq state => exact ⟨_, Server.task_doTmsSeq state⟩
  | scanChain state => exact ⟨_, Server.task_scanChain state⟩

/-- Without a command in progress there is nothing to do. -/
theorem Valid.task_of_idle (valid : Valid tckPeriod t s) (idle : s.cmdInProgress = false) :
    s.task = none ∧ s.work.sessions = [] := by
  cases valid with
  | idle state => exact ⟨by simp [Server.task, state], by simp [Server.work, state]⟩
  | reset _ inProgress => simp [idle] at inProgress
  | gotoIdle _ inProgress => simp [idle] at inProgress
  | tmsSeq _ inProgress => simp [idle] at inProgress
  | scanChain _ inProgress => simp [idle] at inProgress

theorem recorded_constructed (tckPeriod : Nat) (packet : JtagCmd) (tmsFlip : Bool) (t : Nat) :
    Recorded tckPeriod (⟨Server.constructed packet tmsFlip, t⟩, Log.empty) where
  valid := .idle rfl rfl ⟨rfl, rfl, rfl⟩ ⟨rfl, rfl, rfl⟩ rfl
    ⟨rfl, fun _ => rfl, fun begun => nomatch begun⟩
  quiet := rfl
  executed := fun _ member => nomatch member
  inOrder := rfl
  current := fun _ task => nomatch task
  empty := fun _ => rfl
  origin := fun _ member => nomatch member

/-! ## One call -/

section Record

variable {x : System} {log : Log}

theorem record_goesOn (inProgress : x.server.cmdInProgress = true)
    (inProgress' : (x.step tckPeriod call).server.cmdInProgress = true) :
    record tckPeriod x call log =
      { log with
        current := log.current ++ emitted x.server.pins (x.step tckPeriod call).server.pins } := by
  simp [record, System.received, inProgress, inProgress']

theorem record_finishes {task : Task} (inProgress : x.server.cmdInProgress = true)
    (running : x.server.task = some task)
    (finished : (x.step tckPeriod call).server.cmdInProgress = false) :
    record tckPeriod x call log =
      { log with
        executed := log.executed ++
          [⟨task, log.current ++ emitted x.server.pins (x.step tckPeriod call).server.pins⟩]
        current := [] } := by
  simp [record, System.received, inProgress, running, finished]

theorem record_idle (idle : x.server.cmdInProgress = false) (nothing : x.received call = none)
    (idle' : (x.step tckPeriod call).server.cmdInProgress = false) :
    record tckPeriod x call log =
      { log with
        current := []
        stray := log.stray ++ emitted x.server.pins (x.step tckPeriod call).server.pins } := by
  simp [record, idle, nothing, idle']

theorem record_receives {task : Task} (idle : x.server.cmdInProgress = false)
    (received : x.received call = some task)
    (inProgress' : (x.step tckPeriod call).server.cmdInProgress = true) :
    record tckPeriod x call log =
      { log with
        received := log.received ++ [task]
        current := log.current ++ emitted x.server.pins (x.step tckPeriod call).server.pins } := by
  simp [record, idle, received, inProgress']

end Record

/-- A call while a command is in progress. -/
theorem Recorded.goesOn (recorded : Recorded tckPeriod x)
    (inProgress : x.1.server.cmdInProgress = true) (call : Call) :
    Recorded tckPeriod (monitored (System.step tckPeriod) (record tckPeriod) x call) := by
  obtain ⟨x, log⟩ := x
  have goesOn := recorded.valid.goesOn inProgress call.arrival call.tdo
  obtain ⟨task, running⟩ := recorded.valid.task_of_inProgress inProgress
  have edges : log.current ++ (emitted x.server.pins (x.step tckPeriod call).server.pins ++
      rest tckPeriod (x.step tckPeriod call).server.clk
        (x.step tckPeriod call).server.work.sessions) =
      script tckPeriod task.work.sessions :=
    (congrArg (log.current ++ ·) goesOn.edges).trans (recorded.current task running)
  have inOrder := recorded.inOrder
  dsimp only at inProgress running inOrder
  rw [running, Option.toList_some] at inOrder
  rw [monitored]
  dsimp only
  cases inProgress' : (x.step tckPeriod call).server.cmdInProgress with
  | true =>
      have same : (x.step tckPeriod call).server.task = some task :=
        (goesOn.sooner inProgress').1.trans running
      rw [record_goesOn inProgress inProgress']
      refine ⟨goesOn.valid, recorded.quiet, recorded.executed, ?_, ?_, ?_, recorded.origin⟩
      · rw [same, Option.toList_some]
        exact inOrder
      · intro task' running'
        obtain rfl : task = task' := Option.some.inj (same.symm.trans running')
        rw [List.append_assoc]
        exact edges
      · intro idle
        simp [inProgress'] at idle
  | false =>
      obtain ⟨done, nothing⟩ := goesOn.valid.task_of_idle inProgress'
      have whole : log.current ++ emitted x.server.pins (x.step tckPeriod call).server.pins =
          script tckPeriod task.work.sessions := by
        have last : (x.step tckPeriod call).server.work.sessions = [] := nothing
        rwa [last, rest, List.append_nil] at edges
      rw [record_finishes inProgress running inProgress']
      refine ⟨goesOn.valid, recorded.quiet, ?_, ?_, ?_, fun _ => rfl, recorded.origin⟩
      · intro execution member
        rcases List.mem_append.mp member with earlier | last
        · exact recorded.executed execution earlier
        · rw [List.mem_singleton.mp last]
          exact whole
      · have ended : (x.step tckPeriod call).server.task = none := done
        dsimp only
        rw [ended, inOrder, List.map_append]
        simp
      · intro task' running'
        exact absurd (done.symm.trans running') (by simp)

/-- A call without a command in progress. -/
theorem Recorded.idle (positive : 0 < tckPeriod) (recorded : Recorded tckPeriod x)
    (idle : x.1.server.cmdInProgress = false) (heeded : Heeded x.1 call) :
    Recorded tckPeriod (monitored (System.step tckPeriod) (record tckPeriod) x call) := by
  obtain ⟨x, log⟩ := x
  have inOrder := recorded.inOrder
  have empty := recorded.empty idle
  have done := (recorded.valid.task_of_idle idle).1
  dsimp only at idle inOrder empty done
  rw [done, Option.toList_none, List.append_nil] at inOrder
  have received : x.received call = call.arrival.bind JtagCmd.task := by
    simp [System.received, idle]
  cases recorded.valid with
  | reset _ inProgress => simp [idle] at inProgress
  | gotoIdle _ inProgress => simp [idle] at inProgress
  | tmsSeq _ inProgress => simp [idle] at inProgress
  | scanChain _ inProgress => simp [idle] at inProgress
  | idle state _ seq chain tdi resting =>
      rw [monitored]
      dsimp only at state seq chain tdi resting ⊢
      cases known : call.arrival.bind JtagCmd.task with
      | none =>
          have low : x.server.clk.tckLow = true := by
            refine (heeded idle).resolve_right fun reset => ?_
            simp [received, known] at reset
          obtain ⟨valid, idle', still⟩ :=
            idle_call state idle seq chain tdi resting positive known low call.tdo
          rw [record_idle idle (received.trans known) idle']
          refine ⟨valid, ?_, recorded.executed, ?_, ?_, fun _ => rfl, recorded.origin⟩
          · exact List.append_eq_nil_iff.mpr ⟨recorded.quiet, still⟩
          · have ended : (x.step tckPeriod call).server.task = none := (valid.task_of_idle idle').1
            dsimp only
            rw [ended, inOrder, Option.toList_none, List.append_nil]
          · intro task running
            exact absurd ((valid.task_of_idle idle').1.symm.trans running) (by simp)
      | some task =>
          have heeded' : x.server.clk.tckLow = true ∨
              task = .reset ∧ x.t = x.server.clk.time + 1 := by
            refine (heeded idle).imp_right fun reset => ⟨?_, reset.2⟩
            rw [received, known] at reset
            exact Option.some.inj reset.1
          have receives :=
            receive_call state idle seq chain tdi resting positive known heeded' call.tdo
          rw [record_receives idle (received.trans known) receives.inProgress]
          refine ⟨receives.valid, recorded.quiet, recorded.executed, ?_, ?_, ?_, ?_⟩
          · have runs : (x.step tckPeriod call).server.task = some task := receives.runs
            dsimp only
            rw [runs, inOrder, Option.toList_some]
          · intro task' running
            obtain rfl : task = task' := Option.some.inj (receives.runs.symm.trans running)
            dsimp only
            rw [empty, List.nil_append]
            exact receives.edges
          · intro idle'
            exact absurd (receives.inProgress.symm.trans idle') (by simp)
          · intro task' member
            rcases List.mem_append.mp member with earlier | last
            · exact recorded.origin task' earlier
            · obtain ⟨packet, -, same⟩ := Option.bind_eq_some_iff.mp known
              exact ⟨packet, (List.mem_singleton.mp last).symm ▸ same⟩

/-- **The invariant is kept by every call that heeds the condition.** -/
theorem Recorded.step (positive : 0 < tckPeriod) (recorded : Recorded tckPeriod x)
    (heeded : Heeded x.1 call) :
    Recorded tckPeriod (monitored (System.step tckPeriod) (record tckPeriod) x call) := by
  cases inProgress : x.1.server.cmdInProgress with
  | true => exact recorded.goesOn inProgress call
  | false => exact recorded.idle positive inProgress heeded

/-- The invariant holds after every run that heeds the condition. -/
theorem Recorded.run (positive : 0 < tckPeriod) (recorded : Recorded tckPeriod x)
    {calls : List Call} (heeded : Always (System.step tckPeriod) Heeded x.1 calls) :
    Recorded tckPeriod (after (monitored (System.step tckPeriod) (record tckPeriod)) x calls) :=
  Always.invariant (Recorded tckPeriod) (fun _ _ recorded heeded => recorded.step positive heeded)
    recorded (heeded.monitored (record tckPeriod) x.2)

/-! ## Commands finish -/

/-- A command in progress throughout a run. -/
def Busy (x : System) (_ : Call) : Prop := x.server.cmdInProgress = true

theorem heeded_of_busy {x : System} {calls : List Call}
    (busy : Always (System.step tckPeriod) Busy x calls) :
    Always (System.step tckPeriod) Heeded x calls := by
  induction calls generalizing x with
  | nil => trivial
  | cons call calls ih =>
      refine ⟨fun idle => ?_, ih busy.2⟩
      have inProgress : x.server.cmdInProgress = true := busy.1
      simp [idle] at inProgress

/-- Meanwhile no other command is received. -/
theorem received_of_busy {calls : List Call}
    (busy : Always (System.step tckPeriod) Busy x.1 calls) :
    (after (monitored (System.step tckPeriod) (record tckPeriod)) x calls).2.received =
      x.2.received := by
  induction calls generalizing x with
  | nil => rfl
  | cons call calls ih =>
      have nothing : x.1.received call = none := if_pos busy.1
      rw [after_cons, ih busy.2]
      simp [monitored, record, nothing]

/-- **A command in progress finishes** within as many calls as are counted for it. -/
theorem Recorded.finishes (recorded : Recorded tckPeriod x)
    (inProgress : x.1.server.cmdInProgress = true) {inputs : List Call}
    (enough : calls tckPeriod x.1.server.clk x.1.t x.1.server.work < inputs.length) :
    ∃ front back, inputs = front ++ back ∧ Always (System.step tckPeriod) Busy x.1 front ∧
      (after (System.step tckPeriod) x.1 front).server.cmdInProgress = false := by
  induction inputs generalizing x with
  | nil => exact absurd enough (Nat.not_lt_zero _)
  | cons call inputs ih =>
      have goesOn := recorded.valid.goesOn inProgress call.arrival call.tdo
      cases inProgress' : (x.1.step tckPeriod call).server.cmdInProgress with
      | false => exact ⟨[call], inputs, rfl, ⟨inProgress, trivial⟩, inProgress'⟩
      | true =>
          have sooner := (goesOn.sooner inProgress').2
          rw [List.length_cons] at enough
          have left : calls tckPeriod (x.1.step tckPeriod call).server.clk
              (x.1.step tckPeriod call).t (x.1.step tckPeriod call).server.work < inputs.length :=
            Nat.lt_of_lt_of_le sooner (Nat.lt_succ_iff.mp enough)
          obtain ⟨front, back, split, busy, idle⟩ :=
            ih (recorded.goesOn inProgress call) inProgress' left
          exact ⟨call :: front, back, congrArg (call :: ·) split, ⟨inProgress, busy⟩, idle⟩

/-- What has been executed stays executed. -/
theorem executed_monotone (x : System × Log) (calls : List Call) :
    x.2.executed <+:
      (after (monitored (System.step tckPeriod) (record tckPeriod)) x calls).2.executed := by
  induction calls generalizing x with
  | nil => exact List.prefix_rfl
  | cons call calls ih =>
      refine List.IsPrefix.trans ?_ (ih _)
      rw [monitored, record]
      dsimp only
      split
      · exact List.prefix_append _ _
      · exact List.prefix_rfl

/-- What has been received when no command is in progress has been executed, and stays
so. -/
theorem Recorded.received_prefix (recorded : Recorded tckPeriod x)
    (idle : x.1.server.cmdInProgress = false) (more : List Call) :
    x.2.received <+: (after (monitored (System.step tckPeriod) (record tckPeriod)) x
      more).2.executed.map Execution.task := by
  rw [recorded.inOrder, (recorded.valid.task_of_idle idle).1, Option.toList_none, List.append_nil]
  exact (executed_monotone x more).map Execution.task

/-- **Every command that has been received is executed** after enough calls. -/
theorem Recorded.executes (positive : 0 < tckPeriod) (recorded : Recorded tckPeriod x) :
    ∃ n, ∀ more : List Call, n ≤ more.length →
      x.2.received <+: (after (monitored (System.step tckPeriod) (record tckPeriod)) x
        more).2.executed.map Execution.task := by
  cases inProgress : x.1.server.cmdInProgress with
  | false => exact ⟨0, fun more _ => recorded.received_prefix inProgress more⟩
  | true =>
      refine ⟨calls tckPeriod x.1.server.clk x.1.t x.1.server.work + 1, fun more enough => ?_⟩
      obtain ⟨front, back, rfl, busy, idle⟩ := recorded.finishes inProgress enough
      rw [← after_monitored_fst (System.step tckPeriod) (record tckPeriod)] at idle
      have finished := recorded.run positive (heeded_of_busy busy)
      have split : after (monitored (System.step tckPeriod) (record tckPeriod)) x (front ++ back) =
          after (monitored (System.step tckPeriod) (record tckPeriod))
            (after (monitored (System.step tckPeriod) (record tckPeriod)) x front) back :=
        List.foldl_append
      rw [← received_of_busy busy, split]
      exact finished.received_prefix idle back

/-! ## The first command after the construction -/

/-- These are the edges that a task has as the first one after the construction: its
command is received by the first call, and the calls go on until it is finished. -/
def AsFirst (tckPeriod : Nat) (task : Task) (edges : List Edge) : Prop :=
  ∃ packet tmsFlip t call calls, call.arrival.bind JtagCmd.task = some task ∧
    Always (System.step tckPeriod) Busy
      (System.step tckPeriod ⟨Server.constructed packet tmsFlip, t⟩ call) calls ∧
    (served tckPeriod packet tmsFlip t (call :: calls)).2.executed = [⟨task, edges⟩]

/-- The first call after the construction heeds the condition. -/
theorem heeded_first (packet : JtagCmd) (tmsFlip : Bool) (t : Nat) (call : Call) :
    Heeded ⟨Server.constructed packet tmsFlip, t⟩ call :=
  fun _ => .inl rfl

theorem AsFirst.eq_script (positive : 0 < tckPeriod) {task : Task} {edges : List Edge}
    (asFirst : AsFirst tckPeriod task edges) :
    edges = script tckPeriod task.work.sessions := by
  obtain ⟨packet, tmsFlip, t, call, calls, -, busy, executed⟩ := asFirst
  have heeded : Always (System.step tckPeriod) Heeded ⟨Server.constructed packet tmsFlip, t⟩
      (call :: calls) :=
    ⟨heeded_first packet tmsFlip t call, heeded_of_busy busy⟩
  have recorded := (recorded_constructed tckPeriod packet tmsFlip t).run positive heeded
  refine recorded.executed ⟨task, edges⟩ ?_
  rw [served] at executed
  rw [executed]
  exact List.mem_singleton_self _

/-- The task of a command can be the first one, and finishes. -/
theorem asFirst_script (positive : 0 < tckPeriod) {packet : JtagCmd} {task : Task}
    (known : packet.task = some task) :
    AsFirst tckPeriod task (script tckPeriod task.work.sessions) := by
  let start : System × Log := (⟨Server.constructed packet false, 0⟩, Log.empty)
  let call : Call := ⟨some packet, 0⟩
  let x := monitored (System.step tckPeriod) (record tckPeriod) start call
  have recorded : Recorded tckPeriod x :=
    (recorded_constructed tckPeriod packet false 0).step positive (heeded_first packet false 0 call)
  have arrived : call.arrival.bind JtagCmd.task = some task := known
  have received : x.2.received = [task] := by
    simp [x, start, monitored, record, System.received, Server.constructed, Log.empty, arrived]
  have nothing : x.2.executed = [] := by
    simp [x, start, monitored, record, Server.constructed, Log.empty]
  have inProgress : x.1.server.cmdInProgress = true := by
    by_contra idle
    have ended := (recorded.valid.task_of_idle (by simpa using idle)).1
    have inOrder := recorded.inOrder
    rw [received, nothing, ended] at inOrder
    simp at inOrder
  have enough : calls tckPeriod x.1.server.clk x.1.t x.1.server.work <
      (List.replicate (calls tckPeriod x.1.server.clk x.1.t x.1.server.work + 1)
        (⟨none, 0⟩ : Call)).length := by
    simp
  obtain ⟨front, back, -, busy, idle⟩ := recorded.finishes inProgress enough
  have finished := recorded.run positive (heeded_of_busy busy)
  have received' := (received_of_busy busy).trans received
  have inOrder := finished.inOrder
  rw [← after_monitored_fst (System.step tckPeriod) (record tckPeriod)] at idle
  rw [received', (finished.valid.task_of_idle idle).1, Option.toList_none,
    List.append_nil] at inOrder
  refine ⟨packet, false, 0, call, front, arrived, busy, ?_⟩
  obtain ⟨execution, alone, same⟩ := List.map_eq_singleton_iff.mp inOrder.symm
  have edges := finished.executed execution (by rw [alone]; exact List.mem_singleton_self _)
  rw [same] at edges
  rw [← edges, ← same]
  exact alone

/-! ## What the dispatcher does with its commands -/

/-- What a server should have done. -/
structure Dispatched (tckPeriod : Nat) (x : System × Log) : Prop where
  /-- The clock rises for commands only. -/
  quiet : x.2.stray = []
  /-- The commands that came are those whose tasks are done, and the one whose task is
  running. -/
  inOrder : x.2.received = x.2.executed.map Execution.task ++ x.1.server.task.toList
  /-- A command that came will be done. -/
  finishes : ∃ n, ∀ more : List Call, n ≤ more.length →
    x.2.received <+: (after (monitored (System.step tckPeriod) (record tckPeriod)) x
      more).2.executed.map Execution.task
  /-- A task that is done had the edges that it has as the first one. -/
  alike : ∀ execution ∈ x.2.executed, ∀ edges,
    AsFirst tckPeriod execution.task edges ↔ edges = execution.edges
  /-- The task that is running has had a part of them. -/
  begun : ∀ task, x.1.server.task = some task → ∀ edges,
    AsFirst tckPeriod task edges → x.2.current <+: edges

/-- **The dispatcher serves its commands.**  After every run from the construction
whose calls heed the condition, no rising edge was made without a command, every known
command was executed or is being executed, in the order of their arrival and with its
own packet, and finishes, and its rising edges are those it has as the first command
after the construction. -/
theorem dispatched (positive : 0 < tckPeriod) (packet : JtagCmd) (tmsFlip : Bool) (t : Nat)
    {calls : List Call}
    (heeded : Always (System.step tckPeriod) Heeded ⟨Server.constructed packet tmsFlip, t⟩ calls) :
    Dispatched tckPeriod (served tckPeriod packet tmsFlip t calls) := by
  have recorded := (recorded_constructed tckPeriod packet tmsFlip t).run positive heeded
  rw [← served] at recorded
  refine ⟨recorded.quiet, recorded.inOrder, recorded.executes positive, ?_, ?_⟩
  · intro execution member edges
    have same := recorded.executed execution member
    have came : execution.task ∈ (served tckPeriod packet tmsFlip t calls).2.received := by
      rw [recorded.inOrder]
      exact List.mem_append_left _ (List.mem_map_of_mem member)
    obtain ⟨origin, known⟩ := recorded.origin execution.task came
    rw [same]
    constructor
    · exact fun asFirst => asFirst.eq_script positive
    · rintro rfl
      exact asFirst_script positive known
  · intro task running edges asFirst
    rw [asFirst.eq_script positive, ← recorded.current task running]
    exact List.prefix_append _ _

/-- A test bench that waits for a command, with the period of its server: the clock
rises in the thirteenth call. -/
theorem idle_edge :
    ¬ Dispatched 10 (served 10 noPacket false 0 (List.replicate 13 ⟨none, 0⟩)) := by
  intro dispatched
  exact absurd dispatched.quiet (by decide +kernel)

/-- A command for three bits of `TMS`, one, zero and one. -/
def threeBits : JtagCmd :=
  { noPacket with
    cmd := cmdTmsSeq, bufferOut := Vector.replicate _ 5, length := 1, nbBits := 3
    fits := by decide }

/-- A wait within the low phase, a command, and a wait again. -/
def threeBitsCalls : List Call :=
  List.replicate 5 ⟨none, 0⟩ ++ [⟨some threeBits, 0⟩] ++ List.replicate 75 ⟨none, 0⟩

/-- The server does the command and is idle again. -/
theorem dispatched_threeBits :
    Dispatched 10 (served 10 noPacket false 0 threeBitsCalls) ∧
      (served 10 noPacket false 0 threeBitsCalls).2.executed.map Execution.edges =
        [[⟨true, false⟩, ⟨false, false⟩, ⟨true, false⟩]] :=
  ⟨dispatched (by decide) noPacket false 0 (by decide +kernel), by decide +kernel⟩

end OrpsocCores.JtagServer
