import OrpsocCores.JtagServer.Tasks

/-!
# The dispatcher

Every call that finds no command in progress runs into the branch that resets the TAP:
the branch of `CHECK_CMD` has no `break`.  While no command is there, these calls make
the clock generator go through its low phase and then raise the clock, with `TMS` high,
for nobody.  A call that receives a command other than a reset does the same.

This module is about one call: what it does for a command in progress (`Valid.goesOn`),
and what it does without one while the clock is in its low phase (`idle_call`,
`receive_call`).
-/

set_option autoImplicit false

namespace OrpsocCores.JtagServer

/-! ## Commands and what they ask for -/

/-- What a command asks for. -/
inductive Task
  | reset
  | tmsSeq (length nbBits : Int) (buffer : Vector Byte xfertMaxSize)
  | scanChain (length nbBits : Int) (buffer : Vector Byte xfertMaxSize) (flipTms : Bool)
  deriving DecidableEq

/-- The task of a known command. -/
def JtagCmd.task (packet : JtagCmd) : Option Task :=
  if packet.cmd = cmdReset then some .reset
  else if packet.cmd = cmdTmsSeq then
    some (.tmsSeq packet.length packet.nbBits packet.bufferOut)
  else if packet.cmd = cmdScanChain then
    some (.scanChain packet.length packet.nbBits packet.bufferOut false)
  else if packet.cmd = cmdScanChainFlipTms then
    some (.scanChain packet.length packet.nbBits packet.bufferOut true)
  else none

/-- Five periods with `TMS` high, and one with `TMS` low. -/
def resetSessions : List Session := [(5, ⟨true, false⟩), (1, ⟨false, false⟩)]

def Task.work : Task → Work
  | .reset => ⟨resetSessions, 0⟩
  | .tmsSeq length nbBits buffer => tmsWork length nbBits buffer 0 0
  | .scanChain length nbBits buffer flipTms => scanWork length nbBits buffer flipTms 0 0

namespace Server

/-- The task that the dispatcher runs. -/
def task (s : Server) : Option Task :=
  match s.jtagState with
  | .tapReset | .gotoIdle => some .reset
  | .doTmsSeq => some (.tmsSeq s.packet.length s.packet.nbBits s.packet.bufferOut)
  | .scanChain =>
      some (.scanChain s.packet.length s.packet.nbBits s.packet.bufferOut s.tmsFlip)
  | .checkCmd | .finished => none

/-- What is left of it. -/
def work (s : Server) : Work :=
  match s.jtagState with
  | .tapReset => ⟨resetSessions, 0⟩
  | .gotoIdle => ⟨[(1, ⟨false, false⟩)], 0⟩
  | .doTmsSeq =>
      tmsWork s.packet.length s.packet.nbBits s.packet.bufferOut s.seq.i s.seq.j
  | .scanChain =>
      scanWork s.packet.length s.packet.nbBits s.packet.bufferOut s.tmsFlip s.chain.i s.chain.j
  | .checkCmd | .finished => ⟨[], 0⟩

section States

variable {s : Server}

theorem work_tapReset (state : s.jtagState = .tapReset) : s.work = ⟨resetSessions, 0⟩ := by
  simp [work, state]

theorem task_tapReset (state : s.jtagState = .tapReset) : s.task = some .reset := by
  simp [task, state]

theorem work_gotoIdle (state : s.jtagState = .gotoIdle) :
    s.work = ⟨[(1, ⟨false, false⟩)], 0⟩ := by
  simp [work, state]

theorem task_gotoIdle (state : s.jtagState = .gotoIdle) : s.task = some .reset := by
  simp [task, state]

theorem work_doTmsSeq (state : s.jtagState = .doTmsSeq) :
    s.work = tmsWork s.packet.length s.packet.nbBits s.packet.bufferOut s.seq.i s.seq.j := by
  simp [work, state]

theorem task_doTmsSeq (state : s.jtagState = .doTmsSeq) :
    s.task = some (.tmsSeq s.packet.length s.packet.nbBits s.packet.bufferOut) := by
  simp [task, state]

theorem work_scanChain (state : s.jtagState = .scanChain) :
    s.work = scanWork s.packet.length s.packet.nbBits s.packet.bufferOut s.tmsFlip s.chain.i
      s.chain.j := by
  simp [work, state]

theorem task_scanChain (state : s.jtagState = .scanChain) :
    s.task = some (.scanChain s.packet.length s.packet.nbBits s.packet.bufferOut s.tmsFlip) := by
  simp [task, state]

end States

/-- The server in the branch of `do_scan_chain`. -/
def lowered (s : Server) : Server := { s with pins := { s.pins with tms := false } }

section Branches

variable {tckPeriod t : Nat} {s : Server} {arrival : Option JtagCmd} {tdo : Byte}

/-! ## The branches -/

theorem doJTAG_tapReset (state : s.jtagState = .tapReset) (inProgress : s.cmdInProgress = true) :
    s.doJTAG tckPeriod t arrival tdo = s.tapReset tckPeriod t := by
  obtain ⟨clk, seq, chain, pins, packet, jtagState, cmdInProgress, tmsFlip, sent⟩ := s
  subst state inProgress
  rfl

theorem doJTAG_gotoIdle (state : s.jtagState = .gotoIdle) (inProgress : s.cmdInProgress = true) :
    s.doJTAG tckPeriod t arrival tdo =
      match s.gotoRunTestIdle tckPeriod t with
      | (.done, s) => { s with cmdInProgress := false, jtagState := .checkCmd }
      | (.inProgress, s) => s := by
  obtain ⟨clk, seq, chain, pins, packet, jtagState, cmdInProgress, tmsFlip, sent⟩ := s
  subst state inProgress
  rfl

theorem doJTAG_doTmsSeq (state : s.jtagState = .doTmsSeq) (inProgress : s.cmdInProgress = true) :
    s.doJTAG tckPeriod t arrival tdo =
      match s.doTmsSeq tckPeriod t s.packet.length s.packet.nbBits s.packet.bufferOut with
      | (.done, s) => { s with cmdInProgress := false, jtagState := .checkCmd }
      | (.inProgress, s) => s := by
  obtain ⟨clk, seq, chain, pins, packet, jtagState, cmdInProgress, tmsFlip, sent⟩ := s
  subst state inProgress
  rfl

theorem doJTAG_scanChain (state : s.jtagState = .scanChain) (inProgress : s.cmdInProgress = true) :
    s.doJTAG tckPeriod t arrival tdo =
      match s.lowered.doScanChain tckPeriod t s.packet.length s.packet.nbBits s.packet.bufferOut
          tdo s.tmsFlip with
      | (.done, s) =>
          { s with cmdInProgress := false, sent := s.sent ++ [s.packet], jtagState := .checkCmd }
      | (.inProgress, s) => s := by
  obtain ⟨clk, seq, chain, pins, packet, jtagState, cmdInProgress, tmsFlip, sent⟩ := s
  subst state inProgress
  rfl

theorem doJTAG_checkCmd (state : s.jtagState = .checkCmd) (inProgress : s.cmdInProgress = false) :
    s.doJTAG tckPeriod t arrival tdo =
      (s.checkForCommand arrival).dispatch.tapReset tckPeriod t := by
  obtain ⟨clk, seq, chain, pins, packet, jtagState, cmdInProgress, tmsFlip, sent⟩ := s
  subst state inProgress
  rfl

end Branches

end Server

/-! ## The server between two calls -/

/-- A packet without a command. -/
def noPacket : JtagCmd where
  cmd := -1
  bufferOut := Vector.replicate _ 0
  bufferIn := Vector.replicate _ 0
  length := 0
  nbBits := 0
  fits := by decide

def TmsSeq.AtStart (seq : TmsSeq) : Prop := seq.i = 0 ∧ seq.j = 0 ∧ seq.start = true

def ScanChain.AtStart (chain : ScanChain) : Prop := chain.i = 0 ∧ chain.j = 0 ∧ chain.start = true

/-- The server in front of a call at this time, by the state of the dispatcher. -/
inductive Valid (tckPeriod t : Nat) (s : Server) : Prop
  | idle (state : s.jtagState = .checkCmd) (inProgress : s.cmdInProgress = false)
      (seq : s.seq.AtStart) (chain : s.chain.AtStart) (tdi : s.pins.tdi = false)
      (resting : Resting s.clk s.pins.tck t)
  | reset (state : s.jtagState = .tapReset) (inProgress : s.cmdInProgress = true)
      (seq : s.seq.AtStart) (chain : s.chain.AtStart) (tdi : s.pins.tdi = false)
      (inPhase : InPhase tckPeriod s.clk s.pins.tck t)
  | gotoIdle (state : s.jtagState = .gotoIdle) (inProgress : s.cmdInProgress = true)
      (seq : s.seq.AtStart) (chain : s.chain.AtStart) (tdi : s.pins.tdi = false)
      (inPhase : InPhase tckPeriod s.clk s.pins.tck t)
  | tmsSeq (state : s.jtagState = .doTmsSeq) (inProgress : s.cmdInProgress = true)
      (chain : s.chain.AtStart)
      (shifting : TmsShifting tckPeriod t s.packet.length s.packet.nbBits s.packet.bufferOut s)
  | scanChain (state : s.jtagState = .scanChain) (inProgress : s.cmdInProgress = true)
      (seq : s.seq.AtStart)
      (shifting : ScanShifting tckPeriod t s.packet.length s.packet.nbBits s.packet.bufferOut
        s.tmsFlip s)

variable {tckPeriod t : Nat} {s : Server}

/-- What a call does for a command in progress. -/
structure GoesOn (tckPeriod t : Nat) (s s' : Server) : Prop where
  valid : Valid tckPeriod (t + 1) s'
  edges : emitted s.pins s'.pins ++ rest tckPeriod s'.clk s'.work.sessions =
    rest tckPeriod s.clk s.work.sessions
  sooner : s'.cmdInProgress = true →
    s'.task = s.task ∧ calls tckPeriod s'.clk (t + 1) s'.work < calls tckPeriod s.clk t s.work

theorem GoesOn.of_advanced {s' : Server} {work work' : Work} (before : s.work = work)
    (behind : s'.work = work') (valid : Valid tckPeriod (t + 1) s')
    (advanced : Advanced tckPeriod t work work' s s')
    (same : s'.task = s.task ∨ s'.cmdInProgress = false) : GoesOn tckPeriod t s s' := by
  subst before behind
  exact ⟨valid, advanced.edges, fun inProgress =>
    ⟨same.resolve_right (by simp [inProgress]), advanced.sooner⟩⟩

/-- The branch that resets the TAP. -/
theorem tapReset_goesOn (state : s.jtagState = .tapReset) (inProgress : s.cmdInProgress = true)
    (seq : s.seq.AtStart) (chain : s.chain.AtStart) (tdi : s.pins.tdi = false)
    (inPhase : InPhase tckPeriod s.clk s.pins.tck t) :
    GoesOn tckPeriod t s (s.tapReset tckPeriod t) := by
  have task := Server.task_tapReset state
  have ready : Ready tckPeriod s.clk s.pins.tck t resetSessions := inPhase
  unfold Server.tapReset Server.resetTap
  dsimp only
  rcases session_call 0 ready 0xff 0 false with ⟨tick, call, status, goesOn⟩ | ⟨clk, call, ends⟩
  · rw [call, status]
    have advanced := goesOn
      { s with clk := tick.clk, pins := ⟨true, s.pins.tdi, tick.tck⟩ } rfl (by rw [tdi])
    exact .of_advanced (Server.work_tapReset state) (Server.work_tapReset state)
      (.reset state inProgress seq chain tdi advanced.ready) advanced
      (.inl ((Server.task_tapReset state).trans task.symm))
  · rw [call]
    have advanced := ends
      { s with
        clk := genClkRestart clk
        pins := ⟨false, s.pins.tdi, s.pins.tck⟩
        jtagState := .gotoIdle } rfl rfl
    exact .of_advanced (Server.work_tapReset state) rfl
      (.gotoIdle rfl inProgress seq chain tdi advanced.ready) advanced (.inl task.symm)

/-- The branch that leaves the TAP idle. -/
theorem gotoIdle_goesOn (state : s.jtagState = .gotoIdle) (inProgress : s.cmdInProgress = true)
    (seq : s.seq.AtStart) (chain : s.chain.AtStart) (tdi : s.pins.tdi = false)
    (inPhase : InPhase tckPeriod s.clk s.pins.tck t) (arrival : Option JtagCmd) (tdo : Byte) :
    GoesOn tckPeriod t s (s.doJTAG tckPeriod t arrival tdo) := by
  have task := Server.task_gotoIdle state
  have ready : Ready tckPeriod s.clk s.pins.tck t [(1, ⟨false, false⟩)] := inPhase
  rw [Server.doJTAG_gotoIdle state inProgress]
  unfold Server.gotoRunTestIdle
  dsimp only
  rcases session_call 0 ready 0xff 0 false with ⟨tick, call, status, goesOn⟩ | ⟨clk, call, ends⟩
  · rw [call, status]
    have advanced := goesOn
      { s with clk := tick.clk, pins := ⟨false, s.pins.tdi, tick.tck⟩ } rfl (by rw [tdi])
    exact .of_advanced (Server.work_gotoIdle state) (Server.work_gotoIdle state)
      (.gotoIdle state inProgress seq chain tdi advanced.ready)
      advanced (.inl ((Server.task_gotoIdle state).trans task.symm))
  · rw [call]
    have advanced := ends
      { s with
        clk := genClkRestart clk
        pins := ⟨false, s.pins.tdi, s.pins.tck⟩
        cmdInProgress := false
        jtagState := .checkCmd } rfl rfl
    exact .of_advanced (Server.work_gotoIdle state) rfl
      (.idle rfl rfl seq chain tdi advanced.ready) advanced (.inr rfl)

/-- The branch of `do_tms_seq`. -/
theorem tmsSeq_goesOn (state : s.jtagState = .doTmsSeq) (inProgress : s.cmdInProgress = true)
    (chain : s.chain.AtStart)
    (shifting : TmsShifting tckPeriod t s.packet.length s.packet.nbBits s.packet.bufferOut s)
    (arrival : Option JtagCmd) (tdo : Byte) :
    GoesOn tckPeriod t s (s.doJTAG tckPeriod t arrival tdo) := by
  have task := Server.task_doTmsSeq state
  rw [Server.doJTAG_doTmsSeq state inProgress]
  rcases Nat.lt_or_ge s.seq.i s.packet.length.toNat with inside | outside
  · obtain ⟨seq, clk, tms, tck, call, advanced, shifting'⟩ := doTmsSeq_call shifting inside
    rw [call]
    exact .of_advanced (Server.work_doTmsSeq state) (Server.work_doTmsSeq state)
      (.tmsSeq state inProgress chain shifting') advanced
      (.inl ((Server.task_doTmsSeq state).trans task.symm))
  · rw [doTmsSeq_end outside]
    have none : (tmsWork s.packet.length s.packet.nbBits s.packet.bufferOut s.seq.i
        s.seq.j).sessions = [] :=
      bits_end outside
    have ready := shifting.ready
    rw [none] at ready
    refine ⟨.idle rfl rfl ⟨rfl, rfl, rfl⟩ chain shifting.tdi (Resting.later ready), ?_,
      fun inProgress => nomatch inProgress⟩
    rw [Server.work_doTmsSeq state, none]
    simp [emitted, Server.work, rest]

/-- The branch of `do_scan_chain`. -/
theorem scanChain_goesOn (state : s.jtagState = .scanChain) (inProgress : s.cmdInProgress = true)
    (seq : s.seq.AtStart)
    (shifting : ScanShifting tckPeriod t s.packet.length s.packet.nbBits s.packet.bufferOut
      s.tmsFlip s)
    (arrival : Option JtagCmd) (tdo : Byte) :
    GoesOn tckPeriod t s (s.doJTAG tckPeriod t arrival tdo) := by
  have task := Server.task_scanChain state
  rw [Server.doJTAG_scanChain state inProgress]
  have lowered : ScanShifting tckPeriod t s.packet.length s.packet.nbBits s.packet.bufferOut
      s.tmsFlip s.lowered :=
    ⟨shifting.ready, shifting.shifting⟩
  rcases Nat.lt_or_ge s.chain.i s.packet.length.toNat with inside | outside
  · obtain ⟨chain, clk, pins, bufferIn, call, advanced, shifting'⟩ :=
      doScanChain_call lowered rfl inside tdo
    rw [call]
    exact .of_advanced (Server.work_scanChain state) (Server.work_scanChain state)
      (.scanChain state inProgress seq shifting')
      ⟨advanced.edges, advanced.ready, advanced.sooner⟩
      (.inl ((Server.task_scanChain state).trans task.symm))
  · rw [doScanChain_end (s := s.lowered) outside tdo]
    have none : (scanWork s.packet.length s.packet.nbBits s.packet.bufferOut s.tmsFlip s.chain.i
        s.chain.j).sessions = [] :=
      bits_end outside
    have ready := shifting.ready
    rw [none] at ready
    refine ⟨.idle rfl rfl seq ⟨rfl, rfl, rfl⟩ rfl (Resting.later ready), ?_,
      fun inProgress => nomatch inProgress⟩
    rw [Server.work_scanChain state, none]
    simp [emitted, Server.work, rest, Server.lowered]

/-- **A call while a command is in progress.** -/
theorem Valid.goesOn (valid : Valid tckPeriod t s) (inProgress : s.cmdInProgress = true)
    (arrival : Option JtagCmd) (tdo : Byte) :
    GoesOn tckPeriod t s (s.doJTAG tckPeriod t arrival tdo) := by
  cases valid with
  | idle _ idle _ _ _ _ => simp [idle] at inProgress
  | reset state _ seq chain tdi inPhase =>
      rw [Server.doJTAG_tapReset state inProgress]
      exact tapReset_goesOn state inProgress seq chain tdi inPhase
  | gotoIdle state _ seq chain tdi inPhase =>
      exact gotoIdle_goesOn state inProgress seq chain tdi inPhase arrival tdo
  | tmsSeq state _ chain shifting =>
      exact tmsSeq_goesOn state inProgress chain shifting arrival tdo
  | scanChain state _ seq shifting =>
      exact scanChain_goesOn state inProgress seq shifting arrival tdo

/-! ## Calls without a command in progress -/

/-- In the low phase, the branch that resets the TAP makes no edge. -/
theorem tapReset_low (resting : Resting s.clk s.pins.tck t) (low : s.clk.tckLow = true)
    (positive : 0 < tckPeriod) :
    ∃ clk, s.tapReset tckPeriod t =
        { s with clk := clk, pins := ⟨true, s.pins.tdi, false⟩ } ∧
      Resting clk false (t + 1) ∧ (clk.tckLow = true ∨ t + 1 = clk.time + 1) := by
  obtain ⟨clk, call, resting', ready⟩ :=
    resting.tick low (show 0 < 5 * tckPeriod by omega) 0xff 0 false
  refine ⟨clk, ?_, resting', ready⟩
  unfold Server.tapReset Server.resetTap
  dsimp only
  rw [call]

theorem tapReset_cmdInProgress (s : Server) :
    (s.tapReset tckPeriod t).cmdInProgress = s.cmdInProgress := by
  unfold Server.tapReset Server.resetTap
  dsimp only
  cases (genClk tckPeriod t 5 s.pins.tck 0xff 0 false s.clk).status with
  | done => rfl
  | inProgress => rfl

/-- What is received is the task of the packet. -/
theorem checkForCommand_task (s : Server) (arrival : Option JtagCmd) :
    (s.checkForCommand arrival).packet.task = arrival.bind JtagCmd.task := by
  cases arrival with
  | none => rfl
  | some packet => rfl

/-- What the switch does with a packet. -/
theorem dispatch_cases (s : Server) :
    (s.packet.task = none ∧ s.dispatch = s) ∨
    (s.packet.task = some .reset ∧
      s.dispatch = { s with cmdInProgress := true, jtagState := .tapReset }) ∨
    (s.packet.task = some (.tmsSeq s.packet.length s.packet.nbBits s.packet.bufferOut) ∧
      s.dispatch = { s with cmdInProgress := true, jtagState := .doTmsSeq }) ∨
    ∃ flip,
      s.packet.task = some (.scanChain s.packet.length s.packet.nbBits s.packet.bufferOut flip) ∧
      s.dispatch = { s with cmdInProgress := true, tmsFlip := flip, jtagState := .scanChain } := by
  unfold JtagCmd.task Server.dispatch
  by_cases isReset : s.packet.cmd = cmdReset
  · exact .inr (.inl (by simp [isReset]))
  · by_cases isTmsSeq : s.packet.cmd = cmdTmsSeq
    · exact .inr (.inr (.inl (by simp [isTmsSeq, cmdReset, cmdTmsSeq])))
    · by_cases isScanChain : s.packet.cmd = cmdScanChain
      · exact .inr (.inr (.inr ⟨false,
          by simp [isScanChain, cmdReset, cmdTmsSeq, cmdScanChain]⟩))
      · by_cases flips : s.packet.cmd = cmdScanChainFlipTms
        · exact .inr (.inr (.inr ⟨true,
            by simp [flips, cmdReset, cmdTmsSeq, cmdScanChain, cmdScanChainFlipTms]⟩))
        · exact .inl (by simp [isReset, isTmsSeq, isScanChain, flips])

/-- What a call does that receives a command. -/
structure Receives (tckPeriod t : Nat) (s s' : Server) (task : Task) : Prop where
  valid : Valid tckPeriod (t + 1) s'
  inProgress : s'.cmdInProgress = true
  runs : s'.task = some task
  edges : emitted s.pins s'.pins ++ rest tckPeriod s'.clk s'.work.sessions =
    script tckPeriod task.work.sessions

theorem Resting.ready {clk : ClockGen} {tck : Bool} (resting : Resting clk tck t)
    (ready : clk.tckLow = true ∨ t = clk.time + 1) (sessions : List Session) :
    Ready tckPeriod clk tck t sessions := by
  cases sessions with
  | nil => exact resting
  | cons session more => exact resting.inPhase ready

theorem emitted_low (pins : Pins) (tms tdi : Bool) : emitted pins ⟨tms, tdi, false⟩ = [] :=
  if_neg (by simp)

section Idle

variable (state : s.jtagState = .checkCmd) (inProgress : s.cmdInProgress = false)
  (seq : s.seq.AtStart) (chain : s.chain.AtStart) (tdi : s.pins.tdi = false)
  (resting : Resting s.clk s.pins.tck t) (positive : 0 < tckPeriod)
include state inProgress seq chain tdi resting positive

/-- **A call that finds no known command**, in the low phase. -/
theorem idle_call {arrival : Option JtagCmd} (unknown : arrival.bind JtagCmd.task = none)
    (low : s.clk.tckLow = true) (tdo : Byte) :
    Valid tckPeriod (t + 1) (s.doJTAG tckPeriod t arrival tdo) ∧
      (s.doJTAG tckPeriod t arrival tdo).cmdInProgress = false ∧
      emitted s.pins (s.doJTAG tckPeriod t arrival tdo).pins = [] := by
  rw [Server.doJTAG_checkCmd state inProgress]
  rw [← checkForCommand_task s] at unknown
  have same : (s.checkForCommand arrival).dispatch = s.checkForCommand arrival := by
    rcases dispatch_cases (s.checkForCommand arrival) with
      ⟨-, same⟩ | ⟨known, -⟩ | ⟨known, -⟩ | ⟨flip, known, -⟩
    · exact same
    all_goals simp [known] at unknown
  have waiting : Resting (s.checkForCommand arrival).clk (s.checkForCommand arrival).pins.tck t :=
    resting
  obtain ⟨clk, call, resting', -⟩ := tapReset_low waiting low positive
  rw [same, call]
  exact ⟨.idle state inProgress seq chain tdi resting', inProgress, emitted_low _ _ _⟩

/-- **A call that receives a command.** -/
theorem receive_call {arrival : Option JtagCmd} {task : Task}
    (known : arrival.bind JtagCmd.task = some task)
    (heeded : s.clk.tckLow = true ∨ task = .reset ∧ t = s.clk.time + 1) (tdo : Byte) :
    Receives tckPeriod t s (s.doJTAG tckPeriod t arrival tdo) task := by
  rw [Server.doJTAG_checkCmd state inProgress]
  rw [← checkForCommand_task s] at known
  have waiting : Resting (s.checkForCommand arrival).clk (s.checkForCommand arrival).pins.tck t :=
    resting
  rcases dispatch_cases (s.checkForCommand arrival) with
    ⟨none, -⟩ | ⟨isTask, dispatched⟩ | ⟨isTask, dispatched⟩ | ⟨flip, isTask, dispatched⟩
  · simp [none] at known
  · -- the reset goes on from where the idle calls have left the clock
    obtain rfl : task = .reset := by
      rw [isTask] at known
      exact (Option.some.inj known).symm
    have ready : s.clk.tckLow = true ∨ t = s.clk.time + 1 := heeded.imp_right And.right
    rw [dispatched]
    let s₁ : Server :=
      { s.checkForCommand arrival with cmdInProgress := true, jtagState := .tapReset }
    have goesOn : GoesOn tckPeriod t s₁ (s₁.tapReset tckPeriod t) :=
      tapReset_goesOn rfl rfl seq chain tdi (resting.inPhase ready)
    have inProgress' : (s₁.tapReset tckPeriod t).cmdInProgress = true :=
      tapReset_cmdInProgress s₁
    refine ⟨goesOn.valid, inProgress', (goesOn.sooner inProgress').1, ?_⟩
    exact goesOn.edges.trans (rest_of_resting resting resetSessions)
  · -- the clock is still low, and the task finds it so
    have low : s.clk.tckLow = true := by
      refine heeded.resolve_right fun reset => ?_
      rw [isTask, reset.1] at known
      cases known
    let s₁ : Server :=
      { s.checkForCommand arrival with cmdInProgress := true, jtagState := .doTmsSeq }
    obtain ⟨clk, call, resting', ready⟩ := tapReset_low (s := s₁) resting low positive
    obtain ⟨i, j, start⟩ := seq
    rw [isTask] at known
    cases known
    rw [dispatched, call]
    have shifting : Shifting s₁.packet.bufferOut (tmsCount s₁.packet.length s₁.packet.nbBits)
        (tmsWork s₁.packet.length s₁.packet.nbBits s₁.packet.bufferOut s.seq.i s.seq.j).sessions
        clk s.seq.i s.seq.j s.seq.start s.seq.data := by
      rw [j, start]
      exact Shifting.behindByte tmsWork_empty _ _
    refine ⟨.tmsSeq rfl rfl chain ⟨resting'.ready ready _, shifting, tdi⟩, rfl, rfl, ?_⟩
    rw [emitted_low, rest_of_resting resting']
    simp [s₁, Server.work, Server.checkForCommand, Task.work, i, j]
  · have low : s.clk.tckLow = true := by
      refine heeded.resolve_right fun reset => ?_
      rw [isTask, reset.1] at known
      cases known
    let s₁ : Server :=
      { s.checkForCommand arrival with
        cmdInProgress := true, tmsFlip := flip, jtagState := .scanChain }
    obtain ⟨clk, call, resting', ready⟩ := tapReset_low (s := s₁) resting low positive
    obtain ⟨i, j, start⟩ := chain
    rw [isTask] at known
    cases known
    rw [dispatched, call]
    have shifting : Shifting s₁.packet.bufferOut (scanCount s₁.packet.length s₁.packet.nbBits)
        (scanWork s₁.packet.length s₁.packet.nbBits s₁.packet.bufferOut flip s.chain.i
          s.chain.j).sessions
        clk s.chain.i s.chain.j s.chain.start s.chain.data := by
      rw [j, start]
      exact Shifting.behindByte scanWork_empty _ _
    refine ⟨.scanChain rfl rfl seq ⟨resting'.ready ready _, shifting⟩, rfl, rfl, ?_⟩
    rw [emitted_low, rest_of_resting resting']
    simp [s₁, Server.work, Server.checkForCommand, Task.work, i, j]

end Idle

end OrpsocCores.JtagServer
