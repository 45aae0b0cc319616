import OrpsocCores.WbAvalonBridge.Single

/-!
# The bridge from Avalon to Wishbone

`avalon_to_wb_bridge.v` passes a write through in the cycle in which it is presented.  A
read is passed on one cycle later, when `read_access` has been set, and its data comes
back one cycle after the slave's answer.  `waitrequest` is down exactly in the cycle of
the answer, so that a transfer is accepted when its Wishbone cycle ends.

A journal lists the transfers that are accepted on the Avalon side, the cycles that begin
and end on the Wishbone side, and the data on both ways.  `accepted_once` says that they
agree after every cycle of every run.
-/

set_option autoImplicit false

namespace OrpsocCores.WbAvalonBridge.AvalonToWb

variable {aw dw : Nat}

/-! ## The bridge -/

/-- The Avalon side, as the master drives it. -/
structure AvBus (aw dw : Nat) where
  address : BitVec aw
  byteenable : BitVec (dw / 8)
  read : Bool
  burstcount : BitVec 8
  write : Bool
  writedata : BitVec dw
  deriving DecidableEq

/-- The inputs of a cycle. -/
structure Inputs (aw dw : Nat) where
  wbRstI : Bool
  av : AvBus aw dw
  wbmDatI : BitVec dw
  wbmAckI : Bool
  wbmErrI : Bool
  wbmRtyI : Bool

/-- The registers. -/
structure State (dw : Nat) where
  readAccess : Bool
  readdatavalid : Bool
  readdata : BitVec dw

/-- The slave ends the cycle. -/
def Inputs.answered (c : Inputs aw dw) : Bool := c.wbmAckI || c.wbmErrI

namespace State

/-- `wbm_we_o`. -/
def wbmWeO (c : Inputs aw dw) : Bool := c.av.write

/-- `wbm_cyc_o`, which is also `wbm_stb_o`. -/
def wbmCycO (s : State dw) (c : Inputs aw dw) : Bool := s.readAccess || c.av.write

/-- `s_av_waitrequest_o`. -/
def waitrequest (c : Inputs aw dw) : Bool := !c.answered

/-- An edge of `wb_clk_i`. -/
def step (s : State dw) (c : Inputs aw dw) : State dw where
  readAccess :=
    if c.wbRstI then false
    else if c.answered then false
    else if c.av.read then true
    else s.readAccess
  readdatavalid := c.answered && s.readAccess
  readdata := c.wbmDatI

/-! ## What both sides see -/

/-- The transfer that the Avalon master asks for. -/
def requested (c : Inputs aw dw) : Option (Transfer aw dw) :=
  if c.av.write then some ⟨true, c.av.address, c.av.writedata, c.av.byteenable⟩
  else if c.av.read then some ⟨false, c.av.address, 0, c.av.byteenable⟩
  else none

/-- The cycle on the Wishbone side; the data lines count in a write only. -/
def presented (s : State dw) (c : Inputs aw dw) : Option (Transfer aw dw) :=
  if s.wbmCycO c then
    some ⟨wbmWeO c, c.av.address, if wbmWeO c then c.av.writedata else 0, c.av.byteenable⟩
  else none

/-- What the cycles so far have shown. -/
structure Journal (aw dw : Nat) where
  /-- The Avalon request of the last cycle, when it was not accepted. -/
  held : Option (Transfer aw dw)
  /-- The Wishbone cycle that has begun and not ended. -/
  opened : Option (Transfer aw dw)
  /-- The transfers accepted on the Avalon side. -/
  accepted : List (Transfer aw dw)
  /-- The cycles begun and those ended on the Wishbone side. -/
  begun : List (Transfer aw dw)
  ended : List (Transfer aw dw)
  /-- The data with which the slave has ended read cycles. -/
  answers : List (BitVec dw)
  /-- The data of the pulses of `readdatavalid`. -/
  delivered : List (BitVec dw)

def Journal.empty : Journal aw dw := ⟨none, none, [], [], [], [], []⟩

def Journal.record (s : State dw) (c : Inputs aw dw) (j : Journal aw dw) : Journal aw dw where
  held := if waitrequest c then requested c else none
  opened := if c.answered then none else presented s c
  accepted := if waitrequest c then j.accepted else j.accepted ++ (requested c).toList
  begun := if j.opened.isSome then j.begun else j.begun ++ (presented s c).toList
  ended := if c.answered then j.ended ++ (presented s c).toList else j.ended
  answers :=
    if c.answered && s.wbmCycO c && !wbmWeO c then j.answers ++ [c.wbmDatI] else j.answers
  delivered := if s.readdatavalid then j.delivered ++ [s.readdata] else j.delivered

/-- The master holds a request until it is accepted, asks for one thing at a time and for
no bursts; the slave answers only cycles; there is no reset. -/
structure Environment (x : State dw × Journal aw dw) (c : Inputs aw dw) : Prop where
  holds : ∀ request ∈ x.2.held, requested c = some request
  oneKind : (c.av.read && c.av.write) = false
  single : (requested c).isSome = true → c.av.burstcount = 1
  answers : c.answered = true → (presented x.1 c).isSome = true
  noReset : c.wbRstI = false

instance (x : State dw × Journal aw dw) (c : Inputs aw dw) : Decidable (Environment x c) :=
  decidable_of_iff
    ((∀ request ∈ x.2.held, requested c = some request) ∧ (c.av.read && c.av.write) = false ∧
      ((requested c).isSome = true → c.av.burstcount = 1) ∧
      (c.answered = true → (presented x.1 c).isSome = true) ∧ c.wbRstI = false)
    ⟨fun ⟨holds, oneKind, single, answers, noReset⟩ => ⟨holds, oneKind, single, answers, noReset⟩,
      fun ⟨holds, oneKind, single, answers, noReset⟩ => ⟨holds, oneKind, single, answers, noReset⟩⟩

/-- After this cycle the accepted transfers are the Wishbone cycles that have ended; at
most one more has begun, and it goes on with what it began with, for the request of the
master; and the answers to the reads are those that have been delivered and the one that
is delivered in the next cycle. -/
structure Agrees (x : State dw × Journal aw dw) (c : Inputs aw dw) : Prop where
  ended : (Journal.record x.1 c x.2).ended = (Journal.record x.1 c x.2).accepted
  begun : (Journal.record x.1 c x.2).begun =
    (Journal.record x.1 c x.2).ended ++ (Journal.record x.1 c x.2).opened.toList
  steady : ∀ request ∈ x.2.opened, presented x.1 c = some request
  asked : ∀ request ∈ presented x.1 c, requested c = some request
  delivered : (Journal.record x.1 c x.2).answers =
    (Journal.record x.1 c x.2).delivered ++
      if (x.1.step c).readdatavalid then [(x.1.step c).readdata] else []

/-! ## Where a request stands -/

/-- Where the request of the master stands. -/
inductive Stands (s : State dw) (j : Journal aw dw) : Prop
  /-- Nothing is presented. -/
  | quiet (held : j.held = none) (opened : j.opened = none) (access : s.readAccess = false)
  /-- A write goes on. -/
  | writing (request : Transfer aw dw) (we : request.we = true) (held : j.held = some request)
      (opened : j.opened = some request) (access : s.readAccess = false)
  /-- A read has been taken over and is not yet passed on. -/
  | taken (request : Transfer aw dw) (we : request.we = false) (held : j.held = some request)
      (opened : j.opened = none) (access : s.readAccess = true)
  /-- A read goes on. -/
  | reading (request : Transfer aw dw) (we : request.we = false) (held : j.held = some request)
      (opened : j.opened = some request) (access : s.readAccess = true)

/-- The journal between two cycles. -/
structure Orderly (s : State dw) (j : Journal aw dw) : Prop where
  stands : Stands s j
  ended : j.ended = j.accepted
  begun : j.begun = j.ended ++ j.opened.toList
  answers : j.answers = j.delivered ++ if s.readdatavalid then [s.readdata] else []

variable {s : State dw} {j : Journal aw dw} {c : Inputs aw dw}

/-- A cycle on the Wishbone side, and where it comes from. -/
inductive Passes (s : State dw) (j : Journal aw dw) (c : Inputs aw dw) : Prop
  /-- There is none. -/
  | nothing (presented : presented s c = none) (opened : j.opened = none)
      (access : s.readAccess = false) (write : c.av.write = false)
  /-- It is for the write of the master. -/
  | write (request : Transfer aw dw) (we : request.we = true)
      (presented : presented s c = some request) (requested : requested c = some request)
      (opened : ∀ earlier ∈ j.opened, earlier = request) (access : s.readAccess = false)
      (write : c.av.write = true) (read : c.av.read = false)
  /-- It is for the read of the master. -/
  | read (request : Transfer aw dw) (we : request.we = false)
      (presented : presented s c = some request) (requested : requested c = some request)
      (opened : ∀ earlier ∈ j.opened, earlier = request) (access : s.readAccess = true)
      (write : c.av.write = false) (read : c.av.read = true)

/-- What is requested has the kind of the line that asks for it. -/
theorem write_of_requested {request : Transfer aw dw} (requested : requested c = some request) :
    c.av.write = request.we := by
  unfold State.requested at requested
  split at requested
  · next write =>
      obtain rfl := Option.some.inj requested
      exact write
  · next write =>
      split at requested
      · obtain rfl := Option.some.inj requested
        simpa using write
      · cases requested

theorem Stands.passes (stands : Stands s j)
    (holds : ∀ request ∈ j.held, requested c = some request)
    (oneKind : (c.av.read && c.av.write) = false) : Passes s j c := by
  -- without `read_access` only a write is passed on
  have direct : s.readAccess = false → (∀ earlier ∈ j.opened, requested c = some earlier) →
      (c.av.write = false → j.opened = none) → Passes s j c := by
    intro access opened idle
    cases write : c.av.write with
    | false => exact .nothing (by simp [presented, wbmCycO, access, write]) (idle write) access write
    | true =>
        have read : c.av.read = false := by simpa [write] using oneKind
        refine .write ⟨true, c.av.address, c.av.writedata, c.av.byteenable⟩ rfl ?_ ?_ ?_ access
          write read
        · simp [presented, wbmCycO, wbmWeO, write]
        · simp [requested, write]
        · intro earlier member
          have same := opened earlier member
          simp only [requested, write, if_true, Option.some.injEq] at same
          exact same.symm
  -- with it, the read of the master is
  have delayed : ∀ request : Transfer aw dw, request.we = false → j.held = some request →
      (∀ earlier ∈ j.opened, earlier = request) → s.readAccess = true → Passes s j c := by
    intro request we held opened access
    have asked := holds request held
    have write : c.av.write = false := (write_of_requested asked).trans we
    have read : c.av.read = true := by
      by_contra absent
      simp [requested, write, absent] at asked
    refine .read request we ?_ asked opened access write read
    rw [← asked]
    simp [presented, requested, wbmCycO, wbmWeO, access, write, read]
  cases stands with
  | quiet held opened access =>
      exact direct access (by simp [opened]) fun _ => opened
  | writing request we held opened access =>
      have asked := holds request held
      refine direct access ?_ fun write => ?_
      · intro earlier member
        rw [opened, Option.mem_some_iff] at member
        rw [← member, asked]
      · rw [write_of_requested asked, we] at write
        cases write
  | taken request we held opened access =>
      exact delayed request we held (by simp [opened]) access
  | reading request we held opened access =>
      exact delayed request we held (by simp [opened]) access

/-- What the pulses so far have delivered. -/
theorem Orderly.delivered (orderly : Orderly s j) :
    (Journal.record s c j).delivered = j.answers := by
  rw [orderly.answers]
  simp only [Journal.record]
  split
  · rfl
  · rw [List.append_nil]

/-- The cycle that is presented is the one that has begun last. -/
theorem Orderly.begun_eq (orderly : Orderly s j) {request : Transfer aw dw}
    (presented : presented s c = some request) (opened : ∀ earlier ∈ j.opened, earlier = request) :
    (Journal.record s c j).begun = j.ended ++ [request] := by
  simp only [Journal.record, orderly.begun, presented]
  cases earlier : j.opened with
  | none => simp
  | some earlier' =>
      rw [opened earlier' earlier]
      simp

/-- **One cycle keeps the journal in order.** -/
theorem Orderly.step (orderly : Orderly s j) (environment : Environment (s, j) c) :
    Orderly (s.step c) (Journal.record s c j) := by
  have passes := orderly.stands.passes environment.holds environment.oneKind
  have noReset := environment.noReset
  have ended := orderly.ended
  have delivered := orderly.delivered (c := c)
  cases answered : c.answered with
  | true =>
      have some := environment.answers answered
      dsimp only at some
      cases passes with
      | nothing presented => simp [presented] at some
      | write request we presented requested opened access write read =>
          refine ⟨.quiet ?_ ?_ ?_, ?_, ?_, ?_⟩
          · simp [Journal.record, waitrequest, answered]
          · simp [Journal.record, answered]
          · simp [State.step, noReset, answered]
          · simp [Journal.record, waitrequest, answered, presented, requested, ended]
          · rw [orderly.begun_eq presented opened]
            simp [Journal.record, answered, presented]
          · rw [delivered]
            simp [Journal.record, State.step, wbmWeO, write, access]
      | read request we presented requested opened access write read =>
          refine ⟨.quiet ?_ ?_ ?_, ?_, ?_, ?_⟩
          · simp [Journal.record, waitrequest, answered]
          · simp [Journal.record, answered]
          · simp [State.step, noReset, answered]
          · simp [Journal.record, waitrequest, answered, presented, requested, ended]
          · rw [orderly.begun_eq presented opened]
            simp [Journal.record, answered, presented]
          · rw [delivered]
            simp [Journal.record, State.step, wbmWeO, wbmCycO, write, access, answered]
  | false =>
      have still : (Journal.record s c j).answers = (Journal.record s c j).delivered ++
          if (s.step c).readdatavalid then [(s.step c).readdata] else [] := by
        rw [delivered]
        simp [Journal.record, State.step, answered]
      have none : (Journal.record s c j).ended = (Journal.record s c j).accepted := by
        simp [Journal.record, waitrequest, answered, ended]
      cases passes with
      | nothing presented opened access write =>
          refine ⟨?_, none, ?_, still⟩
          · cases read : c.av.read with
            | false =>
                refine .quiet ?_ ?_ ?_
                · simp [Journal.record, waitrequest, answered, State.requested, write, read]
                · simp [Journal.record, presented]
                · simp [State.step, noReset, answered, read, access]
            | true =>
                refine .taken ⟨false, c.av.address, 0, c.av.byteenable⟩ rfl ?_ ?_ ?_
                · simp [Journal.record, waitrequest, answered, State.requested, write, read]
                · simp [Journal.record, presented]
                · simp [State.step, noReset, answered, read]
          · simp [Journal.record, presented, opened, orderly.begun, answered]
      | write request we presented requested opened access write read =>
          refine ⟨.writing request we ?_ ?_ ?_, none, ?_, still⟩
          · simp [Journal.record, waitrequest, answered, requested]
          · simp [Journal.record, answered, presented]
          · simp [State.step, noReset, answered, read, access]
          · rw [orderly.begun_eq presented opened]
            simp [Journal.record, answered, presented]
      | read request we presented requested opened access write read =>
          refine ⟨.reading request we ?_ ?_ ?_, none, ?_, still⟩
          · simp [Journal.record, waitrequest, answered, requested]
          · simp [Journal.record, answered, presented]
          · simp [State.step, noReset, answered, read]
          · rw [orderly.begun_eq presented opened]
            simp [Journal.record, answered, presented]

/-- Both sides agree in a cycle of an orderly journal. -/
theorem Orderly.agrees (orderly : Orderly s j) (environment : Environment (s, j) c) :
    Agrees (s, j) c := by
  have next := orderly.step environment
  have passes := orderly.stands.passes environment.holds environment.oneKind
  refine ⟨next.ended, next.begun, ?_, ?_, next.answers⟩
  · intro request member
    cases passes with
    | nothing _ opened => simp [opened] at member
    | write _ _ presented _ opened => rw [opened request member, presented]
    | read _ _ presented _ opened => rw [opened request member, presented]
  · intro request member
    cases passes with
    | nothing presented => simp [presented] at member
    | write request' _ presented requested => rw [← member, presented, requested]
    | read request' _ presented requested => rw [← member, presented, requested]

/-! ## Every run -/

/-- The registers behind a reset that has found no read in progress. -/
def afterReset (readdata : BitVec dw) : State dw := ⟨false, false, readdata⟩

/-- **Every accepted transfer is exactly one Wishbone cycle, every accepted read exactly
one pulse with its data, in order, and nothing else is issued or returned**, in every
cycle of every run behind a reset. -/
theorem accepted_once (readdata : BitVec dw) (cycles : List (Inputs aw dw))
    (permitted : Trace.Always (Trace.monitored State.step Journal.record) Environment
      (afterReset readdata, Journal.empty) cycles) :
    Trace.Always (Trace.monitored State.step Journal.record) Agrees
      (afterReset readdata, Journal.empty) cycles :=
  Trace.Always.of_invariant (fun x : State dw × Journal aw dw => Orderly x.1 x.2)
    (fun _ _ orderly environment => orderly.step environment)
    (fun _ _ orderly environment => orderly.agrees environment)
    ⟨.quiet rfl rfl rfl, rfl, rfl, rfl⟩ permitted

/-- A cycle in which the master asks for a word. -/
def readCycle (answer : Bool) : Inputs 32 32 where
  wbRstI := false
  av := ⟨0x40, 0xf, true, 1, false, 0⟩
  wbmDatI := 0xcafe
  wbmAckI := answer
  wbmErrI := false
  wbmRtyI := false

/-- A cycle in which the master writes a word. -/
def writeCycle (answer : Bool) : Inputs 32 32 where
  wbRstI := false
  av := ⟨0x44, 0x3, false, 1, true, 0xbeef⟩
  wbmDatI := 0
  wbmAckI := answer
  wbmErrI := false
  wbmRtyI := false

/-- A write, a read that waits, a read and a write at once behind it. -/
def mixedCycles : List (Inputs 32 32) :=
  [writeCycle false, writeCycle true, readCycle false, readCycle false, readCycle true,
    readCycle false, readCycle true, writeCycle true]

theorem accepted_once_mixed :
    Trace.Always (Trace.monitored State.step Journal.record) Agrees
        (afterReset 0, Journal.empty) mixedCycles ∧
      (Trace.after (Trace.monitored State.step Journal.record) (afterReset 0, Journal.empty)
        mixedCycles).2.accepted.length = 4 :=
  ⟨accepted_once 0 mixedCycles (by decide), by decide⟩

end State

end OrpsocCores.WbAvalonBridge.AvalonToWb
