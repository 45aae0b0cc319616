import OrpsocCores.WbDdrCtrl.Model

/-!
# The handshake with the controller

The wrapper presents a request for one cycle, decided on the `local_ready_i` of the cycle
before.  A write that the controller does not take in that cycle is not acknowledged
either: the wrapper goes back to `IDLE` with `acc_i` still high and presents it again.  A
read has no such way back: in `READ` the wrapper waits for its words, whether or not the
controller took the request.

`Journal` keeps what the port asked for and what the controller took beside the wrapper.
The two agree as long as the controller is ready in the cycle in which a read is
presented, and from the first cycle on in which it is not they no longer do
(`delivered_iff_ready`).
-/

set_option autoImplicit false

namespace OrpsocCores.WbDdrCtrl

/-! ## Requests -/

/-- The whole request of a port: its command, `dat_i` and `sel_i`. -/
structure Access where
  command : Command
  datI : BitVec 32
  selI : BitVec 4
  deriving DecidableEq

/-- What the controller is asked to write: `local_address_o`, `local_wdata_o` and
`local_be_o`. -/
structure WriteBeat (aw : Nat) where
  address : BitVec (aw - 2)
  wdata : BitVec 32
  be : BitVec 4
  deriving DecidableEq

/-- What the controller is asked to read: `local_address_o` and `local_size_o`. -/
structure ReadBurst (aw : Nat) where
  address : BitVec (aw - 2)
  size : BitVec 7
  deriving DecidableEq

/-- The inputs sampled at an edge of `local_clk_i`. -/
structure Cycle where
  access : Access
  pins : LocalPins

/-- The acknowledges that a request needs: one for a write, one a word for a read. -/
def Command.acks (command : Command) : Nat :=
  if command.weI then 1 else 2 ^ command.bufWidthI.toNat

/-- The write that a request asks for. -/
def Access.beat (aw : Nat) (access : Access) : WriteBeat aw :=
  ⟨access.command.adrI.extractLsb' 2 (aw - 2), access.datI, access.selI⟩

/-- The line that a request asks for. -/
def Access.burst (aw : Nat) (access : Access) : ReadBurst aw :=
  ⟨access.command.localAddressO aw, (1 : BitVec 7) <<< access.command.bufWidthI.toNat⟩

/-- Requests and what became of them. -/
structure Journal (aw : Nat) where
  /-- No edge has passed since the reset. -/
  fresh : Bool
  /-- The request that is not done, and the acknowledges it still needs. -/
  pending : Option (Access × Nat)
  /-- The writes that were acknowledged, as the port asked for them. -/
  acknowledged : List (WriteBeat aw)
  /-- The writes that the controller took. -/
  written : List (WriteBeat aw)
  /-- The reads that the port asked for. -/
  asked : List (ReadBurst aw)
  /-- The reads that the controller took. -/
  read : List (ReadBurst aw)
  /-- The words that the controller was asked for and has not returned. -/
  owed : Nat
  /-- The state in the cycle before. -/
  before : State
  /-- `buf_width_i` in the cycle before. -/
  width : BitVec 4

/-- After a reset nothing has been asked for. -/
def Journal.empty (aw : Nat) : Journal aw := ⟨true, none, [], [], [], [], 0, .waitReady, 0⟩

namespace Journal

variable {aw : Nat}

/-- The request of this cycle: the one that is not done, or a new one. -/
def request (journal : Journal aw) (access : Access) : Option (Access × Nat) :=
  match journal.pending with
  | some request => some request
  | none => if access.command.accI then some (access, access.command.acks) else none

/-- A request after an acknowledge. -/
def answered : Option (Access × Nat) → Option (Access × Nat)
  | some (access, acks) => if acks ≤ 1 then none else some (access, acks - 1)
  | none => none

/-- The recorder.  The controller takes a request in a cycle in which the request and
`local_ready_i` are both high. -/
def record (w : Wrapper) (cycle : Cycle) (journal : Journal aw) : Journal aw :=
  let command := cycle.access.command
  let request := journal.request cycle.access
  let acked := w.ackO command cycle.pins
  let read := w.localReadReq && cycle.pins.localReady
  { fresh := false
    pending := if acked then answered request else request
    acknowledged := journal.acknowledged ++
      if acked && command.weI then request.toList.map (·.1.beat aw) else []
    written := journal.written ++
      if w.localWriteReq && cycle.pins.localReady then
        [⟨command.localAddressO aw, cycle.access.datI, cycle.access.selI⟩]
      else []
    asked := journal.asked ++
      if journal.pending.isNone && command.accI && !command.weI then [cycle.access.burst aw]
      else []
    read := journal.read ++ if read then [⟨command.localAddressO aw, w.localSize⟩] else []
    owed := (if cycle.pins.localRdataValid then journal.owed - 1 else journal.owed) +
      if read then w.localSize.toNat else 0
    before := w.state
    width := command.bufWidthI }

end Journal

/-- The wrapper with the journal beside it. -/
abbrev Recorded (aw : Nat) := Wrapper × Journal aw

/-- One edge. -/
def Recorded.step {aw : Nat} : Recorded aw → Cycle → Recorded aw :=
  Trace.monitored (fun w cycle => w.edge cycle.access.command cycle.pins) Journal.record

variable {aw : Nat}

/-- What is promised of the port and the controller. -/
structure Held (x : Recorded aw) (cycle : Cycle) : Prop where
  running : cycle.pins.localResetN = true
  /-- The reset of the wrapper is the port's too. -/
  quiet : x.2.fresh = true → cycle.access.command.accI = false
  /-- A request is held until it is acknowledged. -/
  command : ∀ request ∈ x.2.pending, cycle.access.command = request.1.command
  data : ∀ request ∈ x.2.pending, request.1.command.weI = true → cycle.access = request.1
  /-- Another port, with lines of another length, is selected in `IDLE` only. -/
  width : x.1.state = .read → cycle.access.command.bufWidthI = x.2.width
  /-- Only words that were asked for are returned. -/
  returns : cycle.pins.localRdataValid = true → 0 < x.2.owed

instance (x : Recorded aw) (cycle : Cycle) : Decidable (Held x cycle) :=
  decidable_of_iff
    (cycle.pins.localResetN = true ∧ (x.2.fresh = true → cycle.access.command.accI = false) ∧
      (∀ request ∈ x.2.pending, cycle.access.command = request.1.command) ∧
      (∀ request ∈ x.2.pending, request.1.command.weI = true → cycle.access = request.1) ∧
      (x.1.state = .read → cycle.access.command.bufWidthI = x.2.width) ∧
      (cycle.pins.localRdataValid = true → 0 < x.2.owed))
    ⟨fun ⟨running, quiet, command, data, width, returns⟩ =>
      ⟨running, quiet, command, data, width, returns⟩,
    fun ⟨running, quiet, command, data, width, returns⟩ =>
      ⟨running, quiet, command, data, width, returns⟩⟩

/-- Every acknowledged write, and no other, was taken by the controller, once and as the
port asked for it; and from the second cycle in `READ` on the controller has taken one
burst for each read that the port asked for, the present one included. -/
structure Delivered (x : Recorded aw) : Prop where
  writes : x.2.written = x.2.acknowledged
  reads : x.1.state = .read → x.2.before = .read → x.2.read = x.2.asked

/-! ## Wrapper and journal in step -/

/-- The line that a request still waits for, before the controller has been asked. -/
def unserved (aw : Nat) : Option (Access × Nat) → List (ReadBurst aw)
  | some (access, _) => if access.command.weI then [] else [access.burst aw]
  | none => []

/-- No word of the pending request has come, and no read of it was taken. -/
structure Untouched (journal : Journal aw) : Prop where
  owed : journal.owed = 0
  asked : journal.asked = journal.read ++ unserved aw journal.pending
  pending : ∀ request ∈ journal.pending,
    request.1.command.accI = true ∧ request.2 = request.1.command.acks

/-- How far the wrapper has come with the request of the port. -/
inductive Progress (w : Wrapper) (journal : Journal aw) : Prop where
  /-- The controller has not been ready since the reset. -/
  | waiting (state : w.state = .waitReady) (noWrite : w.localWriteReq = false)
      (noRead : w.localReadReq = false) (unacked : w.ackW = false ∨ journal.fresh = true)
      (untouched : Untouched journal)
  /-- Nothing is presented; a write that was not taken is presented again. -/
  | idle (state : w.state = .idle) (noWrite : w.localWriteReq = false)
      (noRead : w.localReadReq = false) (unacked : w.ackW = false)
      (untouched : Untouched journal)
  /-- A write is presented, or was not taken. -/
  | writing (state : w.state = .write) (noRead : w.localReadReq = false)
      (acks : w.ackW = w.localWriteReq) (untouched : Untouched journal)
      (request : Access) (pending : journal.pending = some (request, request.command.acks))
      (we : request.command.weI = true)
  /-- A read is presented. -/
  | requesting (state : w.state = .read) (noWrite : w.localWriteReq = false)
      (presented : w.localReadReq = true) (count : w.count = 0) (untouched : Untouched journal)
      (request : Access) (pending : journal.pending = some (request, request.command.acks))
      (we : request.command.weI = false) (width : journal.width = request.command.bufWidthI)
      (size : w.localSize = (1 : BitVec 7) <<< request.command.bufWidthI.toNat)
      (before : journal.before = .idle)
  /-- The read was taken, and words of it are still to come. -/
  | reading (state : w.state = .read) (noWrite : w.localWriteReq = false)
      (noRead : w.localReadReq = false) (taken : journal.read = journal.asked)
      (request : Access) (acc : request.command.accI = true) (we : request.command.weI = false)
      (width : journal.width = request.command.bufWidthI)
      (pending : journal.pending =
        some (request, 2 ^ request.command.bufWidthI.toNat - w.count.toNat))
      (below : w.count.toNat < 2 ^ request.command.bufWidthI.toNat)
      (owed : journal.owed + w.count.toNat =
        ((1 : BitVec 7) <<< request.command.bufWidthI.toNat).toNat)
  /-- The last word has come. -/
  | finished (state : w.state = .read) (noWrite : w.localWriteReq = false)
      (noRead : w.localReadReq = false) (unacked : w.ackW = false)
      (taken : journal.read = journal.asked) (pending : journal.pending = none)
      (owed : journal.owed = 0) (count : w.count = (1 : BitVec 32) <<< journal.width.toNat)

/-- The writes agree, and the request has come as far as the wrapper's state says. -/
structure Aligned (x : Recorded aw) : Prop where
  writes : x.2.written = x.2.acknowledged
  progress : Progress x.1 x.2

variable {x : Recorded aw} {w : Wrapper} {journal : Journal aw} {cycle : Cycle}

theorem step_fst (running : cycle.pins.localResetN = true) :
    (x.step cycle).1 = x.1.machine cycle.access.command cycle.pins := by
  simp [Recorded.step, Trace.monitored, Wrapper.edge, running]

theorem step_snd : (x.step cycle).2 = x.2.record x.1 cycle := rfl

/-! ## Requests before their first answer -/

namespace Untouched

/-- A cycle without an access has no request. -/
theorem request_silent (untouched : Untouched x.2) (held : Held x cycle)
    (silent : cycle.access.command.accI = false) :
    x.2.pending = none ∧ x.2.request cycle.access = none := by
  cases pending : x.2.pending with
  | none => simp [Journal.request, pending, silent]
  | some request =>
      have acc : request.1.command.accI = true := (untouched.pending request pending).1
      rw [← held.command request pending, silent] at acc
      cases acc

/-- The request of a cycle with an access is that access. -/
theorem request_access (untouched : Untouched x.2) (held : Held x cycle)
    (acc : cycle.access.command.accI = true) :
    ∃ request : Access, x.2.request cycle.access = some (request, request.command.acks) ∧
      request.command = cycle.access.command ∧
      (request.command.weI = true → request = cycle.access) := by
  cases pending : x.2.pending with
  | none =>
      exact ⟨cycle.access, by simp [Journal.request, pending, acc], rfl, fun _ => rfl⟩
  | some request =>
      have acks : request.2 = request.1.command.acks := (untouched.pending request pending).2
      refine ⟨request.1, ?_, (held.command request pending).symm, fun we => ?_⟩
      · rw [← acks]
        simp [Journal.request, pending]
      · exact (held.data request pending we).symm

/-- Nothing is acknowledged. -/
theorem ackO_eq_false (untouched : Untouched x.2) (held : Held x cycle)
    (unacked : cycle.access.command.weI = true → x.1.ackW = false ∨ x.2.fresh = true) :
    x.1.ackO cycle.access.command cycle.pins = false := by
  have invalid : cycle.pins.localRdataValid = false := by
    rw [← Bool.not_eq_true]
    intro valid
    have owed : 0 < x.2.owed := held.returns valid
    rw [untouched.owed] at owed
    exact absurd owed (Nat.lt_irrefl 0)
  cases acc : cycle.access.command.accI with
  | false => simp [Wrapper.ackO, acc]
  | true =>
      cases we : cycle.access.command.weI with
      | false => simp [Wrapper.ackO, acc, we, invalid]
      | true =>
          rcases unacked we with unacked | fresh
          · simp [Wrapper.ackO, acc, we, unacked]
          · rw [held.quiet fresh] at acc
            cases acc

/-- The line that is asked for now is one more that was not served. -/
theorem asked_request (untouched : Untouched journal) (access : Access) :
    journal.asked ++ (if journal.pending.isNone && access.command.accI && !access.command.weI
      then [access.burst aw] else []) = journal.read ++ unserved aw (journal.request access) := by
  rw [untouched.asked, List.append_assoc]
  congr 1
  cases pending : journal.pending with
  | some request => simp [Journal.request, pending]
  | none =>
      cases acc : access.command.accI with
      | false => simp [Journal.request, pending, acc, unserved]
      | true =>
          cases we : access.command.weI with
          | false => simp [Journal.request, pending, acc, unserved, we]
          | true => simp [Journal.request, pending, acc, unserved, we]

/-- An edge without an acknowledge at which no read is presented. -/
theorem record (untouched : Untouched x.2) (held : Held x cycle)
    (noRead : x.1.localReadReq = false)
    (quiet : x.1.ackO cycle.access.command cycle.pins = false) :
    Untouched (x.2.record x.1 cycle) ∧
      (x.2.record x.1 cycle).pending = x.2.request cycle.access := by
  have pending : (x.2.record x.1 cycle).pending = x.2.request cycle.access := by
    simp [Journal.record, quiet]
  refine ⟨⟨?_, ?_, ?_⟩, pending⟩
  · simp [Journal.record, noRead, untouched.owed]
  · rw [pending]
    simpa [Journal.record, noRead] using untouched.asked_request cycle.access
  · rw [pending]
    intro request here
    cases acc : cycle.access.command.accI with
    | false =>
        rw [(untouched.request_silent held acc).2] at here
        cases here
    | true =>
        obtain ⟨access, presented, same, -⟩ := untouched.request_access held acc
        rw [presented] at here
        cases here
        exact ⟨by rw [same, acc], rfl⟩

end Untouched

/-! ## An edge, stage by stage -/

/-- `local_size_o` never exceeds the line. -/
theorem size_le (width : BitVec 4) : ((1 : BitVec 7) <<< width.toNat).toNat ≤ 2 ^ width.toNat := by
  rw [BitVec.toNat_shiftLeft, Nat.shiftLeft_eq]
  exact (Nat.mod_le _ _).trans (by simp)

namespace Aligned

/-- Neither write list grows at an edge at which no write is presented or acknowledged. -/
theorem writes_record (writes : journal.written = journal.acknowledged)
    (presented : (w.localWriteReq && cycle.pins.localReady) = false)
    (unacked : (w.ackO cycle.access.command cycle.pins && cycle.access.command.weI) = false) :
    (journal.record w cycle).written = (journal.record w cycle).acknowledged := by
  simp [Journal.record, presented, unacked, writes]

/-- `WAIT_READY`. -/
theorem step_waiting (aligned : Aligned x) (held : Held x cycle) (state : x.1.state = .waitReady)
    (noWrite : x.1.localWriteReq = false) (noRead : x.1.localReadReq = false)
    (unacked : x.1.ackW = false ∨ x.2.fresh = true) (untouched : Untouched x.2) :
    Aligned (x.step cycle) := by
  have quiet : x.1.ackO cycle.access.command cycle.pins = false :=
    untouched.ackO_eq_false held fun _ => unacked
  refine ⟨?_, ?_⟩
  · rw [step_snd]
    exact writes_record aligned.writes (by simp [noWrite]) (by simp [quiet])
  · have untouched' : Untouched (x.2.record x.1 cycle) := (untouched.record held noRead quiet).1
    rw [step_fst held.running, step_snd]
    cases ready : cycle.pins.localReady with
    | false =>
        refine .waiting ?_ ?_ ?_ (.inl ?_) untouched' <;>
          simp [Wrapper.machine, state, ready]
    | true =>
        refine .idle ?_ ?_ ?_ ?_ untouched' <;> simp [Wrapper.machine, state, ready]

/-- `IDLE`: the request of the port is taken when the controller is ready. -/
theorem step_idle (aligned : Aligned x) (held : Held x cycle) (state : x.1.state = .idle)
    (noWrite : x.1.localWriteReq = false) (noRead : x.1.localReadReq = false)
    (unacked : x.1.ackW = false) (untouched : Untouched x.2) : Aligned (x.step cycle) := by
  have quiet : x.1.ackO cycle.access.command cycle.pins = false :=
    untouched.ackO_eq_false held fun _ => .inl unacked
  refine ⟨?_, ?_⟩
  · rw [step_snd]
    exact writes_record aligned.writes (by simp [noWrite]) (by simp [quiet])
  · obtain ⟨untouched', pending⟩ := untouched.record held noRead quiet
    rw [step_fst held.running, step_snd]
    cases taken : cycle.access.command.accI && cycle.pins.localReady with
    | false =>
        have stays : x.1.machine cycle.access.command cycle.pins =
            { x.1 with ackW := false, localBurstbegin := false, localWriteReq := false,
                       localReadReq := false } := by
          rcases Bool.and_eq_false_iff.mp taken with silent | busy
          · simp [Wrapper.machine, state, silent]
          · simp [Wrapper.machine, state, busy]
        rw [stays]
        exact .idle state rfl rfl rfl untouched'
    | true =>
        obtain ⟨acc, ready⟩ := Bool.and_eq_true_iff.mp taken
        obtain ⟨request, presented, same, -⟩ := untouched.request_access held acc
        rw [presented] at pending
        cases we : cycle.access.command.weI with
        | true =>
            refine .writing ?_ ?_ ?_ untouched' request pending (by rw [same, we]) <;>
              simp [Wrapper.machine, state, acc, we, ready]
        | false =>
            refine .requesting ?_ ?_ ?_ ?_ untouched' request pending (by rw [same, we]) ?_ ?_
              state <;> simp [Wrapper.machine, Journal.record, state, acc, we, ready, same]

/-- `WRITE`: the acknowledge is given in the cycle in which the controller takes the
write, and otherwise the request stays pending. -/
theorem step_writing (aligned : Aligned x) (held : Held x cycle) (state : x.1.state = .write)
    (noRead : x.1.localReadReq = false) (acks : x.1.ackW = x.1.localWriteReq)
    (untouched : Untouched x.2) {request : Access}
    (pending : x.2.pending = some (request, request.command.acks))
    (we : request.command.weI = true) : Aligned (x.step cycle) := by
  have access : cycle.access = request := held.data _ pending we
  have acc : request.command.accI = true := (untouched.pending _ pending).1
  have presented : x.2.request cycle.access = some (request, request.command.acks) := by
    simp [Journal.request, pending]
  have acked : x.1.ackO cycle.access.command cycle.pins =
      (cycle.pins.localReady && x.1.localWriteReq) := by
    simp [Wrapper.ackO, access, acc, we, acks]
  cases taken : cycle.pins.localReady && x.1.localWriteReq with
  | false =>
      rw [taken] at acked
      refine ⟨?_, ?_⟩
      · rw [step_snd]
        exact writes_record aligned.writes (by rw [Bool.and_comm, taken]) (by simp [acked])
      · obtain ⟨untouched', pending'⟩ := untouched.record held noRead acked
        rw [presented] at pending'
        rw [step_fst held.running, step_snd]
        cases ready : cycle.pins.localReady with
        | false =>
            refine .writing ?_ ?_ ?_ untouched' request pending' we <;>
              simp [Wrapper.machine, state, ready]
        | true => refine .idle ?_ ?_ ?_ ?_ untouched' <;> simp [Wrapper.machine, state, ready]
  | true =>
      rw [taken] at acked
      obtain ⟨ready, write⟩ := Bool.and_eq_true_iff.mp taken
      refine ⟨?_, ?_⟩
      · have weI : cycle.access.command.weI = true := by rw [access, we]
        rw [step_snd]
        simp only [Journal.record, acked, weI, write, ready, presented, aligned.writes]
        simp [Access.beat, Command.localAddressO, access, we]
      · have served : x.2.asked = x.2.read := by
          simpa [unserved, pending, we] using untouched.asked
        have untouched' : Untouched (x.2.record x.1 cycle) := by
          refine ⟨?_, ?_, ?_⟩
          · simp [Journal.record, noRead, untouched.owed]
          · simp [Journal.record, noRead, acked, presented, Journal.answered, Command.acks, we,
              pending, unserved, served]
          · simp [Journal.record, acked, presented, Journal.answered, Command.acks, we]
        rw [step_fst held.running, step_snd]
        refine .idle ?_ ?_ ?_ ?_ untouched' <;> simp [Wrapper.machine, state, ready]

/-- `READ`, first cycle: a controller that is ready takes the burst. -/
theorem step_requesting (aligned : Aligned x) (held : Held x cycle) (state : x.1.state = .read)
    (noWrite : x.1.localWriteReq = false) (presented : x.1.localReadReq = true)
    (count : x.1.count = 0) (untouched : Untouched x.2) {request : Access}
    (pending : x.2.pending = some (request, request.command.acks))
    (we : request.command.weI = false)
    (size : x.1.localSize = (1 : BitVec 7) <<< request.command.bufWidthI.toNat)
    (ready : cycle.pins.localReady = true) : Aligned (x.step cycle) := by
  have command : cycle.access.command = request.command := held.command _ pending
  have acc : request.command.accI = true := (untouched.pending _ pending).1
  have here : x.2.request cycle.access = some (request, request.command.acks) := by
    simp [Journal.request, pending]
  have quiet : x.1.ackO cycle.access.command cycle.pins = false :=
    untouched.ackO_eq_false held fun write => by rw [command, we] at write; cases write
  have asked : x.2.asked = x.2.read ++ [request.burst aw] := by
    simpa [unserved, pending, we] using untouched.asked
  have invalid : cycle.pins.localRdataValid = false := by
    simpa [Wrapper.ackO, command, acc, we] using quiet
  have below : x.1.count.toNat < 2 ^ cycle.access.command.bufWidthI.toNat := by
    rw [count]
    exact Nat.two_pow_pos _
  obtain ⟨state', noWrite', noRead', -, count', -⟩ := Wrapper.machine_of_below cycle.pins state below
  rw [invalid, if_neg Bool.false_ne_true, count] at count'
  refine ⟨?_, ?_⟩
  · rw [step_snd]
    exact writes_record aligned.writes (by simp [noWrite]) (by simp [quiet])
  · rw [step_fst held.running, step_snd]
    refine .reading state' noWrite' noRead' ?_ request acc we ?_ ?_ ?_ ?_
    · simp [Journal.record, presented, ready, asked, pending, Access.burst, command, size]
    · simp [Journal.record, command]
    · simp [Journal.record, quiet, here, Command.acks, we, count']
    · simp [count']
    · simp [Journal.record, presented, ready, untouched.owed, size, count']

/-- `READ`, while words are to come. -/
theorem step_reading (aligned : Aligned x) (held : Held x cycle) (state : x.1.state = .read)
    (noWrite : x.1.localWriteReq = false) (noRead : x.1.localReadReq = false)
    (taken : x.2.read = x.2.asked) {request : Access} (acc : request.command.accI = true)
    (we : request.command.weI = false)
    (pending : x.2.pending = some (request, 2 ^ request.command.bufWidthI.toNat - x.1.count.toNat))
    (below : x.1.count.toNat < 2 ^ request.command.bufWidthI.toNat)
    (owed : x.2.owed + x.1.count.toNat =
      ((1 : BitVec 7) <<< request.command.bufWidthI.toNat).toNat) : Aligned (x.step cycle) := by
  have command : cycle.access.command = request.command := held.command _ pending
  have here : x.2.request cycle.access =
      some (request, 2 ^ request.command.bufWidthI.toNat - x.1.count.toNat) := by
    simp [Journal.request, pending]
  have acked : x.1.ackO cycle.access.command cycle.pins = cycle.pins.localRdataValid := by
    simp [Wrapper.ackO, command, acc, we]
  have reads : (x.2.record x.1 cycle).read = (x.2.record x.1 cycle).asked := by
    simp [Journal.record, noRead, pending, taken]
  have below' : x.1.count.toNat < 2 ^ cycle.access.command.bufWidthI.toNat := by
    rw [command]
    exact below
  obtain ⟨state', noWrite', noRead', unacked', count', -⟩ :=
    Wrapper.machine_of_below cycle.pins state below'
  have width' : (x.2.record x.1 cycle).width = request.command.bufWidthI := by
    simp [Journal.record, command]
  refine ⟨?_, ?_⟩
  · rw [step_snd]
    exact writes_record aligned.writes (by simp [noWrite]) (by simp [command, we])
  · rw [step_fst held.running, step_snd]
    cases valid : cycle.pins.localRdataValid with
    | false =>
        rw [valid, if_neg Bool.false_ne_true] at count'
        refine .reading state' noWrite' noRead' reads request acc we width' ?_ ?_ ?_
        · simp [Journal.record, acked, valid, here, count']
        · rw [count']
          exact below
        · rw [count']
          simpa [Journal.record, valid, noRead] using owed
    | true =>
        rw [valid, if_pos rfl] at count'
        have due : 0 < x.2.owed := held.returns valid
        have narrow : 2 ^ request.command.bufWidthI.toNat ≤ 2 ^ 15 :=
          Nat.pow_le_pow_right (by omega) (by omega)
        have next : (x.1.count + 1).toNat = x.1.count.toNat + 1 := by
          rw [BitVec.toNat_add]
          exact Nat.mod_eq_of_lt (by simp; omega)
        have owed' : (x.2.record x.1 cycle).owed = x.2.owed - 1 := by
          simp [Journal.record, valid, noRead]
        by_cases last : x.1.count.toNat + 1 = 2 ^ request.command.bufWidthI.toNat
        · refine .finished state' noWrite' noRead' unacked' reads ?_ ?_ ?_
          · have one : 2 ^ request.command.bufWidthI.toNat ≤ 1 + x.1.count.toNat := by omega
            simp [Journal.record, acked, valid, here, Journal.answered, one]
          · have size := size_le request.command.bufWidthI
            omega
          · rw [count', Wrapper.eq_shiftLeft_iff, next, last, width']
        · refine .reading state' noWrite' noRead' reads request acc we width' ?_ ?_ ?_
          · have more : ¬2 ^ request.command.bufWidthI.toNat - x.1.count.toNat ≤ 1 := by omega
            have rest : 2 ^ request.command.bufWidthI.toNat - x.1.count.toNat - 1 =
                2 ^ request.command.bufWidthI.toNat - (x.1.count.toNat + 1) := by omega
            rw [count', next]
            simp only [Journal.record, acked, valid, here, Journal.answered, if_true, if_neg more,
              rest]
          · rw [count', next]
            omega
          · rw [owed', count', next]
            omega

/-- `READ`, after the last word. -/
theorem step_finished (aligned : Aligned x) (held : Held x cycle) (state : x.1.state = .read)
    (noWrite : x.1.localWriteReq = false) (noRead : x.1.localReadReq = false)
    (unacked : x.1.ackW = false) (taken : x.2.read = x.2.asked) (pending : x.2.pending = none)
    (owed : x.2.owed = 0) (count : x.1.count = (1 : BitVec 32) <<< x.2.width.toNat) :
    Aligned (x.step cycle) := by
  have untouched : Untouched x.2 := by
    refine ⟨owed, ?_, ?_⟩
    · simp [pending, unserved, taken]
    · simp [pending]
  have quiet : x.1.ackO cycle.access.command cycle.pins = false :=
    untouched.ackO_eq_false held fun _ => .inl unacked
  have ends : x.1.count = 1#32 <<< cycle.access.command.bufWidthI.toNat := by
    rw [held.width state]
    exact count
  refine ⟨?_, ?_⟩
  · rw [step_snd]
    exact writes_record aligned.writes (by simp [noWrite]) (by simp [quiet])
  · rw [step_fst held.running, step_snd]
    have untouched' : Untouched (x.2.record x.1 cycle) := (untouched.record held noRead quiet).1
    cases valid : cycle.pins.localRdataValid with
    | false =>
        refine .idle ?_ ?_ ?_ ?_ untouched' <;> simp [Wrapper.machine, state, ends, valid]
    | true =>
        refine .idle ?_ ?_ ?_ ?_ untouched' <;> simp [Wrapper.machine, state, ends, valid]

/-- An edge at which a read that is presented is taken. -/
theorem step (aligned : Aligned x) (held : Held x cycle)
    (ready : x.1.localReadReq = true → cycle.pins.localReady = true) : Aligned (x.step cycle) := by
  cases aligned.progress with
  | waiting state noWrite noRead unacked untouched =>
      exact aligned.step_waiting held state noWrite noRead unacked untouched
  | idle state noWrite noRead unacked untouched =>
      exact aligned.step_idle held state noWrite noRead unacked untouched
  | writing state noRead acks untouched request pending we =>
      exact aligned.step_writing held state noRead acks untouched pending we
  | requesting state noWrite presented count untouched request pending we width size before =>
      exact aligned.step_requesting held state noWrite presented count untouched pending we size
        (ready presented)
  | reading state noWrite noRead taken request acc we width pending below owed =>
      exact aligned.step_reading held state noWrite noRead taken acc we pending below owed
  | finished state noWrite noRead unacked taken pending owed count =>
      exact aligned.step_finished held state noWrite noRead unacked taken pending owed count

theorem delivered (aligned : Aligned x) : Delivered x where
  writes := aligned.writes
  reads := by
    intro state before
    cases aligned.progress with
    | waiting other => rw [other] at state; cases state
    | idle other => rw [other] at state; cases state
    | writing other => rw [other] at state; cases state
    | requesting _ _ _ _ _ _ _ _ _ _ other => rw [other] at before; cases before
    | reading _ _ _ taken => exact taken
    | finished _ _ _ _ taken => exact taken

/-- A read that meets a busy controller leaves the wrapper in `READ` with nothing asked. -/
theorem not_delivered (aligned : Aligned x) (held : Held x cycle)
    (presented : x.1.localReadReq = true) (busy : cycle.pins.localReady = false) :
    ¬Delivered (x.step cycle) := by
  cases aligned.progress with
  | waiting _ _ noRead => rw [noRead] at presented; cases presented
  | idle _ _ noRead => rw [noRead] at presented; cases presented
  | writing _ noRead => rw [noRead] at presented; cases presented
  | reading _ _ noRead => rw [noRead] at presented; cases presented
  | finished _ _ noRead => rw [noRead] at presented; cases presented
  | requesting state _ _ count untouched request pending we =>
      intro delivered
      have below : x.1.count.toNat < 2 ^ cycle.access.command.bufWidthI.toNat := by
        rw [count]
        exact Nat.two_pow_pos _
      have state' : (x.step cycle).1.state = .read := by
        rw [step_fst held.running]
        exact (Wrapper.machine_of_below cycle.pins state below).1
      have asked : x.2.asked = x.2.read ++ [request.burst aw] := by
        simpa [unserved, pending, we] using untouched.asked
      have equal : x.2.read = x.2.asked := by
        simpa [step_snd, Journal.record, pending, busy] using delivered.reads state' state
      rw [asked] at equal
      simpa using congrArg List.length equal

end Aligned

/-! ## Every run -/

/-- After a reset nothing is asked for and nothing was taken. -/
theorem aligned_of_reset (w : Wrapper) (reset : cycle.pins.localResetN = false) :
    Aligned (w.edge cycle.access.command cycle.pins, Journal.empty aw) := by
  have untouched : Untouched (Journal.empty aw) := by
    refine ⟨rfl, rfl, ?_⟩
    intro request pending
    cases pending
  refine ⟨rfl, .waiting ?_ ?_ ?_ (.inr rfl) untouched⟩ <;> simp [Wrapper.edge, reset]

/-- **From every reset on, whatever the port asks for and whenever the controller is ready
or returns a word, every acknowledged write was taken once and the wrapper waits in `READ`
for a burst that was taken once, if and only if the controller is ready in each cycle in
which a read is presented.** -/
theorem delivered_iff_ready (w : Wrapper) (reset : cycle.pins.localResetN = false)
    {run : List Cycle}
    (held : Trace.Always Recorded.step Held
      (w.edge cycle.access.command cycle.pins, Journal.empty aw) run) :
    Trace.Always Recorded.step (fun x cycle => Delivered (x.step cycle))
        (w.edge cycle.access.command cycle.pins, Journal.empty aw) run ↔
      Trace.Always Recorded.step
        (fun x cycle => x.1.localReadReq = true → cycle.pins.localReady = true)
        (w.edge cycle.access.command cycle.pins, Journal.empty aw) run := by
  refine Trace.Always.iff_of_invariant Aligned ?_ ?_ (aligned_of_reset w reset) held
  · intro x cycle aligned held ready
    exact aligned.step held ready
  · intro x cycle aligned held
    constructor
    · intro delivered presented
      rw [← Bool.not_eq_false]
      exact fun busy => aligned.not_delivered held presented busy delivered
    · intro ready
      exact (aligned.step held ready).delivered

/-- A request for lines of two words, and what the controller does in its cycle. -/
def cycleOf (accI weI valid ready : Bool) : Cycle :=
  ⟨⟨⟨accI, weI, 0x104, 1⟩, 0xabcd, 0xf⟩, ⟨true, 0, valid, ready⟩⟩

/-- The cycle of the reset. -/
def resetCycle : Cycle := ⟨⟨⟨false, false, 0, 1⟩, 0, 0⟩, ⟨false, 0, false, false⟩⟩

/-- The wrapper after that cycle. -/
def resetWrapper : Wrapper :=
  Wrapper.edge ⟨false, false, false, 1, .waitReady, 0, false, 0⟩ resetCycle.access.command
    resetCycle.pins

/-- A write that the controller takes when it is presented for the second time, and a line
that comes with a gap. -/
def retriedWrite : List Cycle :=
  [cycleOf false false false true, cycleOf true true false true, cycleOf true true false false,
    cycleOf true true false true, cycleOf true true false true, cycleOf true true false true,
    cycleOf true false false true, cycleOf true false false true, cycleOf true false true true,
    cycleOf true false false false, cycleOf true false true true, cycleOf false false false true]

theorem delivered_retriedWrite :
    Trace.Always Recorded.step Held (resetWrapper, Journal.empty 25) retriedWrite ∧
      Trace.Always Recorded.step (fun x cycle => Delivered (x.step cycle))
        (resetWrapper, Journal.empty 25) retriedWrite := by
  have held : Trace.Always Recorded.step Held (resetWrapper, Journal.empty 25) retriedWrite := by
    decide
  exact ⟨held,
    (delivered_iff_ready _ (show resetCycle.pins.localResetN = false from rfl) held).mpr
      (by decide)⟩

/-- A read whose one cycle meets a busy controller. -/
def missedRead : List Cycle :=
  [cycleOf false false false true, cycleOf true false false true, cycleOf true false false false]

/-- The controller is ready from then on, but the wrapper only waits. -/
theorem read_not_retried :
    Trace.Always Recorded.step Held (resetWrapper, Journal.empty 25)
        (missedRead ++ List.replicate 20 (cycleOf true false false true)) ∧
      ¬Trace.Always Recorded.step (fun x cycle => Delivered (x.step cycle))
        (resetWrapper, Journal.empty 25) missedRead ∧
      (Trace.after Recorded.step (resetWrapper, Journal.empty 25)
        (missedRead ++ List.replicate 20 (cycleOf true false false true))).1.state = .read ∧
      (Trace.after Recorded.step (resetWrapper, Journal.empty 25)
        (missedRead ++ List.replicate 20 (cycleOf true false false true))).2.read = [] := by
  refine ⟨by decide, ?_, by decide, by decide⟩
  rintro ⟨-, -, delivered, -⟩
  exact absurd (delivered.reads rfl rfl) (by decide)

end OrpsocCores.WbDdrCtrl
