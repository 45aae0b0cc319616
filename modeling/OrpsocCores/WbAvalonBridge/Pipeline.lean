import Mathlib.Data.List.Iterate
import OrpsocCores.WbAvalonBridge.Model

/-!
# Pipelined reads through the bridge

With bursts the bridge reads ahead of the master.  A journal beside it keeps the queue
of reads that the Avalon slave has accepted and not answered; the slave answers them in
order.  In a burst the queue, followed by the read that is being presented, is a chain
of addresses that starts at the beat the master is waiting for and goes on as the burst
prescribes.  One read more than `pending_reads` is in the chain.

Two situations break the chain's account.  `FLUSH_PIPE` drops a read that is being
presented when the slave makes it wait (`FlushReady` excludes it), and a master that
leaves its burst and starts another access before the next answer is given that answer
(`Quiet` excludes it).  Without them the count is exact, every acknowledged read beat
is given the answer to its own address, and a read that is made to wait is held
(`pipeline_in_order`).
-/

set_option autoImplicit false

namespace OrpsocCores.WbAvalonBridge

open Wishbone

variable {aw dw : Nat}

namespace BurstEnable

/-! ## The journal and the environment -/

/-- What the cycles so far have shown. -/
structure Journal (aw dw : Nat) where
  /-- The request of the last cycle, when it was not acknowledged. -/
  held : Option (Bus aw dw)
  /-- The read beat the last cycle acknowledged, when its burst goes on. -/
  burst : Option (Bus aw dw)
  /-- The last cycle found the machine in `BURST` and nothing presented. -/
  left : Bool
  /-- The accepted reads that have not been answered, the oldest first. -/
  queue : List (BitVec aw)
  /-- The address of a read that the last cycle presented and the slave made wait. -/
  stalled : Option (BitVec aw)

def Journal.empty : Journal aw dw := ⟨none, none, false, [], none⟩

/-- A read is accepted in this cycle. -/
def acceptsRead (s : BurstEnable aw) (c : Inputs aw dw) : Bool :=
  s.mAvReadO c && !c.mAvWaitrequestI

/-- The queue after this cycle's answer and this cycle's read. -/
def queueAfter (s : BurstEnable aw) (c : Inputs aw dw) (queue : List (BitVec aw)) :
    List (BitVec aw) :=
  (if c.mAvReaddatavalidI then queue.tail else queue) ++
    if s.acceptsRead c then [s.currAdr c] else []

def Journal.record (s : BurstEnable aw) (c : Inputs aw dw) (j : Journal aw dw) :
    Journal aw dw where
  held := if c.bus.valid && !s.wbAckO c then some c.bus else none
  burst := if c.bus.reads && s.wbAckO c && c.bus.cti == .incBurst then some c.bus else none
  left := s.state == .burst && !c.bus.valid
  queue := s.queueAfter c j.queue
  stalled := if s.mAvReadO c && c.mAvWaitrequestI then some (s.currAdr c) else none

/-- The master holds a request until it is acknowledged and goes on with a burst as
prescribed or leaves it; the slave answers only reads it accepted before. -/
def Environment (x : BurstEnable aw × Journal aw dw) (c : Inputs aw dw) : Prop :=
  c.wbRstI = false ∧ (∀ bus ∈ x.2.held, c.bus = bus) ∧
    (∀ beat ∈ x.2.burst, c.bus.valid = true →
      beat.Continues c.bus ∧ c.bus.adr.toNat % 4 = beat.adr.toNat % 4) ∧
    (c.mAvReaddatavalidI = true → x.2.queue ≠ [])

instance (x : BurstEnable aw × Journal aw dw) (c : Inputs aw dw) : Decidable (Environment x c) :=
  inferInstanceAs (Decidable (_ ∧ _ ∧ _ ∧ _))

/-- A read that `FLUSH_PIPE` still presents is accepted at once. -/
def FlushReady (s : BurstEnable aw) (c : Inputs aw dw) : Prop :=
  s.state = .flushPipe → s.readReq = true → c.mAvWaitrequestI = false

/-- A master that has left its burst presents nothing until `BURST` is over. -/
def Quiet (x : BurstEnable aw × Journal aw dw) (c : Inputs aw dw) : Prop :=
  x.2.left = true → x.1.state = .burst → c.bus.valid = false

instance (s : BurstEnable aw) (c : Inputs aw dw) : Decidable (FlushReady s c) :=
  inferInstanceAs (Decidable (_ → _ → _))

instance (x : BurstEnable aw × Journal aw dw) (c : Inputs aw dw) : Decidable (Quiet x c) :=
  inferInstanceAs (Decidable (_ → _ → _))

/-- Reads are being pipelined or flushed. -/
def busy (s : BurstEnable aw) : Bool := s.state == .burst || s.state == .flushPipe

/-- The account of the pipeline in a cycle. -/
structure InOrder (x : BurstEnable aw × Journal aw dw) (c : Inputs aw dw) : Prop where
  /-- The reads under way and the one being presented are one more than
  `pending_reads`. -/
  outstanding : x.1.busy = true →
    x.2.queue.length + x.1.readReq.toNat = x.1.pendingReads.toNat + 1
  /-- The machine returns to `IDLE` exactly when nothing is outstanding. -/
  drained : x.1.busy = true → ((x.1.step c).state = .idle ↔
    (Journal.record x.1 c x.2).queue = [] ∧ (x.1.step c).readReq = false)
  /-- An acknowledged read is given the answer to its own address. -/
  own : c.bus.reads = true → x.1.wbAckO c = true →
    c.mAvReaddatavalidI = true ∧ x.2.queue.head? = some c.bus.adr
  /-- A read that had to wait is still presented, at the same address. -/
  stable : ∀ adr, x.2.stalled = some adr → x.1.mAvReadO c = true ∧ x.1.currAdr c = adr

/-! ## The chain of a burst -/

/-- The reads under way and the one being presented. -/
def chain (s : BurstEnable aw) (j : Journal aw dw) : List (BitVec aw) :=
  j.queue ++ if s.readReq then [s.adr] else []

/-- The master waits for the read of `first` in a burst of this type. -/
def Expects (j : Journal aw dw) (first : BitVec aw) (bte : Bte) : Prop :=
  (∃ bus, j.held = some bus ∧ bus.reads = true ∧
      (bus.cti = .incBurst ∨ bus.cti = .endBurst) ∧ bus.adr = first ∧ bus.bte = bte) ∨
    ∃ beat, j.burst = some beat ∧ beat.we = false ∧ beat.cti = .incBurst ∧
      nextAdr beat.bte beat.adr = first ∧ beat.bte = bte

/-- The counters of a burst. -/
structure Counted (s : BurstEnable aw) (j : Journal aw dw) : Prop where
  outstanding : j.queue.length + s.readReq.toNat = s.pendingReads.toNat + 1
  more : s.readsLeft ≠ 0#4 → s.readReq = true
  bound : s.pendingReads.toNat + s.readsLeft.toNat ≤ 15

/-- Where the bridge is. -/
inductive Stage (s : BurstEnable aw) (j : Journal aw dw) : Prop where
  | idle (state : s.state = .idle) (queue : j.queue = []) (noReq : s.readReq = false)
      (stalled : ∀ adr, j.stalled = some adr →
        ∃ bus, j.held = some bus ∧ bus.reads = true ∧ bus.adr = adr) : Stage s j
  | read (state : s.state = .read) (noReq : s.readReq = false) (noStall : j.stalled = none)
      (bus : Bus aw dw) (held : j.held = some bus) (reads : bus.reads = true)
      (queue : j.queue = [bus.adr]) : Stage s j
  | write (state : s.state = .write) (noReq : s.readReq = false) (noStall : j.stalled = none)
      (bus : Bus aw dw) (held : j.held = some bus) (writes : bus.writes = true)
      (queue : j.queue = []) : Stage s j
  | burst (state : s.state = .burst) (counted : Counted s j)
      (stalled : ∀ adr, j.stalled = some adr → s.readReq = true ∧ s.adr = adr)
      (follows : j.left = true ∨ ∃ first bte, Expects j first bte ∧
        s.chain j = List.iterate (nextAdr bte) first (s.pendingReads.toNat + 1)) : Stage s j
  | flush (state : s.state = .flushPipe)
      (outstanding : j.queue.length + s.readReq.toNat = s.pendingReads.toNat + 1)
      (stalled : ∀ adr, j.stalled = some adr → s.readReq = true ∧ s.adr = adr) : Stage s j

variable {s : BurstEnable aw} {j : Journal aw dw} {c : Inputs aw dw}

/-- The prescribed beat is at the next address. -/
theorem adr_eq_nextAdr (wide : 6 ≤ aw) {beat bus : Bus aw dw} (burst : beat.cti = .incBurst)
    (continues : beat.Continues bus) (low : bus.adr.toNat % 4 = beat.adr.toNat % 4) :
    bus.adr = nextAdr beat.bte beat.adr := by
  have word := continues.2.2.2
  simp only [Pins.word, Cti.nextWord, burst, if_true] at word
  apply BitVec.eq_of_toNat_eq
  rw [toNat_nextAdr wide, ← word, ← low]
  omega

/-- The beat a master presents in a burst is the one it waits for. -/
theorem Expects.presented (wide : 6 ≤ aw) {first : BitVec aw} {bte : Bte}
    (expects : Expects j first bte) (environment : Environment (s, j) c)
    (valid : c.bus.valid = true) :
    c.bus.reads = true ∧ (c.bus.cti = .incBurst ∨ c.bus.cti = .endBurst) ∧
      c.bus.adr = first ∧ c.bus.bte = bte := by
  obtain ⟨-, same, continues, -⟩ := environment
  rcases expects with ⟨bus, held, reads, cti, adr, type⟩ | ⟨beat, burst, we, cti, adr, type⟩
  · obtain rfl : c.bus = bus := same bus held
    exact ⟨reads, cti, adr, type⟩
  · obtain ⟨goesOn, low⟩ := continues beat burst valid
    have next := adr_eq_nextAdr wide cti goesOn low
    obtain ⟨kind, types, ctis, -⟩ := goesOn
    refine ⟨?_, ?_, next.trans adr, types.trans type⟩
    · simpa [Pins.reads, Pins.valid, kind, we] using valid
    · rwa [cti] at ctis

/-- The queue's length after a cycle. -/
theorem length_queueAfter (answers : c.mAvReaddatavalidI = true → j.queue ≠ []) :
    (s.queueAfter c j.queue).length + c.mAvReaddatavalidI.toNat =
      j.queue.length + (s.acceptsRead c).toNat := by
  cases answer : c.mAvReaddatavalidI with
  | false => cases reads : s.acceptsRead c <;> simp [queueAfter, answer, reads]
  | true =>
      have positive : 0 < j.queue.length := List.length_pos_iff.mpr (answers answer)
      cases reads : s.acceptsRead c <;> simp [queueAfter, answer, reads] <;> omega

/-- Outside `IDLE` only `read_req` presents a read, at `adr`. -/
theorem mAvReadO_of_ne_idle (busy : s.state ≠ .idle) :
    s.mAvReadO c = s.readReq ∧ s.currAdr c = s.adr := by
  simp [mAvReadO, currAdr, busy]

/-! ## The counters in a burst -/

/-- `pending_reads` goes up with every read that is issued and down with every answer. -/
theorem toNat_pendingReads_burst
    (room : s.issues c = true → s.pendingReads.toNat < 15)
    (positive : c.mAvReaddatavalidI = true → s.issues c = false → 0 < s.pendingReads.toNat) :
    (s.burstBranch c).pendingReads.toNat + c.mAvReaddatavalidI.toNat =
      s.pendingReads.toNat + (s.issues c).toNat := by
  simp only [burstBranch]
  cases answer : c.mAvReaddatavalidI <;> cases issue : s.issues c
  · simp
  · have := room issue
    simp only [Bool.false_eq_true, if_false, if_true, Bool.toNat_false, Bool.toNat_true]
    bv_omega
  · have := positive answer issue
    simp only [Bool.false_eq_true, if_false, if_true, Bool.toNat_false, Bool.toNat_true]
    bv_omega
  · simp

/-- `reads_left` goes down with every read that is issued. -/
theorem toNat_readsLeft_burst :
    (s.burstBranch c).readsLeft.toNat + (s.issues c).toNat = s.readsLeft.toNat := by
  simp only [burstBranch]
  cases issue : s.issues c
  · simp
  · have : s.readsLeft ≠ 0#4 := by
      simp only [issues, Bool.and_eq_true, bne_iff_ne] at issue
      exact issue.2
    simp only [if_true, Bool.toNat_true]
    bv_omega

/-- What is presented next, with what is accepted now, is what is presented now and
what is issued. -/
theorem readReq_burst (more : s.readsLeft ≠ 0#4 → s.readReq = true) :
    (s.burstBranch c).readReq.toNat + (s.readReq && !c.mAvWaitrequestI).toNat =
      s.readReq.toNat + (s.issues c).toNat := by
  simp only [burstBranch, allIssued, issues]
  by_cases none : s.readsLeft = 0#4
  · cases s.readReq <;> cases c.mAvWaitrequestI <;> simp [none]
  · have some : (s.readsLeft == 0#4) = false := by simpa using none
    rw [more none]
    cases c.mAvWaitrequestI <;> simp [bne, some]

/-- The last answer of a burst finds one read under way and none to be issued. -/
theorem Counted.last_answer (counted : Counted s j) (positive : 0 < j.queue.length)
    (zero : s.pendingReads = 0#4) : s.readReq = false ∧ s.readsLeft = 0#4 ∧ j.queue.length = 1 := by
  have outstanding := counted.outstanding
  rw [zero, BitVec.toNat_ofNat] at outstanding
  cases req : s.readReq with
  | true =>
      rw [req, Bool.toNat_true] at outstanding
      omega
  | false =>
      rw [req, Bool.toNat_false] at outstanding
      refine ⟨rfl, ?_, outstanding⟩
      by_contra some
      rw [counted.more some] at req
      cases req

/-- The machine leaves `BURST` for `IDLE` on the last answer only. -/
theorem burstBranch_idle_iff (state : s.state = .burst) :
    (s.burstBranch c).state = .idle ↔
      s.allIssued c = true ∧ c.mAvReaddatavalidI = true ∧ s.pendingReads = 0#4 := by
  simp only [burstBranch, state]
  by_cases zero : s.pendingReads = 0#4
  · simp [zero]
  · simp only [zero, and_false, iff_false]
    split <;> simp [zero]

/-- The counters after a cycle in `BURST`. -/
theorem Counted.burst_step (state : s.state = .burst) (counted : Counted s j)
    (answers : c.mAvReaddatavalidI = true → j.queue ≠ []) {j' : Journal aw dw}
    (queue : j'.queue = s.queueAfter c j.queue) (busy : (s.burstBranch c).state ≠ .idle) :
    Counted (s.burstBranch c) j' := by
  obtain ⟨readO, -⟩ := mAvReadO_of_ne_idle (s := s) (c := c) (by simp [state])
  have length := length_queueAfter (s := s) answers
  rw [acceptsRead, readO] at length
  have outstanding := counted.outstanding
  have bound := counted.bound
  have req := readReq_burst (c := c) counted.more
  have left := toNat_readsLeft_burst (s := s) (c := c)
  have room : s.issues c = true → s.pendingReads.toNat < 15 := by
    intro issue
    rw [issue] at left
    simp only [Bool.toNat_true] at left
    omega
  have pending := toNat_pendingReads_burst room (by
    intro answer _
    by_contra empty
    have zero : s.pendingReads = 0#4 := by bv_omega
    obtain ⟨noReq, none, -⟩ :=
      counted.last_answer (List.length_pos_iff.mpr (answers answer)) zero
    exact busy ((burstBranch_idle_iff state).mpr ⟨by simp [allIssued, none, noReq], answer, zero⟩))
  constructor
  · rw [queue]
    omega
  · intro some
    have before : s.readsLeft ≠ 0#4 := by
      intro none
      apply some
      simp [burstBranch, issues, none]
    simp [burstBranch, allIssued, before]
  · omega

/-- Nothing is outstanding when the machine leaves `BURST` for `IDLE`. -/
theorem Counted.burst_drained (state : s.state = .burst) (counted : Counted s j)
    (answers : c.mAvReaddatavalidI = true → j.queue ≠ [])
    (idle : (s.burstBranch c).state = .idle) :
    s.queueAfter c j.queue = [] ∧ (s.burstBranch c).readReq = false ∧ s.readReq = false := by
  obtain ⟨issued, answer, zero⟩ := (burstBranch_idle_iff state).mp idle
  obtain ⟨noReq, none, one⟩ :=
    counted.last_answer (List.length_pos_iff.mpr (answers answer)) zero
  obtain ⟨readO, -⟩ := mAvReadO_of_ne_idle (s := s) (c := c) (by simp [state])
  refine ⟨?_, by simp [burstBranch, issued], noReq⟩
  have length := length_queueAfter (s := s) answers
  rw [acceptsRead, readO, noReq, answer, one] at length
  exact List.length_eq_zero_iff.mp (by simpa using length)

/-! ## The chain in a burst -/

/-- An answer takes the first read off the chain, and an issued read joins it at its
end. -/
theorem chain_burst (state : s.state = .burst) (more : s.readsLeft ≠ 0#4 → s.readReq = true)
    (answers : c.mAvReaddatavalidI = true → j.queue ≠ []) {j' : Journal aw dw}
    (queue : j'.queue = s.queueAfter c j.queue) :
    (s.burstBranch c).chain j' =
      (if c.mAvReaddatavalidI then (s.chain j).tail else s.chain j) ++
        if s.issues c then [nextAdr c.bus.bte s.adr] else [] := by
  obtain ⟨readO, adr⟩ := mAvReadO_of_ne_idle (s := s) (c := c) (by simp [state])
  have tail : ∀ rest, (if c.mAvReaddatavalidI then (j.queue ++ rest).tail else j.queue ++ rest) =
      (if c.mAvReaddatavalidI then j.queue.tail else j.queue) ++ rest := by
    intro rest
    cases answer : c.mAvReaddatavalidI with
    | false => rfl
    | true => exact List.tail_append_of_ne_nil (answers answer)
  rw [chain, chain, queue, queueAfter, tail, acceptsRead, readO, adr]
  simp only [burstBranch, allIssued, issues, adr]
  rcases Bool.eq_false_or_eq_true c.mAvWaitrequestI with wait | wait
  · by_cases none : s.readsLeft = 0#4
    · simp [wait, none]
    · have some : (s.readsLeft == 0#4) = false := by simpa using none
      simp [wait, some, more none]
  · by_cases none : s.readsLeft = 0#4
    · simp [wait, none]
    · have some : (s.readsLeft == 0#4) = false := by simpa using none
      simp [wait, bne, some, more none]

/-- The read being presented is the last one of the chain. -/
theorem adr_eq_iterate {next : BitVec aw → BitVec aw} {first : BitVec aw} {n : Nat}
    (req : s.readReq = true) (chained : s.chain j = List.iterate next first (n + 1)) :
    s.adr = next^[n] first := by
  rw [chain, req, if_pos rfl, List.iterate_add] at chained
  have last := (List.append_inj' chained rfl).2
  simpa using last

/-- The chain stays a chain, and starts at the next beat after an answer. -/
theorem chain_burst_iterate (state : s.state = .burst) (counted : Counted s j)
    (answers : c.mAvReaddatavalidI = true → j.queue ≠ []) {j' : Journal aw dw}
    (queue : j'.queue = s.queueAfter c j.queue)
    (busy : (s.burstBranch c).state ≠ .idle) {first : BitVec aw}
    (chained : s.chain j =
      List.iterate (nextAdr c.bus.bte) first (s.pendingReads.toNat + 1)) :
    (s.burstBranch c).chain j' =
      List.iterate (nextAdr c.bus.bte)
        (if c.mAvReaddatavalidI then nextAdr c.bus.bte first else first)
        ((s.burstBranch c).pendingReads.toNat + 1) := by
  have after := counted.burst_step state answers queue busy
  have length : ((s.burstBranch c).chain j').length = (s.burstBranch c).pendingReads.toNat + 1 := by
    rw [← after.outstanding, chain, List.length_append]
    cases (s.burstBranch c).readReq <;> rfl
  have tail : (s.chain j).tail =
      List.iterate (nextAdr c.bus.bte) (nextAdr c.bus.bte first) s.pendingReads.toNat := by
    rw [chained]
    rfl
  rw [chain_burst state counted.more answers queue, tail, chained] at length ⊢
  cases issue : s.issues c with
  | false =>
      rw [issue] at length
      cases answer : c.mAvReaddatavalidI with
      | false =>
          simp only [answer, Bool.false_eq_true, if_false, List.append_nil,
            List.length_iterate] at length ⊢
          rw [length]
      | true =>
          simp only [answer, Bool.false_eq_true, if_false, if_true, List.append_nil,
            List.length_iterate] at length ⊢
          rw [length]
  | true =>
      have req : s.readReq = true := by
        simp only [issues, Bool.and_eq_true, bne_iff_ne] at issue
        exact counted.more issue.2
      rw [adr_eq_iterate req chained, ← Function.iterate_succ_apply' (nextAdr c.bus.bte)]
      rw [issue] at length
      cases answer : c.mAvReaddatavalidI with
      | false =>
          simp only [answer, Bool.false_eq_true, if_false, if_true, List.length_append,
            List.length_iterate, List.length_singleton] at length ⊢
          rw [← length, List.iterate_add _ _ (s.pendingReads.toNat + 1) 1]
          rfl
      | true =>
          simp only [answer, if_true, List.length_append, List.length_iterate,
            List.length_singleton] at length ⊢
          rw [← length, List.iterate_add _ _ s.pendingReads.toNat 1]
          rfl

/-! ## One cycle -/

theorem step_eq_machine (running : c.wbRstI = false) : s.step c = s.machine c := by
  simp [step, running]

/-- No burst reads further ahead than the counter can count. -/
theorem readsAhead_le (bte : Bte) : 1 + (readsAhead bte).toNat ≤ 15 := by cases bte <;> decide

/-- With an empty queue no answer comes. -/
theorem silent_of_empty (answers : c.mAvReaddatavalidI = true → j.queue ≠ [])
    (empty : j.queue = []) : c.mAvReaddatavalidI = false := by
  cases answer : c.mAvReaddatavalidI with
  | false => rfl
  | true => exact absurd empty (answers answer)

theorem stage_idle (state : s.state = .idle) (empty : j.queue = []) (noReq : s.readReq = false)
    (environment : Environment (s, j) c) : Stage (s.step c) (Journal.record s c j) := by
  have running : c.wbRstI = false := environment.1
  have answers : c.mAvReaddatavalidI = true → j.queue ≠ [] := environment.2.2.2
  have silent := silent_of_empty answers empty
  have ack : s.wbAckO c = false := by simp [wbAckO, silent, state]
  have kinds : c.bus.reads = (c.bus.valid && !c.bus.we) := rfl
  have kinds' : c.bus.writes = (c.bus.valid && c.bus.we) := rfl
  rw [step_eq_machine running, machine, state]
  simp only [idleBranch]
  rcases Bool.eq_false_or_eq_true c.bus.valid with valid | valid
  · rcases Bool.eq_false_or_eq_true c.mAvWaitrequestI with wait | wait
    · -- The slave makes the access wait; the master holds it.
      refine .idle ?_ ?_ ?_ ?_
      · simp [wait, state]
      · simp [Journal.record, queueAfter, acceptsRead, silent, empty, wait]
      · simp [wait]
      · intro adr stalled
        simp only [Journal.record, mAvReadO, currAdr, state, valid, wait, noReq] at stalled
        refine ⟨c.bus, by simp [Journal.record, valid, ack], ?_⟩
        cases we : c.bus.we <;> simp_all
    · rcases Bool.eq_false_or_eq_true c.bus.we with we | we
      · refine .write ?_ ?_ ?_ c.bus ?_ ?_ ?_ <;>
          simp [Journal.record, queueAfter, acceptsRead, mAvReadO, valid, wait, we, ack, silent,
            empty, noReq, kinds']
      · rcases Bool.eq_false_or_eq_true (wbBurstReq c) with burst | burst
        · have inc : c.bus.cti = .incBurst := by
            simp only [wbBurstReq, Bool.and_eq_true, beq_iff_eq] at burst
            exact burst.2
          simp only [valid, wait, we, burst, Bool.not_false, Bool.and_true, if_true,
            Bool.false_eq_true, if_false]
          refine .burst rfl ⟨?_, fun _ => rfl, ?_⟩ ?_ (Or.inr ⟨c.bus.adr, c.bus.bte, ?_, ?_⟩)
          · simp [Journal.record, queueAfter, acceptsRead, mAvReadO, valid, wait, we, silent, empty,
              state]
          · exact readsAhead_le c.bus.bte
          · intro adr stalled
            simp [Journal.record, wait] at stalled
          · refine Or.inl ⟨c.bus, ?_, ?_, Or.inl inc, rfl, rfl⟩ <;>
              simp [Journal.record, valid, ack, kinds, we]
          · simp [chain, Journal.record, queueAfter, acceptsRead, mAvReadO, currAdr, valid, wait, we,
              silent, empty, state]
        · refine .read ?_ ?_ ?_ c.bus ?_ ?_ ?_ <;>
            simp [Journal.record, queueAfter, acceptsRead, mAvReadO, currAdr, valid, wait, we, ack,
              silent, empty, noReq, kinds, burst, state]
  · refine .idle ?_ ?_ ?_ ?_
    · simp [valid, state]
    · simp [Journal.record, queueAfter, acceptsRead, mAvReadO, silent, empty, valid, noReq]
    · simp [valid]
    · intro adr stalled
      simp [Journal.record, mAvReadO, valid, noReq] at stalled

theorem stage_read (state : s.state = .read) (noReq : s.readReq = false) {bus : Bus aw dw}
    (held : j.held = some bus) (reads : bus.reads = true) (queue : j.queue = [bus.adr])
    (environment : Environment (s, j) c) : Stage (s.step c) (Journal.record s c j) := by
  obtain ⟨running, same, -, -⟩ := environment
  obtain rfl : c.bus = bus := same bus held
  obtain ⟨readO, -⟩ := mAvReadO_of_ne_idle (s := s) (c := c) (by simp [state])
  have valid : c.bus.valid = true := by
    simp only [Pins.reads, Bool.and_eq_true] at reads
    simp [Pins.valid, reads]
  rw [step_eq_machine running, machine, state]
  rcases Bool.eq_false_or_eq_true c.mAvReaddatavalidI with answer | answer
  · refine .idle ?_ ?_ ?_ ?_ <;>
      simp [Journal.record, queueAfter, acceptsRead, readO, noReq, answer, queue]
  · refine .read ?_ ?_ ?_ c.bus ?_ reads ?_ <;>
      simp [Journal.record, queueAfter, acceptsRead, readO, noReq, answer, queue, valid, wbAckO,
        state]

theorem stage_write (state : s.state = .write) (noReq : s.readReq = false)
    (empty : j.queue = []) (environment : Environment (s, j) c) :
    Stage (s.step c) (Journal.record s c j) := by
  have running : c.wbRstI = false := environment.1
  have answers : c.mAvReaddatavalidI = true → j.queue ≠ [] := environment.2.2.2
  obtain ⟨readO, -⟩ := mAvReadO_of_ne_idle (s := s) (c := c) (by simp [state])
  have silent := silent_of_empty answers empty
  rw [step_eq_machine running, machine, state]
  refine .idle ?_ ?_ ?_ ?_ <;>
    simp [Journal.record, queueAfter, acceptsRead, readO, noReq, silent, empty]

theorem stage_flush (state : s.state = .flushPipe)
    (outstanding : j.queue.length + s.readReq.toNat = s.pendingReads.toNat + 1)
    (environment : Environment (s, j) c) (ready : FlushReady s c) :
    Stage (s.step c) (Journal.record s c j) := by
  have running : c.wbRstI = false := environment.1
  have answers : c.mAvReaddatavalidI = true → j.queue ≠ [] := environment.2.2.2
  obtain ⟨readO, -⟩ := mAvReadO_of_ne_idle (s := s) (c := c) (by simp [state])
  have length := length_queueAfter (s := s) answers
  have accepted : s.acceptsRead c = s.readReq := by
    rw [acceptsRead, readO]
    cases req : s.readReq with
    | false => rfl
    | true => simp [ready state req]
  have noStall : (s.mAvReadO c && c.mAvWaitrequestI) = false := by
    rw [readO]
    cases req : s.readReq with
    | false => rfl
    | true => simp [ready state req]
  rw [accepted] at length
  rw [step_eq_machine running, machine, state]
  simp only [flushBranch]
  rcases Bool.eq_false_or_eq_true c.mAvReaddatavalidI with answer | answer
  · have positive : 0 < j.queue.length := List.length_pos_iff.mpr (answers answer)
    rw [answer, Bool.toNat_true] at length
    by_cases zero : s.pendingReads = 0#4
    · rw [zero, BitVec.toNat_ofNat] at outstanding
      refine .idle ?_ ?_ ?_ ?_
      · simp [answer, zero]
      · exact List.length_eq_zero_iff.mp (show (s.queueAfter c j.queue).length = 0 by omega)
      · simp [answer]
      · intro adr stalled
        simp [Journal.record, noStall] at stalled
    · have some : (s.pendingReads == 0#4) = false := by simpa using zero
      refine .flush ?_ ?_ ?_
      · simp [answer, some, state]
      · simp only [answer, if_true, Bool.toNat_false]
        show (s.queueAfter c j.queue).length + 0 = _
        bv_omega
      · intro adr stalled
        simp [Journal.record, noStall] at stalled
  · rw [answer, Bool.toNat_false] at length
    refine .flush ?_ ?_ ?_
    · simp [answer, state]
    · simp only [answer, Bool.false_eq_true, if_false, Bool.toNat_false]
      show (s.queueAfter c j.queue).length + 0 = _
      omega
    · intro adr stalled
      simp [Journal.record, noStall] at stalled

/-- Where `BURST` goes. -/
theorem burstBranch_state (state : s.state = .burst) :
    (s.burstBranch c).state = .idle ∨ (s.burstBranch c).state = .flushPipe ∨
      (s.burstBranch c).state = .burst ∧
        (c.mAvReaddatavalidI = true → s.pendingReads ≠ 0#4 → wbBurstReq c = true) := by
  simp only [burstBranch, state]
  split
  · exact Or.inr (Or.inl rfl)
  · rename_i goesOn
    split
    · exact Or.inl rfl
    · refine Or.inr (Or.inr ⟨rfl, fun answer some => ?_⟩)
      have some' : (s.pendingReads != 0#4) = true := by simpa using some
      simpa [answer, some'] using goesOn

theorem stage_burst (wide : 6 ≤ aw) (state : s.state = .burst) (counted : Counted s j)
    (follows : j.left = true ∨ ∃ first bte, Expects j first bte ∧
      s.chain j = List.iterate (nextAdr bte) first (s.pendingReads.toNat + 1))
    (environment : Environment (s, j) c) (quiet : Quiet (s, j) c) :
    Stage (s.step c) (Journal.record s c j) := by
  have running : c.wbRstI = false := environment.1
  have answers : c.mAvReaddatavalidI = true → j.queue ≠ [] := environment.2.2.2
  obtain ⟨readO, adr⟩ := mAvReadO_of_ne_idle (s := s) (c := c) (by simp [state])
  have queue : (Journal.record s c j).queue = s.queueAfter c j.queue := rfl
  have machine : s.step c = s.burstBranch c := by rw [step_eq_machine running, machine, state]
  have stalled : ∀ a, (Journal.record s c j).stalled = some a →
      (s.burstBranch c).readReq = true ∧ (s.burstBranch c).adr = a := by
    intro a waits
    simp only [Journal.record, readO, adr] at waits
    split at waits
    · rename_i held
      rw [Bool.and_eq_true] at held
      simpa [burstBranch, allIssued, issues, held.1, held.2] using waits
    · cases waits
  rw [machine]
  rcases burstBranch_state (c := c) state with idle | flush | ⟨burst, goesOn⟩
  · obtain ⟨empty, noReq, before⟩ := counted.burst_drained state answers idle
    refine .idle idle empty noReq fun a waits => ?_
    simp [Journal.record, readO, before] at waits
  · exact .flush flush (counted.burst_step state answers queue (by simp [flush])).outstanding stalled
  · have busy : (s.burstBranch c).state ≠ .idle := by simp [burst]
    refine .burst burst (counted.burst_step state answers queue busy) stalled ?_
    rcases Bool.eq_false_or_eq_true c.bus.valid with valid | valid
    · -- The master is in its burst: the chain starts at the beat it presents.
      have present : j.left = false := by
        cases gone : j.left with
        | false => rfl
        | true =>
            rw [quiet gone state] at valid
            cases valid
      obtain ⟨first, bte, expects, chained⟩ : ∃ first bte, Expects j first bte ∧
          s.chain j = List.iterate (nextAdr bte) first (s.pendingReads.toNat + 1) := by
        simpa [present] using follows
      obtain ⟨reads, cti, rfl, rfl⟩ := expects.presented wide environment valid
      refine Or.inr ⟨_, c.bus.bte, ?_, chain_burst_iterate state counted answers queue busy chained⟩
      rcases Bool.eq_false_or_eq_true c.mAvReaddatavalidI with answer | answer
      · have some : s.pendingReads ≠ 0#4 := by
          intro zero
          obtain ⟨noReq, none, -⟩ :=
            counted.last_answer (List.length_pos_iff.mpr (answers answer)) zero
          exact busy ((burstBranch_idle_iff state).mpr
            ⟨by simp [allIssued, none, noReq], answer, zero⟩)
        have inc : c.bus.cti = .incBurst := by
          have burstReq := goesOn answer some
          simp only [wbBurstReq, Bool.and_eq_true, beq_iff_eq] at burstReq
          exact burstReq.2
        have we : c.bus.we = false := by
          simp only [Pins.reads, Bool.and_eq_true, Bool.not_eq_true'] at reads
          exact reads.2
        refine Or.inr ⟨c.bus, ?_, we, inc, ?_, rfl⟩
        · simp [Journal.record, reads, wbAckO, answer, state, inc]
        · simp [answer]
      · refine Or.inl ⟨c.bus, ?_, reads, cti, ?_, rfl⟩
        · simp [Journal.record, valid, wbAckO, answer, state]
        · simp [answer]
    · exact Or.inl (by simp [Journal.record, state, valid])

/-- **One cycle moves the bridge from stage to stage.** -/
theorem Stage.step (wide : 6 ≤ aw) (stage : Stage s j) (environment : Environment (s, j) c)
    (ready : FlushReady s c) (quiet : Quiet (s, j) c) :
    Stage (s.step c) (Journal.record s c j) := by
  cases stage with
  | idle state queue noReq _ => exact stage_idle state queue noReq environment
  | read state noReq _ bus held reads queue =>
      exact stage_read state noReq held reads queue environment
  | write state noReq _ bus held writes queue => exact stage_write state noReq queue environment
  | burst state counted _ follows => exact stage_burst wide state counted follows environment quiet
  | flush state outstanding _ => exact stage_flush state outstanding environment ready

/-! ## What the stages give -/

theorem Stage.outstanding (stage : Stage s j) (busy : s.busy = true) :
    j.queue.length + s.readReq.toNat = s.pendingReads.toNat + 1 := by
  cases stage with
  | idle state => simp [BurstEnable.busy, state] at busy
  | read state => simp [BurstEnable.busy, state] at busy
  | write state => simp [BurstEnable.busy, state] at busy
  | burst _ counted => exact counted.outstanding
  | flush _ outstanding => exact outstanding

/-- In `IDLE` nothing is outstanding, and while the bridge is busy something is. -/
theorem Stage.idle_iff (stage : Stage s j) (reading : s.state ≠ .read) (writing : s.state ≠ .write) :
    s.state = .idle ↔ j.queue = [] ∧ s.readReq = false := by
  constructor
  · intro idle
    cases stage with
    | idle _ queue noReq => exact ⟨queue, noReq⟩
    | read state => exact absurd state reading
    | write state => exact absurd state writing
    | burst state =>
        rw [state] at idle
        cases idle
    | flush state =>
        rw [state] at idle
        cases idle
  · rintro ⟨empty, noReq⟩
    by_contra notIdle
    have busy : s.busy = true := by
      cases state : s.state <;> simp_all [BurstEnable.busy]
    have := stage.outstanding busy
    simp [empty, noReq] at this

/-- The bridge leaves a burst for another cycle of it, for the flush or for `IDLE`. -/
theorem step_state_of_busy (running : c.wbRstI = false) (busy : s.busy = true) :
    (s.step c).state ≠ .read ∧ (s.step c).state ≠ .write := by
  rw [step_eq_machine running]
  simp only [BurstEnable.busy, Bool.or_eq_true, beq_iff_eq] at busy
  rcases busy with state | state
  · simp only [machine, state]
    rcases burstBranch_state (c := c) state with next | next | ⟨next, -⟩ <;> simp [next]
  · simp only [machine, state, flushBranch]
    split
    · by_cases zero : s.pendingReads = 0#4 <;> simp [zero]
    · simp

/-- An acknowledged read beat is answered from the front of the queue. -/
theorem Stage.own (wide : 6 ≤ aw) (stage : Stage s j) (environment : Environment (s, j) c)
    (quiet : Quiet (s, j) c) (reads : c.bus.reads = true) (ack : s.wbAckO c = true) :
    c.mAvReaddatavalidI = true ∧ j.queue.head? = some c.bus.adr := by
  have answers : c.mAvReaddatavalidI = true → j.queue ≠ [] := environment.2.2.2
  cases stage with
  | idle state queue =>
      simp [wbAckO, state, silent_of_empty answers queue] at ack
  | read state _ _ bus held _ queue =>
      obtain rfl : c.bus = bus := environment.2.1 bus held
      have answer : c.mAvReaddatavalidI = true := by simpa [wbAckO, state] using ack
      exact ⟨answer, by rw [queue]; rfl⟩
  | write state _ _ bus held writes _ =>
      obtain rfl : c.bus = bus := environment.2.1 bus held
      simp only [Pins.reads, Pins.writes, Bool.and_eq_true] at reads writes
      simp [writes.2] at reads
  | burst state _ _ follows =>
      have answer : c.mAvReaddatavalidI = true := by simpa [wbAckO, state] using ack
      have valid : c.bus.valid = true := by
        simp only [Pins.reads, Bool.and_eq_true] at reads
        simp [Pins.valid, reads.1]
      have present : j.left = false := by
        cases gone : j.left with
        | false => rfl
        | true =>
            rw [quiet gone state] at valid
            cases valid
      obtain ⟨first, bte, expects, chained⟩ : ∃ first bte, Expects j first bte ∧
          s.chain j = List.iterate (nextAdr bte) first (s.pendingReads.toNat + 1) := by
        simpa [present] using follows
      obtain ⟨-, -, rfl, -⟩ := expects.presented wide environment valid
      refine ⟨answer, ?_⟩
      have head := congrArg List.head? chained
      rwa [chain, List.head?_append_of_ne_nil _ (answers answer)] at head
  | flush state => simp [wbAckO, state] at ack

/-- A read that had to wait is still presented. -/
theorem Stage.stable (stage : Stage s j) (environment : Environment (s, j) c) {adr : BitVec aw}
    (stalled : j.stalled = some adr) : s.mAvReadO c = true ∧ s.currAdr c = adr := by
  cases stage with
  | idle state _ _ waits =>
      obtain ⟨bus, held, reads, rfl⟩ := waits adr stalled
      obtain rfl : c.bus = bus := environment.2.1 bus held
      simp only [Pins.reads, Bool.and_eq_true] at reads
      simp [mAvReadO, currAdr, state, Pins.valid, reads.1, reads.2]
  | read _ _ noStall =>
      rw [noStall] at stalled
      cases stalled
  | write _ _ noStall =>
      rw [noStall] at stalled
      cases stalled
  | burst state _ waits =>
      obtain ⟨readO, curr⟩ := mAvReadO_of_ne_idle (s := s) (c := c) (by simp [state])
      rw [readO, curr]
      exact waits adr stalled
  | flush state _ waits =>
      obtain ⟨readO, curr⟩ := mAvReadO_of_ne_idle (s := s) (c := c) (by simp [state])
      rw [readO, curr]
      exact waits adr stalled

theorem Stage.inOrder (wide : 6 ≤ aw) (stage : Stage s j) (environment : Environment (s, j) c)
    (ready : FlushReady s c) (quiet : Quiet (s, j) c) : InOrder (s, j) c := by
  refine ⟨stage.outstanding, fun busy => ?_, stage.own wide environment quiet, fun adr stalled => ?_⟩
  · obtain ⟨reading, writing⟩ := step_state_of_busy (c := c) environment.1 busy
    exact (stage.step wide environment ready quiet).idle_iff reading writing
  · exact stage.stable environment stalled

/-! ## Every run -/

/-- **When `FLUSH_PIPE` finds its last read accepted at once and a master that leaves a
burst waits for the end of `BURST`, the count of reads under way is exact, every
acknowledged read beat is given the answer to its own address, and no read is
withdrawn**, in every run. -/
theorem pipeline_in_order (wide : 6 ≤ aw) (state : s.state = .idle) (noReq : s.readReq = false)
    (cycles : List (Inputs aw dw))
    (permitted : Trace.Always (Trace.monitored BurstEnable.step Journal.record)
      (fun x c => Environment x c ∧ FlushReady x.1 c ∧ Quiet x c) (s, Journal.empty) cycles) :
    Trace.Always (Trace.monitored BurstEnable.step Journal.record) InOrder (s, Journal.empty)
      cycles :=
  Trace.Always.of_invariant (fun x : BurstEnable aw × Journal aw dw => Stage x.1 x.2)
    (fun _ _ stage allowed => stage.step wide allowed.1 allowed.2.1 allowed.2.2)
    (fun _ _ stage allowed => stage.inOrder wide allowed.1 allowed.2.1 allowed.2.2)
    (.idle state rfl noReq fun adr stalled => by cases stalled) permitted

/-! ## A burst that ends early -/

/-- The bridge after reset. -/
def afterReset : BurstEnable 32 := ⟨.idle, 0, 0, 0, false⟩

/-- A cycle with these signals. -/
def cycle (bus : Bus 32 32) (waitrequest readdatavalid : Bool) : Inputs 32 32 :=
  ⟨false, bus, waitrequest, readdatavalid⟩

def readBeat (adr : BitVec 32) (cti : Cti) : Bus 32 32 :=
  ⟨adr, 0, 0xf, false, true, true, cti, .linear⟩

/-- A burst of two beats.  Its last beat is acknowledged while a third read is being
presented, and the slave makes that read wait, or not, in `FLUSH_PIPE`. -/
def earlyEnd (waitrequest : Bool) : List (Inputs 32 32) :=
  [cycle (readBeat 0x100 .incBurst) false false, cycle (readBeat 0x100 .incBurst) false true,
    cycle (readBeat 0x104 .endBurst) true true, cycle Pins.idle waitrequest false,
    cycle Pins.idle false (!waitrequest)]

theorem flush_withdraws_read :
    ¬ ∀ cycles : List (Inputs 32 32),
      Trace.Always (Trace.monitored BurstEnable.step Journal.record) Environment
        (afterReset, Journal.empty) cycles →
      Trace.Always (Trace.monitored BurstEnable.step Journal.record) InOrder
        (afterReset, Journal.empty) cycles := by
  intro always
  -- In the fifth cycle the read that had to wait is gone.
  obtain ⟨-, -, -, -, inOrder, -⟩ := always (earlyEnd true) (by decide)
  have presented := (inOrder.stable 0x108 rfl).1
  cases presented

theorem pipeline_in_order_earlyEnd :
    Trace.Always (Trace.monitored BurstEnable.step Journal.record)
        (fun x c => Environment x c ∧ FlushReady x.1 c ∧ Quiet x c) (afterReset, Journal.empty)
        (earlyEnd false) ∧
      Trace.Always (Trace.monitored BurstEnable.step Journal.record) InOrder
        (afterReset, Journal.empty) (earlyEnd false) := by
  have permitted : Trace.Always (Trace.monitored BurstEnable.step Journal.record)
      (fun x c => Environment x c ∧ FlushReady x.1 c ∧ Quiet x c) (afterReset, Journal.empty)
      (earlyEnd false) := by
    decide
  exact ⟨permitted, pipeline_in_order (by decide) rfl rfl (earlyEnd false) permitted⟩

end BurstEnable

end OrpsocCores.WbAvalonBridge
