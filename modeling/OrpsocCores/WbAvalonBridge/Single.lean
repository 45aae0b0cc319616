import OrpsocCores.WbAvalonBridge.Model

/-!
# Single transfers through the bridge

Without bursts every Wishbone access should become exactly one Avalon transfer.  A
journal beside the bridge lists the transfers the Avalon slave has accepted and the
accesses the bridge has acknowledged.

The strobe `req` is up in the first cycle of an access and afterwards only while
`waitrequest` is up, whereas a transfer is accepted only while `waitrequest` is down.
So an access is accepted in its first cycle or never.  A read that is not simply hangs;
a write is acknowledged all the same (`stalled_write_lost`).  When every write finds
`waitrequest` down in its first cycle, acknowledgements and transfers match
(`acked_matches_accepted`).
-/

set_option autoImplicit false

namespace OrpsocCores.WbAvalonBridge

open Wishbone

variable {aw dw : Nat}

/-- What an access asks for and a transfer does. -/
structure Transfer (aw dw : Nat) where
  we : Bool
  adr : BitVec aw
  dat : BitVec dw
  sel : BitVec (dw / 8)
  deriving DecidableEq

/-- The transfer an access asks for. -/
def requested (bus : Bus aw dw) : Transfer aw dw := ⟨bus.we, bus.adr, bus.dat, bus.sel⟩

namespace BurstDisable

/-- A transfer is accepted in this cycle. -/
def accepts (s : BurstDisable) (c : Inputs aw dw) : Bool :=
  (s.mAvWriteO c || s.mAvReadO c) && !c.mAvWaitrequestI

/-- The transfer on the Avalon side. -/
def presented (s : BurstDisable) (c : Inputs aw dw) : Transfer aw dw :=
  ⟨s.mAvWriteO c, c.bus.adr, c.bus.dat, c.bus.sel⟩

/-- What the cycles so far have shown. -/
structure Journal (aw dw : Nat) where
  /-- The request of the last cycle, when it was not acknowledged. -/
  held : Option (Bus aw dw)
  /-- The transfers the slave has accepted. -/
  accepted : List (Transfer aw dw)
  /-- The accesses that have been acknowledged. -/
  acked : List (Transfer aw dw)
  /-- How many accepted reads the slave has not answered. -/
  unanswered : Nat

def Journal.empty : Journal aw dw := ⟨none, [], [], 0⟩

def Journal.record (s : BurstDisable) (c : Inputs aw dw) (j : Journal aw dw) : Journal aw dw where
  held := if c.bus.valid && !s.wbAckO c then some c.bus else none
  accepted := if s.accepts c then j.accepted ++ [s.presented c] else j.accepted
  acked := if c.bus.valid && s.wbAckO c then j.acked ++ [requested c.bus] else j.acked
  unanswered :=
    j.unanswered + (s.mAvReadO c && !c.mAvWaitrequestI).toNat - c.mAvReaddatavalidI.toNat

/-! ## The environment -/

/-- The master holds a request until it is acknowledged, and the slave answers only
reads it has accepted. -/
def Environment (x : BurstDisable × Journal aw dw) (c : Inputs aw dw) : Prop :=
  (∀ bus ∈ x.2.held, c.bus = bus) ∧ (c.mAvReaddatavalidI = true → 0 < x.2.unanswered)

instance (x : BurstDisable × Journal aw dw) (c : Inputs aw dw) : Decidable (Environment x c) :=
  inferInstanceAs (Decidable (_ ∧ _))

/-- A write finds `waitrequest` down in its first cycle. -/
def WriteReady (s : BurstDisable) (c : Inputs aw dw) : Prop :=
  c.bus.writes = true → s.cycstbR = false → c.mAvWaitrequestI = false

instance (s : BurstDisable) (c : Inputs aw dw) : Decidable (WriteReady s c) :=
  inferInstanceAs (Decidable (_ → _ → _))

/-- After this cycle the acknowledged accesses are the accepted transfers, except for
one that is accepted and still presented. -/
def Matched (x : BurstDisable × Journal aw dw) (c : Inputs aw dw) : Prop :=
  let j := Journal.record x.1 c x.2
  j.accepted = j.acked ∨ j.accepted = j.acked ++ j.held.toList.map requested

instance (x : BurstDisable × Journal aw dw) (c : Inputs aw dw) : Decidable (Matched x c) :=
  inferInstanceAs (Decidable (_ ∨ _))

/-! ## The states of an access -/

/-- Where the presented access stands. -/
inductive Stands (s : BurstDisable) (j : Journal aw dw) : Prop where
  /-- Nothing is presented. -/
  | quiet (held : j.held = none) (matched : j.accepted = j.acked) (noAck : s.writeAck = false)
      (answered : j.unanswered = 0) : Stands s j
  /-- A read was not accepted in its first cycle, and never will be. -/
  | hanging (bus : Bus aw dw) (held : j.held = some bus) (reads : bus.we = false)
      (matched : j.accepted = j.acked) (noAck : s.writeAck = false)
      (answered : j.unanswered = 0) : Stands s j
  /-- A write has been accepted and is about to be acknowledged. -/
  | written (bus : Bus aw dw) (held : j.held = some bus) (writes : bus.we = true)
      (matched : j.accepted = j.acked ++ [requested bus]) (ack : s.writeAck = true)
      (answered : j.unanswered = 0) : Stands s j
  /-- A read has been accepted and waits for its answer. -/
  | awaited (bus : Bus aw dw) (held : j.held = some bus) (reads : bus.we = false)
      (matched : j.accepted = j.acked ++ [requested bus]) (noAck : s.writeAck = false)
      (answered : j.unanswered = 1) : Stands s j

/-- The delayed strobe marks a held request, and its access stands somewhere. -/
structure Orderly (s : BurstDisable) (j : Journal aw dw) : Prop where
  strobe : s.cycstbR = j.held.isSome
  valid : ∀ bus, j.held = some bus → bus.valid = true
  stands : Stands s j

variable {s : BurstDisable} {j : Journal aw dw} {c : Inputs aw dw}

/-- A held request is not accepted again. -/
theorem not_accepts_of_strobe (strobe : s.cycstbR = true) :
    s.accepts c = false ∧ (s.mAvReadO c && !c.mAvWaitrequestI) = false := by
  cases wait : c.mAvWaitrequestI <;> simp [accepts, mAvWriteO, mAvReadO, req, strobe, wait]

/-- The first cycle of an access. -/
theorem Orderly.stands_first (orderly : Orderly s j) (held : j.held = none)
    (matched : j.accepted = j.acked) (noAck : s.writeAck = false) (answered : j.unanswered = 0)
    (silent : c.mAvReaddatavalidI = false) (ready : WriteReady s c) :
    Stands (s.step c) (Journal.record s c j) := by
  have fresh : s.cycstbR = false := by rw [orderly.strobe, held]; rfl
  have ack : s.wbAckO c = false := by simp [wbAckO, noAck, silent]
  cases valid : c.bus.valid with
  | false =>
      refine .quiet ?_ ?_ ?_ ?_ <;>
        simp [Journal.record, step, accepts, mAvWriteO, mAvReadO, req, valid, silent, matched,
          answered]
  | true =>
      cases we : c.bus.we with
      | true =>
          have writes : c.bus.writes = true := by simpa [Pins.writes, Pins.valid, we] using valid
          have noWait := ready writes fresh
          refine .written c.bus ?_ we ?_ ?_ ?_ <;>
            simp [Journal.record, step, accepts, presented, requested, mAvWriteO, mAvReadO, req,
              valid, silent, matched, answered, ack, we, noWait, fresh]
      | false =>
          cases wait : c.mAvWaitrequestI with
          | true =>
              refine .hanging c.bus ?_ we ?_ ?_ ?_ <;>
                simp [Journal.record, step, accepts, valid, silent, matched, answered, ack, wait]
          | false =>
              refine .awaited c.bus ?_ we ?_ ?_ ?_ <;>
                simp [Journal.record, step, accepts, presented, requested, mAvWriteO, mAvReadO,
                  req, valid, silent, matched, answered, ack, we, wait, fresh]

/-- **One cycle keeps the access in order.** -/
theorem Orderly.step (orderly : Orderly s j) (environment : Environment (s, j) c)
    (ready : WriteReady s c) : Orderly (s.step c) (Journal.record s c j) where
  strobe := by
    simp only [BurstDisable.step, Journal.record]
    cases c.bus.valid <;> cases s.wbAckO c <;> rfl
  valid := by
    intro bus held
    simp only [Journal.record] at held
    split at held
    · rename_i presented
      obtain rfl := Option.some.inj held
      exact (Bool.and_eq_true _ _ ▸ presented : _ ∧ _).1
    · cases held
  stands := by
    obtain ⟨same, answers⟩ := environment
    have silent : j.unanswered = 0 → c.mAvReaddatavalidI = false := by
      intro none
      cases answer : c.mAvReaddatavalidI with
      | false => rfl
      | true => exact absurd (answers answer) (by simp [none])
    have strobe : ∀ bus, j.held = some bus → s.cycstbR = true := by
      intro bus held
      rw [orderly.strobe, held]
      rfl
    cases orderly.stands with
    | quiet held matched noAck answered =>
        exact orderly.stands_first held matched noAck answered (silent answered) ready
    | hanging bus held reads matched noAck answered =>
        obtain rfl : c.bus = bus := same bus held
        obtain ⟨noAccept, noRead⟩ := not_accepts_of_strobe (c := c) (strobe _ held)
        have ack : s.wbAckO c = false := by simp [wbAckO, noAck, silent answered]
        refine .hanging c.bus ?_ reads ?_ ?_ ?_ <;>
          simp [Journal.record, BurstDisable.step, noAccept, noRead, ack, matched, answered,
            orderly.valid _ held, silent answered, reads]
    | written bus held writes matched ackUp answered =>
        obtain rfl : c.bus = bus := same bus held
        obtain ⟨noAccept, noRead⟩ := not_accepts_of_strobe (c := c) (strobe _ held)
        have ack : s.wbAckO c = true := by simp [wbAckO, ackUp]
        refine .quiet ?_ ?_ ?_ ?_ <;>
          simp [Journal.record, BurstDisable.step, noAccept, noRead, ack, matched, answered,
            orderly.valid _ held, silent answered]
    | awaited bus held reads matched noAck answered =>
        obtain rfl : c.bus = bus := same bus held
        obtain ⟨noAccept, noRead⟩ := not_accepts_of_strobe (c := c) (strobe _ held)
        cases answer : c.mAvReaddatavalidI with
        | true =>
            have ack : s.wbAckO c = true := by simp [wbAckO, answer]
            refine .quiet ?_ ?_ ?_ ?_ <;>
              simp [Journal.record, BurstDisable.step, noAccept, noRead, ack, matched, answered,
                orderly.valid _ held, answer]
        | false =>
            have ack : s.wbAckO c = false := by simp [wbAckO, noAck, answer]
            refine .awaited c.bus ?_ reads ?_ ?_ ?_ <;>
              simp [Journal.record, BurstDisable.step, noAccept, noRead, ack, matched, answered,
                orderly.valid _ held, answer, reads]

/-- Wherever the access stands, acknowledgements and transfers match. -/
theorem Stands.matched (stands : Stands s j) :
    j.accepted = j.acked ∨ j.accepted = j.acked ++ j.held.toList.map requested := by
  cases stands with
  | quiet _ matched => exact Or.inl matched
  | hanging _ _ _ matched => exact Or.inl matched
  | written bus held _ matched => exact Or.inr (by rw [matched, held]; rfl)
  | awaited bus held _ matched => exact Or.inr (by rw [matched, held]; rfl)

/-! ## Every run -/

/-- The registers after a cycle without a request. -/
def quiet : BurstDisable := ⟨false, false⟩

/-- **When every write finds `waitrequest` down in its first cycle, every acknowledged
access is exactly one accepted transfer, and nothing else is accepted**, in every
run. -/
theorem acked_matches_accepted (cycles : List (Inputs aw dw))
    (permitted : Trace.Always (Trace.monitored BurstDisable.step Journal.record)
      (fun x c => Environment x c ∧ WriteReady x.1 c) (quiet, Journal.empty) cycles) :
    Trace.Always (Trace.monitored BurstDisable.step Journal.record) Matched
      (quiet, Journal.empty) cycles :=
  Trace.Always.of_invariant (fun x : BurstDisable × Journal aw dw => Orderly x.1 x.2)
    (fun _ _ orderly allowed => orderly.step allowed.1 allowed.2)
    (fun _ _ orderly allowed => (orderly.step allowed.1 allowed.2).stands.matched)
    ⟨rfl, fun _ held => (by cases held), .quiet rfl rfl rfl rfl⟩ permitted

/-- A cycle of a write to `0x40`. -/
def writeCycle (waitrequest : Bool) : Inputs 32 32 where
  wbRstI := false
  bus := ⟨0x40, 0xdeadbeef, 0xf, true, true, true, .classic, .linear⟩
  mAvWaitrequestI := waitrequest
  mAvReaddatavalidI := false

/-- A slave that makes the write wait for one cycle never sees it, and the master is
told that it was done. -/
theorem stalled_write_lost :
    ¬ ∀ cycles : List (Inputs 32 32),
      Trace.Always (Trace.monitored BurstDisable.step Journal.record) Environment
        (quiet, Journal.empty) cycles →
      Trace.Always (Trace.monitored BurstDisable.step Journal.record) Matched
        (quiet, Journal.empty) cycles := by
  intro always
  have matched := always [writeCycle true, writeCycle false, writeCycle false] (by decide)
  revert matched
  decide

/-- The same write without a wait in its first cycle. -/
theorem acked_matches_accepted_readyWrite :
    Trace.Always (Trace.monitored BurstDisable.step Journal.record)
        (fun x c => Environment x c ∧ WriteReady x.1 c) (quiet, Journal.empty)
        [writeCycle false, writeCycle true] ∧
      Trace.Always (Trace.monitored BurstDisable.step Journal.record) Matched
        (quiet, Journal.empty) [writeCycle false, writeCycle true] := by
  have permitted : Trace.Always (Trace.monitored BurstDisable.step Journal.record)
      (fun x c => Environment x c ∧ WriteReady x.1 c) (quiet, Journal.empty)
      [writeCycle false, writeCycle true] := by
    decide
  exact ⟨permitted, acked_matches_accepted _ permitted⟩

end BurstDisable

end OrpsocCores.WbAvalonBridge
