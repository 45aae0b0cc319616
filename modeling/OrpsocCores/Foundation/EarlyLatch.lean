import Mathlib.Data.List.Basic
import Mathlib.Tactic.Common

/-!
# A latch before its handshake

A sender shows a payload with `valid` and keeps both until an edge on which the receiver
shows `ready`: then the payload is transferred.  A receiver with a latch may take the
payload before it shows `ready`.  It then has to remember that the payload the sender still
shows is the one it has, until the edge of the transfer.

`Latch` is such a receiver: `en` says that the latch holds a payload, and `fast` that the
payload was taken before its transfer.  Something behind the latch consumes the payload
(`take`), which may happen before the transfer too.  `Channel` is what the sender saw, and
`Channel.Kept` is the invariant that connects it with what was consumed: what was
transferred, with the payload that is taken and not yet transferred, is what was consumed,
with the payload in the latch.  Nothing is lost, nothing comes twice, and the order is kept.
-/

set_option autoImplicit false

namespace OrpsocCores.EarlyLatch

universe u

variable {α : Type u}

structure Latch (α : Type u) where
  ready : Bool
  fast : Bool
  en : Bool
  latched : α
  deriving DecidableEq

namespace Latch

variable (l : Latch α) (valid : Bool) (payload : α)

/-- The payload is taken before its transfer. -/
def accept : Latch α := ⟨true, true, true, payload⟩

/-- An edge without transfers, on which the latch may take a payload. -/
def early (permitted : Bool) : Latch α :=
  if valid && !(l.en || l.fast) && permitted then accept payload else l

/-- An edge with transfers. -/
def transfer (permitted : Bool) : Latch α :=
  let late := if valid && l.ready && !l.fast then { l with latched := payload, en := true } else l
  if valid && !(late.en || l.fast) && permitted then accept payload
  else { late with ready := false, fast := false }

/-- The payload of the latch is consumed. -/
def take : Latch α := { l with en := false }

/-- The payload in the latch. -/
def held : List α := if l.en then [l.latched] else []

end Latch

/-- What the sender to a latch saw. -/
structure Channel (α : Type u) where
  /-- The payload that is shown and not transferred. -/
  owed : Option α
  transferred : List α

namespace Channel

def empty : Channel α := ⟨none, []⟩

variable (c : Channel α) (consumed : List α) (l : Latch α) (valid : Bool) (payload : α)

/-- The sender keeps what it shows. -/
def Follows : Prop := ∀ shown, c.owed = some shown → valid = true ∧ payload = shown

instance [DecidableEq α] : Decidable (c.Follows valid payload) :=
  decidable_of_iff (∀ shown ∈ c.owed, valid = true ∧ payload = shown) Iff.rfl

/-- The sender shows a payload on an edge without transfers. -/
def shows : Channel α := { c with owed := if valid then some payload else none }

/-- The sender shows a payload on an edge with transfers. -/
def transfers : Channel α :=
  if valid && l.ready then { c with owed := none, transferred := c.transferred ++ [payload] }
  else c.shows valid payload

/-- The payloads the sender has shown, in order. -/
def shown : List α := c.transferred ++ c.owed.toList

/-- What the latch took before its transfer. -/
def early : List α := if l.ready then c.owed.toList else []

/-- **What was taken is what was consumed and what the latch holds.** -/
structure Kept : Prop where
  fast : l.fast = l.ready
  owed : l.ready = true → c.owed.isSome = true
  taken : c.transferred ++ c.early l = consumed ++ l.held

end Channel

namespace Channel.Kept

variable {c : Channel α} {consumed : List α} {l : Latch α} {valid permitted : Bool} {payload : α}

theorem empty (payload : α) : Kept Channel.empty [] ⟨false, false, false, payload⟩ :=
  ⟨rfl, fun ready => absurd ready Bool.false_ne_true, rfl⟩

/-- A latch that takes a payload holds it and shows it ready. -/
theorem accept (kept : Kept c consumed l) (free : l.en = false) (idle : l.ready = false) :
    Kept (c.shows true payload) consumed (Latch.accept payload) where
  fast := rfl
  owed := fun _ => rfl
  taken := by
    have taken := kept.taken
    simp only [early, idle, Latch.held, free, Bool.false_eq_true, ↓reduceIte,
      List.append_nil] at taken
    simp only [shows, early, Latch.accept, Latch.held, ↓reduceIte, Option.toList_some, taken]

/-- A payload that is shown and not taken changes nothing. -/
theorem idle (kept : Kept c consumed l) (follows : c.Follows valid payload) :
    Kept (c.shows valid payload) consumed l where
  fast := kept.fast
  owed := by
    intro ready
    obtain ⟨shown, same⟩ := Option.isSome_iff_exists.mp (kept.owed ready)
    simp only [shows, (follows shown same).1, ↓reduceIte, Option.isSome_some]
  taken := by
    cases ready : l.ready with
    | false =>
        have taken := kept.taken
        simpa only [early, ready, shows, Bool.false_eq_true, ↓reduceIte] using taken
    | true =>
        obtain ⟨shown, same⟩ := Option.isSome_iff_exists.mp (kept.owed ready)
        obtain ⟨rfl, rfl⟩ := follows shown same
        have taken := kept.taken
        simpa only [early, ready, shows, same, ↓reduceIte] using taken

theorem early (kept : Kept c consumed l) (follows : c.Follows valid payload) :
    Kept (c.shows valid payload) consumed (l.early valid payload permitted) := by
  rw [Latch.early]
  split
  · next taken =>
      simp only [Bool.and_eq_true, Bool.not_eq_true', Bool.or_eq_false_iff] at taken
      obtain ⟨⟨rfl, free, slow⟩, _⟩ := taken
      exact kept.accept free (kept.fast ▸ slow)
  · exact kept.idle follows

theorem transfer (kept : Kept c consumed l) (follows : c.Follows valid payload) :
    Kept (c.transfers l valid payload) consumed (l.transfer valid payload permitted) := by
  cases ready : l.ready with
  | true =>
      -- The payload on the line is the one the latch took before.
      obtain ⟨shown, same⟩ := Option.isSome_iff_exists.mp (kept.owed ready)
      obtain ⟨rfl, rfl⟩ := follows shown same
      have fast : l.fast = true := kept.fast.trans ready
      have taken := kept.taken
      have moved : c.transfers l true payload =
          { c with owed := none, transferred := c.transferred ++ [payload] } := by
        simp only [transfers, ready, Bool.and_self, ↓reduceIte]
      have cleared : l.transfer true payload permitted =
          { l with ready := false, fast := false } := by
        simp [Latch.transfer, ready, fast]
      rw [moved, cleared]
      refine ⟨rfl, fun ready => absurd ready Bool.false_ne_true, ?_⟩
      simpa only [Channel.early, ready, same, Latch.held, ↓reduceIte, Option.toList_some,
        Bool.false_eq_true, List.append_nil] using taken
  | false =>
      have slow : l.fast = false := kept.fast.trans ready
      have moved : c.transfers l valid payload = c.shows valid payload := by
        simp only [transfers, ready, Bool.and_false, Bool.false_eq_true, ↓reduceIte]
      have idle : { l with ready := false, fast := false } = l := by
        obtain ⟨_, _, _, _⟩ := l
        simp only at ready slow
        rw [ready, slow]
      have kind : l.transfer valid payload permitted = l.early valid payload permitted := by
        simp only [Latch.transfer, Latch.early, ready, slow, Bool.and_false, Bool.false_and,
          Bool.false_eq_true, ↓reduceIte, idle]
      rw [moved, kind]
      exact kept.early follows

/-- What is consumed is what the latch held. -/
theorem take (kept : Kept c consumed l) (holds : l.en = true) :
    Kept c (consumed ++ [l.latched]) l.take where
  fast := kept.fast
  owed := kept.owed
  taken := by
    have taken := kept.taken
    simp only [Latch.held, holds, ↓reduceIte] at taken
    have emptied : l.take.held = [] := rfl
    have same : c.early l.take = c.early l := rfl
    rw [emptied, same, List.append_nil, taken]

/-- What was consumed was shown, in this order. -/
theorem consumed_prefix (kept : Kept c consumed l) : consumed <+: c.shown := by
  have taken := kept.taken
  cases ready : l.ready with
  | true =>
      simp only [Channel.early, ready, ↓reduceIte] at taken
      exact ⟨l.held, taken.symm⟩
  | false =>
      simp only [Channel.early, ready, Bool.false_eq_true, ↓reduceIte, List.append_nil] at taken
      refine ⟨l.held ++ c.owed.toList, ?_⟩
      rw [Channel.shown, taken, List.append_assoc]

/-- A payload that is consumed before its transfer is the only one. -/
theorem length_consumed_le (kept : Kept c consumed l) :
    consumed.length ≤ c.transferred.length + (l.ready && !l.en).toNat := by
  have lengths := congrArg List.length kept.taken
  simp only [List.length_append] at lengths
  cases ready : l.ready with
  | false =>
      simp only [Channel.early, ready, Bool.false_eq_true, ↓reduceIte, List.length_nil] at lengths
      omega
  | true =>
      have one : c.owed.toList.length ≤ 1 := by cases c.owed <;> simp
      cases holds : l.en with
      | true =>
          simp only [Channel.early, ready, Latch.held, holds, ↓reduceIte,
            List.length_cons, List.length_nil] at lengths
          omega
      | false =>
          simp only [Channel.early, ready, Latch.held, holds, Bool.false_eq_true, ↓reduceIte,
            List.length_nil] at lengths
          simp only [Bool.not_false, Bool.and_self, Bool.toNat_true]
          omega

/-- A latch with nothing shown and everything consumed is idle. -/
theorem idle_of_consumed (kept : Kept c consumed l) (nothing : c.owed = none)
    (all : c.transferred.length ≤ consumed.length) :
    l.ready = false ∧ l.en = false ∧ consumed = c.transferred := by
  have ready : l.ready = false := by
    cases ready : l.ready with
    | false => rfl
    | true =>
        have owed := kept.owed ready
        rw [nothing] at owed
        exact absurd owed Bool.false_ne_true
  have taken := kept.taken
  simp only [Channel.early, ready, Bool.false_eq_true, ↓reduceIte, List.append_nil] at taken
  have lengths := congrArg List.length taken
  simp only [List.length_append] at lengths
  have empty : l.held = [] := List.eq_nil_of_length_eq_zero (by omega)
  refine ⟨ready, ?_, ?_⟩
  · cases holds : l.en with
    | false => rfl
    | true => simp [Latch.held, holds] at empty
  · rw [taken, empty, List.append_nil]

end Channel.Kept

end OrpsocCores.EarlyLatch
