import Mathlib.Tactic.Common

/-!
# Numbers that fall again and again

What cannot go on for ever in a run: a number that never rises and falls at some event
lets the event happen finitely often only.
-/

set_option autoImplicit false

namespace OrpsocCores.Descent

variable {rank : Nat → Nat} {Event : Nat → Prop} {n : Nat}

theorem rank_le (keeps : ∀ m ≥ n, rank (m + 1) ≤ rank m) {k m : Nat} (late : n ≤ m)
    (after : m ≤ k) : rank k ≤ rank m := by
  induction after with
  | refl => exact Nat.le_refl _
  | step after ih => exact Nat.le_trans (keeps _ (Nat.le_trans late after)) ih

/-- **An event at which a number falls does not recur**, if the number never rises. -/
theorem not_recurring (rank : Nat → Nat) (Event : Nat → Prop)
    (keeps : ∀ m ≥ n, rank (m + 1) ≤ rank m)
    (falls : ∀ m ≥ n, Event m → rank (m + 1) < rank m)
    (recurs : ∀ m ≥ n, ∃ k ≥ m, Event k) : False := by
  have lower : ∀ j, ∃ m ≥ n, rank m + j ≤ rank n := by
    intro j
    induction j with
    | zero => exact ⟨n, Nat.le_refl n, Nat.le_refl _⟩
    | succ j ih =>
        obtain ⟨m, late, low⟩ := ih
        obtain ⟨k, after, event⟩ := recurs m late
        have fallen := falls k (Nat.le_trans late after) event
        have kept := rank_le keeps late after
        exact ⟨k + 1, by omega, by omega⟩
  obtain ⟨m, -, low⟩ := lower (rank n + 1)
  omega

end OrpsocCores.Descent
