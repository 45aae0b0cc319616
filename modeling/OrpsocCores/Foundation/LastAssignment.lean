import Mathlib.Data.List.FinRange
import Mathlib.Data.List.Induction
import Mathlib.Data.Nat.ModEq
import OrpsocCores.Foundation.AlignedBlock

/-!
# Loops in which the last assignment wins

A loop over an index range may assign one variable in several of its rounds.  What the
variable has at the end is the value of the last round that assigned it, or its initial
value if no round did.  This module is about any such loop, written as a fold.
-/

set_option autoImplicit false

namespace OrpsocCores.LastAssignment

universe u

variable {n : Nat} {β : Type u}

/-- How a loop over the indices of a list ends. -/
inductive Outcome (assigns : Fin n → Prop) (value : Fin n → β) (initial : β) (indices : List (Fin n))
    (final : β) : Prop where
  /-- No round assigned. -/
  | kept (silent : ∀ j ∈ indices, ¬assigns j) (same : final = initial)
  /-- Round `j` assigned and no later one. -/
  | assigned (j : Fin n) (visited : j ∈ indices) (assigning : assigns j)
      (last : ∀ i ∈ indices, j < i → ¬assigns i) (same : final = value j)

/-- **The last assignment of an ascending loop wins.** -/
theorem outcome_foldl {assigns : Fin n → Prop} [DecidablePred assigns] {value : Fin n → β}
    {round : β → Fin n → β} (rounds : ∀ b j, round b j = if assigns j then value j else b)
    (initial : β) {indices : List (Fin n)} (ascending : indices.Pairwise (· < ·)) :
    Outcome assigns value initial indices (indices.foldl round initial) := by
  induction indices using List.reverseRecOn with
  | nil => exact .kept (by simp) rfl
  | append_singleton front j ih =>
      obtain ⟨ascendingFront, -, below⟩ := List.pairwise_append.mp ascending
      rw [List.foldl_concat, rounds]
      by_cases here : assigns j
      · rw [if_pos here]
        refine .assigned j (by simp) here ?_ rfl
        intro i visited after
        rcases List.mem_append.mp visited with earlier | same
        · exact absurd after (below i earlier j (by simp)).asymm
        · rw [List.mem_singleton.mp same] at after
          exact absurd after (lt_irrefl j)
      · rw [if_neg here]
        cases ih ascendingFront with
        | kept silent same =>
            refine .kept ?_ same
            intro i visited
            rcases List.mem_append.mp visited with earlier | last
            · exact silent i earlier
            · rw [List.mem_singleton.mp last]
              exact here
        | assigned k visited assigning last same =>
            refine .assigned k (List.mem_append_left _ visited) assigning ?_ same
            intro i visited after
            rcases List.mem_append.mp visited with earlier | last'
            · exact last i earlier after
            · rw [List.mem_singleton.mp last']
              exact here

/-- A loop over all indices. -/
theorem outcome_finRange {assigns : Fin n → Prop} [DecidablePred assigns] {value : Fin n → β}
    {round : β → Fin n → β} (rounds : ∀ b j, round b j = if assigns j then value j else b)
    (initial : β) :
    Outcome assigns value initial (List.finRange n) ((List.finRange n).foldl round initial) :=
  outcome_foldl rounds initial (List.pairwise_lt_finRange n)

/-! ## Cells that come round again -/

/-- The last of `rounds` rounds that is at the place of round `k`, when the places come again
after `period` rounds. -/
def lastRound (period rounds k : Nat) : Nat := rounds - 1 - (rounds - 1 - k) % period

/-- Another round is the last one at its own place. -/
theorem lastRound_succ {period rounds k : Nat} (positive : 0 < period) (done : k ≤ rounds) :
    lastRound period (rounds + 1) k =
      if k % period = rounds % period then rounds else lastRound period rounds k := by
  have same : k % period = rounds % period ↔ (rounds - k) % period = 0 := by
    rw [← Nat.dvd_iff_mod_eq_zero, ← Nat.modEq_iff_dvd' done, Nat.ModEq]
  simp only [lastRound, Nat.add_sub_cancel, same]
  split
  case isTrue whole => rw [whole, Nat.sub_zero]
  case isFalse part =>
    have before : k < rounds := by
      refine Nat.lt_of_le_of_ne done fun last => part ?_
      rw [last, Nat.sub_self, Nat.zero_mod]
    have further : rounds - k = rounds - 1 - k + 1 := by omega
    rw [further, AlignedBlock.mod_succ positive] at part ⊢
    split at part
    case isTrue => exact absurd rfl part
    case isFalse inner =>
      rw [if_neg inner]
      omega

variable {α : Type u} [DecidableEq α]

/-- Rounds that each assign a cell. -/
def fill (cell : Nat → α) (value : Nat → β) (initial : α → β) : Nat → α → β
  | 0 => initial
  | rounds + 1 => Function.update (fill cell value initial rounds) (cell rounds) (value rounds)

/-- **A cell has what the last round at its place assigned.** -/
theorem fill_eq {cell : Nat → α} {value : Nat → β} {initial : α → β} {period bound : Nat}
    (positive : 0 < period)
    (same : ∀ j < bound, ∀ k < bound, cell j = cell k ↔ j % period = k % period)
    {rounds : Nat} (inside : rounds ≤ bound) {k : Nat} (done : k < rounds) :
    fill cell value initial rounds (cell k) = value (lastRound period rounds k) := by
  induction rounds with
  | zero => exact absurd done (Nat.not_lt_zero k)
  | succ rounds ih =>
      have place : cell k = cell rounds ↔ k % period = rounds % period :=
        same k (by omega) rounds (by omega)
      rw [fill, lastRound_succ positive (Nat.le_of_lt_succ done)]
      split
      case isTrue again => rw [place.2 again, Function.update_self]
      case isFalse other =>
        have before : k < rounds := by
          refine Nat.lt_of_le_of_ne (Nat.le_of_lt_succ done) fun last => other ?_
          rw [last]
        rw [Function.update_of_ne (mt place.1 other)]
        exact ih (Nat.le_of_succ_le inside) before

end OrpsocCores.LastAssignment
