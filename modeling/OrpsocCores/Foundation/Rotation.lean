import Mathlib.Data.Fin.Basic
import Mathlib.Tactic.Common

/-!
# Positions on a ring

The positions of an `n`-bit word, walked downwards and around.  `pred` is one step,
`dist` the number of steps from one position to another.  A one-hot word rotated by one
bit has its bit one step on.
-/

set_option autoImplicit false

namespace OrpsocCores.Rotation

variable {n : Nat}

/-- One step down, or around from the lowest position to the highest. -/
def pred (i : Fin n) : Fin n :=
  ⟨if i.val = 0 then n - 1 else i.val - 1, by split <;> omega⟩

/-- The number of steps down from `i` to `m`. -/
def dist (i m : Fin n) : Nat := if m.val ≤ i.val then i.val - m.val else i.val + n - m.val

theorem dist_lt (i m : Fin n) : dist i m < n := by
  rw [dist]
  split <;> omega

/-- A step brings every other position one nearer. -/
theorem dist_pred {i m : Fin n} (other : i ≠ m) : dist (pred i) m + 1 = dist i m := by
  have apart : i.val ≠ m.val := fun same => other (Fin.ext same)
  simp only [dist, pred]
  split <;> split <;> split <;> omega

/-! ## One-hot words -/

/-- The word with this bit alone. -/
def oneHot (i : Fin n) : BitVec n := BitVec.twoPow n i.val

theorem getLsbD_oneHot (i j : Fin n) : (oneHot i).getLsbD j = decide (i = j) := by
  rw [oneHot, BitVec.getLsbD_twoPow]
  simp [Fin.ext_iff]

theorem oneHot_injective : Function.Injective (oneHot (n := n)) := by
  intro i j same
  have bit := getLsbD_oneHot i j
  rw [same, getLsbD_oneHot] at bit
  simpa using bit.symm

theorem oneHot_ne_zero (i : Fin n) : oneHot i ≠ 0 := by
  intro zero
  have bit := getLsbD_oneHot i i
  rw [zero] at bit
  simp at bit

theorem oneHot_and_ne_zero (i : Fin n) (x : BitVec n) :
    oneHot i &&& x ≠ 0 ↔ x.getLsbD i = true := by
  constructor
  · intro meets
    rw [← Bool.not_eq_false]
    intro clear
    refine meets (BitVec.eq_of_getLsbD_eq fun j below => ?_)
    rw [BitVec.getLsbD_and, getLsbD_oneHot i ⟨j, below⟩]
    by_cases here : i = ⟨j, below⟩
    · subst here
      simpa using clear
    · simp [here]
  · intro set zero
    have bit : (oneHot i &&& x).getLsbD i = true := by
      rw [BitVec.getLsbD_and, getLsbD_oneHot, set]
      simp
    rw [zero] at bit
    simp at bit

theorem rotateRight_oneHot (i : Fin n) : (oneHot i).rotateRight 1 = oneHot (pred i) := by
  apply BitVec.eq_of_getLsbD_eq
  intro j below
  rw [BitVec.getLsbD_rotateRight, getLsbD_oneHot (pred i) ⟨j, below⟩, oneHot]
  simp only [BitVec.getLsbD_twoPow, pred, Fin.ext_iff]
  have low := i.isLt
  rcases Nat.lt_or_ge 1 n with many | single
  · rw [Nat.mod_eq_of_lt many, Bool.eq_iff_iff]
    by_cases top : j < n - 1
    · simp only [top, decide_true, cond_true, Bool.and_eq_true, decide_eq_true_eq]
      split <;> omega
    · simp only [top, decide_false, cond_false, Bool.and_eq_true, decide_eq_true_eq]
      split <;> omega
  · obtain rfl : n = 1 := by omega
    obtain rfl : i = 0 := Subsingleton.elim i 0
    obtain rfl : j = 0 := by omega
    rfl

end OrpsocCores.Rotation
