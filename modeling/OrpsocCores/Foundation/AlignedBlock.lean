import Mathlib.Algebra.Ring.Int.Defs
import Mathlib.Algebra.Ring.Nat
import Mathlib.Data.Int.ModEq
import Mathlib.Logic.Function.Iterate
import Mathlib.Tactic.Common

/-!
# Walking round an aligned block

A wrapping counter goes on to the next place of its aligned block, and from the last place
to the first one (`next`).  It walks round the block: as many steps as the block has places
lead back to the start, and meet each place exactly once (`existsUnique_iterate`), wherever
the walk begins.
-/

set_option autoImplicit false

namespace OrpsocCores.AlignedBlock

/-- The place behind `x` in the block of `size` places that `x` lies in. -/
def next (size x : Nat) : Nat := x / size * size + (x + 1) % size

variable {size : Nat}

theorem div_offset (positive : 0 < size) (block place : Nat) :
    (block * size + place % size) / size = block := by
  rw [Nat.mul_comm, Nat.mul_add_div positive, Nat.div_eq_of_lt (Nat.mod_lt _ positive),
    Nat.add_zero]

theorem mod_offset (block place : Nat) :
    (block * size + place % size) % size = place % size := by
  rw [Nat.mul_comm, Nat.mul_add_mod, Nat.mod_mod]

/-- The place after some steps. -/
theorem iterate_next (positive : 0 < size) (x steps : Nat) :
    (next size)^[steps] x = x / size * size + (x + steps) % size := by
  induction steps with
  | zero => exact (Nat.div_add_mod' x size).symm
  | succ steps ih =>
      rw [Function.iterate_succ_apply', ih, next, div_offset positive, Nat.add_mod, mod_offset,
        ← Nat.add_mod, Nat.add_assoc]

/-- The walk stays in the block. -/
theorem iterate_next_div (positive : 0 < size) (x steps : Nat) :
    (next size)^[steps] x / size = x / size := by
  rw [iterate_next positive, div_offset positive]

/-- Two walks from one place meet when they are whole rounds apart. -/
theorem iterate_next_eq_iff (positive : 0 < size) (x j k : Nat) :
    (next size)^[j] x = (next size)^[k] x ↔ j % size = k % size := by
  rw [iterate_next positive, iterate_next positive, Nat.add_left_cancel_iff]
  exact ⟨Nat.ModEq.add_left_cancel' x, Nat.ModEq.add_left x⟩

/-- Once round the block. -/
theorem iterate_next_size (positive : 0 < size) (x : Nat) : (next size)^[size] x = x := by
  rw [iterate_next positive, Nat.add_mod_right, Nat.div_add_mod']

/-- How far one place is ahead of another, around the end of the block. -/
theorem ahead_iff {a b steps : Nat} (inside : a < size) (inside' : b < size)
    (few : steps < size) : (a + steps) % size = b ↔ steps = (size + b - a) % size := by
  have sum : (a + steps) % size = if a + steps < size then a + steps else a + steps - size := by
    split
    · exact Nat.mod_eq_of_lt ‹_›
    · rw [Nat.mod_eq_sub_mod (by omega), Nat.mod_eq_of_lt (by omega)]
  have difference : (size + b - a) % size = if b < a then size + b - a else b - a := by
    split
    · exact Nat.mod_eq_of_lt (by omega)
    · rw [Nat.mod_eq_sub_mod (by omega), Nat.mod_eq_of_lt (by omega)]
      omega
  rw [sum, difference]
  split <;> split <;> omega

/-- The place behind another one, around the end of the block. -/
theorem mod_succ (positive : 0 < size) (n : Nat) :
    (n + 1) % size = if n % size + 1 = size then 0 else n % size + 1 := by
  have small := Nat.mod_lt n positive
  rw [← Nat.mod_add_mod]
  split
  case isTrue around => rw [around, Nat.mod_self]
  case isFalse => exact Nat.mod_eq_of_lt (by omega)

/-- The place in front of another one. -/
theorem mod_before (positive : 0 < size) (m : Nat) :
    (m + size - 1) % size = if m % size = 0 then size - 1 else m % size - 1 := by
  have small := Nat.mod_lt m positive
  rw [Nat.add_sub_assoc positive, ← Nat.mod_add_mod]
  split
  case isTrue zero =>
    rw [zero, Nat.zero_add]
    exact Nat.mod_eq_of_lt (by omega)
  case isFalse some =>
    rw [Nat.mod_eq_sub_mod (by omega), Nat.mod_eq_of_lt (by omega)]
    omega

/-- A walk of `steps` places from `x` on stays between `x` and the place before `x + len`, the
length being told as it is or as zero. -/
theorem between_iff {x len steps : Nat} (inside : x < size) (some : 0 < steps)
    (passed : len = 0 ∨ len = steps) :
    (∀ k < steps, x ≤ (x + k) % size ∧ (x + k) % size ≤ (x + len + size - 1) % size) ↔
      (x + steps ≤ size ∧ len = steps) ∨ (x = 0 ∧ size ∣ len) := by
  have positive : 0 < size := by omega
  have last := mod_before positive (x + len)
  constructor
  · intro run
    rcases Nat.eq_zero_or_pos x with rfl | later
    · rcases Nat.lt_or_ge size steps with around | fits
      · -- the walk goes through all of the ring, so that the bound has to be its last place
        obtain ⟨-, high⟩ := run (size - 1) (by omega)
        rw [last, Nat.zero_add, Nat.zero_add, Nat.mod_eq_of_lt (by omega)] at high
        have small := Nat.mod_lt len positive
        refine Or.inr ⟨rfl, Nat.dvd_of_mod_eq_zero ?_⟩
        split at high <;> omega
      · rcases passed with rfl | rfl
        · exact Or.inr ⟨rfl, Nat.dvd_zero size⟩
        · exact Or.inl ⟨by omega, rfl⟩
    · obtain ⟨-, high⟩ := run 0 some
      rw [last, Nat.add_zero, Nat.mod_eq_of_lt inside] at high
      rcases passed with rfl | rfl
      · rw [Nat.add_zero, Nat.mod_eq_of_lt inside, if_neg (by omega)] at high
        omega
      · refine Or.inl ⟨not_lt.1 fun around => ?_, rfl⟩
        -- the walk comes to the first place of the ring, which is in front of `x`
        obtain ⟨low, -⟩ := run (size - x) (by omega)
        rw [Nat.add_sub_cancel' (by omega), Nat.mod_self] at low
        omega
  · rintro (⟨fits, rfl⟩ | ⟨rfl, whole⟩) k less
    · have inside' : x + len - 1 < size := by omega
      rw [Nat.mod_eq_of_lt (by omega), Nat.sub_add_comm (by omega), Nat.add_mod_right,
        Nat.mod_eq_of_lt inside']
      omega
    · have small := Nat.mod_lt k positive
      rw [last, Nat.zero_add, Nat.zero_add, if_pos (Nat.mod_eq_zero_of_dvd whole)]
      omega

/-- **Going round the block meets each of its places exactly once.** -/
theorem existsUnique_iterate (positive : 0 < size) {x y : Nat} (same : y / size = x / size) :
    ∃! steps, steps < size ∧ (next size)^[steps] x = y := by
  have meets (steps : Nat) (inside : steps < size) :
      (next size)^[steps] x = y ↔ steps = (size + y % size - x % size) % size := by
    rw [← ahead_iff (Nat.mod_lt x positive) (Nat.mod_lt y positive) inside,
      iterate_next positive, ← same, Nat.mod_add_mod]
    constructor
    · intro there
      have place := congrArg (· % size) there
      rwa [mod_offset] at place
    · intro place
      rw [place, Nat.div_add_mod']
  refine ⟨(size + y % size - x % size) % size, ⟨Nat.mod_lt _ positive, ?_⟩, ?_⟩
  · exact (meets _ (Nat.mod_lt _ positive)).mpr rfl
  · rintro steps ⟨inside, there⟩
    exact (meets steps inside).mp there

end OrpsocCores.AlignedBlock
