import Mathlib.Algebra.Ring.Int.Defs
import Mathlib.Algebra.Ring.Nat
import Mathlib.Data.Nat.Log
import Mathlib.Tactic.Common

/-!
# Ranges and masks

An address decoder compares the masked address with a base.  With the negative of a
power of two for a mask it recognises the aligned block of that length
(`and_mask_eq_iff`).  Conversely a decoder that recognises every address of a range
has clear mask bits wherever the range is longer than the bit's weight, so that base
and mask are multiples of the power of two next to the range's length
(`dvd_of_decoded`), and a decoder that recognises the last address has the base for a
mask (`mask_eq_of_last`).
-/

set_option autoImplicit false

namespace OrpsocCores.AddressMask

variable {w k : Nat}

/-! ## Blocks of a power of two -/

/-- The negative of a power of two masks the bits from that power on. -/
theorem getLsbD_neg_twoPow (k i : Nat) :
    (-(BitVec.twoPow w k)).getLsbD i = decide (k ≤ i ∧ i < w) := by
  have lower : (∃ j < i, (BitVec.twoPow w k).getLsbD j = true) ↔ k < i ∧ k < w := by
    constructor
    · rintro ⟨j, less, bit⟩
      simp only [BitVec.getLsbD_twoPow, Bool.and_eq_true, decide_eq_true_eq] at bit
      omega
    · rintro ⟨less, inside⟩
      exact ⟨k, less, by simp [inside]⟩
  rw [BitVec.getLsbD_neg]
  simp only [lower]
  rw [BitVec.getLsbD_twoPow]
  rcases Nat.lt_trichotomy i k with below | same | above
  · simp [Nat.ne_of_gt below, Nat.not_lt.mpr below.le, Nat.not_le.mpr below]
  · simp [same]
  · by_cases inside : i < w
    · simp [Nat.ne_of_lt above, above, above.le, inside, above.trans inside]
    · simp [Nat.ne_of_lt above, inside]

/-- The masked address is the start of its block. -/
theorem toNat_and_neg_twoPow (a : BitVec w) :
    (a &&& -(BitVec.twoPow w k)).toNat = a.toNat / 2 ^ k * 2 ^ k := by
  apply Nat.eq_of_testBit_eq
  intro i
  have left : (a &&& -(BitVec.twoPow w k)).toNat.testBit i =
      (a.getLsbD i && decide (k ≤ i ∧ i < w)) := by
    rw [BitVec.testBit_toNat, BitVec.getLsbD_and, getLsbD_neg_twoPow]
  have right : (a.toNat / 2 ^ k * 2 ^ k).testBit i = (decide (k ≤ i) && a.getLsbD i) := by
    rw [← Nat.shiftLeft_eq, Nat.testBit_shiftLeft, Nat.testBit_div_two_pow]
    by_cases above : k ≤ i
    · simp [above, Nat.sub_add_cancel above, BitVec.testBit_toNat]
    · simp [above]
  rw [left, right]
  by_cases inside : i < w
  · simp [inside, Bool.and_comm]
  · simp [BitVec.getLsbD_of_ge a i (by omega)]

/-- **The decoder of an aligned block recognises exactly the block.** -/
theorem and_mask_eq_iff {base : BitVec w} (aligned : 2 ^ k ∣ base.toNat) (a : BitVec w) :
    a &&& -(BitVec.twoPow w k) = base ↔
      base.toNat ≤ a.toNat ∧ a.toNat < base.toNat + 2 ^ k := by
  have positive : 0 < 2 ^ k := Nat.two_pow_pos k
  obtain ⟨block, start⟩ := aligned
  rw [← BitVec.toNat_inj, toNat_and_neg_twoPow, start, Nat.mul_comm,
    Nat.mul_right_inj (Nat.ne_of_gt positive), Nat.div_eq_iff positive]
  constructor
  · rintro ⟨low, high⟩
    exact ⟨by rwa [Nat.mul_comm], by rw [Nat.mul_comm]; omega⟩
  · rintro ⟨low, high⟩
    exact ⟨by rwa [Nat.mul_comm], by rw [Nat.mul_comm]; omega⟩

/-! ## What a decoder of a range looks like -/

/-- A number without low bits is a multiple. -/
theorem dvd_of_testBit {x : Nat} (clear : ∀ i < k, x.testBit i = false) : 2 ^ k ∣ x := by
  apply Nat.dvd_of_mod_eq_zero
  apply Nat.eq_of_testBit_eq
  intro i
  rw [Nat.testBit_mod_two_pow, Nat.zero_testBit]
  by_cases below : i < k
  · simp [clear i below]
  · simp [below]

variable {base mask : BitVec w} {length : Nat}

/-- A range that is longer than a bit's weight has that bit clear in base and mask. -/
theorem getLsbD_of_decoded (inside : base.toNat + length ≤ 2 ^ w)
    (decoded : ∀ a : BitVec w, base.toNat ≤ a.toNat → a.toNat < base.toNat + length →
      a &&& mask = base)
    {i : Nat} (longer : 2 ^ i < length) :
    mask.getLsbD i = false ∧ base.getLsbD i = false := by
  have weight : 0 < 2 ^ i := Nat.two_pow_pos i
  have first := decoded base le_rfl (by omega)
  have value : (BitVec.ofNat w (2 ^ i + base.toNat)).toNat = 2 ^ i + base.toNat := by
    rw [BitVec.toNat_ofNat]
    exact Nat.mod_eq_of_lt (by omega)
  have other := decoded (BitVec.ofNat w (2 ^ i + base.toNat)) (by omega) (by omega)
  have flipped : (BitVec.ofNat w (2 ^ i + base.toNat)).getLsbD i = !base.getLsbD i := by
    rw [← BitVec.testBit_toNat, value, Nat.testBit_two_pow_add_eq, BitVec.testBit_toNat]
  have bit := congrArg (fun x => x.getLsbD i) first
  have bit' := congrArg (fun x => x.getLsbD i) other
  simp only [BitVec.getLsbD_and, flipped] at bit bit'
  revert bit bit'
  cases base.getLsbD i <;> cases mask.getLsbD i <;> simp

/-- **Base and mask of a decoder are multiples of the power of two next to the length
of a range it recognises.** -/
theorem dvd_of_decoded (inside : base.toNat + length ≤ 2 ^ w)
    (decoded : ∀ a : BitVec w, base.toNat ≤ a.toNat → a.toNat < base.toNat + length →
      a &&& mask = base) :
    2 ^ Nat.clog 2 length ∣ base.toNat ∧ 2 ^ Nat.clog 2 length ∣ mask.toNat := by
  have clear : ∀ i < Nat.clog 2 length, mask.getLsbD i = false ∧ base.getLsbD i = false := by
    intro i below
    exact getLsbD_of_decoded inside decoded ((Nat.lt_clog_iff_pow_lt (by decide)).mp below)
  constructor
  · exact dvd_of_testBit fun i below => by rw [BitVec.testBit_toNat]; exact (clear i below).2
  · exact dvd_of_testBit fun i below => by rw [BitVec.testBit_toNat]; exact (clear i below).1

/-- A decoder that recognises the last address has the base for a mask. -/
theorem mask_eq_of_last (last : BitVec.allOnes w &&& mask = base) : mask = base := by
  rwa [BitVec.allOnes_and] at last

end OrpsocCores.AddressMask
