import Mathlib.Data.Int.ModEq
import Mathlib.Data.Nat.Find
import Mathlib.Tactic.Common

/-!
# Gray codes and sampling across clock domains

A pointer that is sampled by a foreign clock is sent as a Gray code.  The code
of a value and the code of its successor modulo `2 ^ w` differ in exactly one
bit (`gray_succ_differs`), the wraparound from the largest value to zero
included.  A sampling edge that coincides with the change may catch each
changing bit as its old or its new value (`capture`).  Since one bit changes,
what is caught is one of the two codes (`capture_gray_succ`), and since the code
is injective (`gray_injective`) it stands for one of the two pointers.
-/

set_option autoImplicit false

namespace OrpsocCores.GrayCode

variable {w : Nat}

/-- The binary-reflected Gray code. -/
def gray (x : BitVec w) : BitVec w := x ^^^ (x >>> 1)

/-- A code bit compares a bit with the bit above it. -/
theorem gray_getLsbD (x : BitVec w) (i : Nat) :
    (gray x).getLsbD i = xor (x.getLsbD i) (x.getLsbD (i + 1)) := by
  rw [gray, BitVec.getLsbD_xor, BitVec.getLsbD_ushiftRight, Nat.add_comm]

/-! ## Injectivity -/

/-- **A Gray code determines its value.** -/
theorem gray_injective : Function.Injective (gray : BitVec w → BitVec w) := by
  intro x y same
  -- The top bits agree, and each bit below is the code bit against the bit above.
  have fromTop : ∀ n i, w ≤ i + n → x.getLsbD i = y.getLsbD i := by
    intro n
    induction n with
    | zero =>
        intro i beyond
        rw [BitVec.getLsbD_of_ge x i beyond, BitVec.getLsbD_of_ge y i beyond]
    | succ n ih =>
        intro i within
        have code := congrArg (fun code => code.getLsbD i) same
        simp only [gray_getLsbD, ih (i + 1) (by omega)] at code
        exact Bool.xor_left_inj.mp code
  apply BitVec.eq_of_getLsbD_eq
  intro i _
  exact fromTop w i (Nat.le_add_left w i)

/-! ## Successive codes -/

/-- The bits of a value below position `i` are all one, and the position is one
of the vector's: the positions an increment flips. -/
def Flips (x : BitVec w) (i : Nat) : Prop := i < w ∧ ∀ j < i, x.getLsbD j = true

theorem Flips.mono {x : BitVec w} {i j : Nat} (flips : Flips x j) (below : i ≤ j) : Flips x i :=
  ⟨lt_of_le_of_lt below flips.1, fun k inside => flips.2 k (lt_of_lt_of_le inside below)⟩

/-- An increment flips exactly the positions whose lower bits are all one. -/
theorem getLsbD_succ_ne (x : BitVec w) (i : Nat) :
    x.getLsbD i ≠ (x + 1#w).getLsbD i ↔ Flips x i := by
  by_cases inside : i < w
  · rw [BitVec.getLsbD_add inside]
    cases i with
    | zero => simp [Flips, inside]
    | succ i =>
        rw [BitVec.carry_succ_one i x (by omega)]
        simp only [Flips, inside, true_and]
        by_cases ones : ∀ j < i + 1, x.getLsbD j = true
        · have ones' : ∀ j ≤ i, x.getLsbD j = true := fun j below => ones j (by omega)
          rw [decide_eq_true ones']
          exact iff_of_true (by simp) ones
        · have ones' : ¬ ∀ j ≤ i, x.getLsbD j = true :=
            fun all => ones fun j below => all j (by omega)
          rw [decide_eq_false ones']
          exact iff_of_false (by simp) ones
  · rw [BitVec.getLsbD_of_ge x i (by omega), BitVec.getLsbD_of_ge (x + 1#w) i (by omega)]
    simp [Flips, inside]

/-- **The codes of a value and of its successor differ in exactly one bit.** -/
theorem gray_succ_differs (x : BitVec w) (positive : 0 < w) :
    ∃ p < w, ∀ i, (gray x).getLsbD i ≠ (gray (x + 1#w)).getLsbD i ↔ i = p := by
  have differs : ∀ i, (gray x).getLsbD i ≠ (gray (x + 1#w)).getLsbD i ↔
      ¬ (Flips x i ↔ Flips x (i + 1)) := by
    intro i
    rw [← getLsbD_succ_ne, ← getLsbD_succ_ne, gray_getLsbD, gray_getLsbD]
    cases x.getLsbD i <;> cases x.getLsbD (i + 1) <;> cases (x + 1#w).getLsbD i <;>
      cases (x + 1#w).getLsbD (i + 1) <;> simp
  -- The flipped positions are an initial segment: it ends at one position.
  have ends : ∃ i, ¬ Flips x (i + 1) := ⟨w, fun flips => by have := flips.1; omega⟩
  classical
  have last : Flips x (Nat.find ends) := by
    cases found : Nat.find ends with
    | zero => exact ⟨positive, fun j below => absurd below (Nat.not_lt_zero j)⟩
    | succ n => exact not_not.mp (Nat.find_min ends (m := n) (by omega))
  refine ⟨Nat.find ends, last.1, fun i => ?_⟩
  rw [differs]
  rcases Nat.lt_trichotomy i (Nat.find ends) with before | here | beyond
  · have flips := last.mono before
    simp [flips, flips.mono (Nat.le_succ i), Nat.ne_of_lt before]
  · subst here
    simp [last, Nat.find_spec ends]
  · have stays : ¬ Flips x i := fun flips => Nat.find_spec ends (flips.mono beyond)
    have stays' : ¬ Flips x (i + 1) := fun flips => stays (flips.mono (Nat.le_succ i))
    simp [stays, stays', Nat.ne_of_gt beyond]

/-! ## Sampling a changing bus -/

/-- What a register catches of a bus that changes at its sampling edge: the bits
of `choose` are caught new, the others old. -/
def capture (choose old new : BitVec w) : BitVec w := (new &&& choose) ||| (old &&& ~~~choose)

theorem getLsbD_capture (choose old new : BitVec w) (i : Nat) :
    (capture choose old new).getLsbD i =
      if choose.getLsbD i then new.getLsbD i else old.getLsbD i := by
  by_cases inside : i < w
  · simp only [capture, BitVec.getLsbD_or, BitVec.getLsbD_and, BitVec.getLsbD_not]
    cases choose.getLsbD i <;> simp [inside]
  · simp [capture, BitVec.getLsbD_of_ge _ i (Nat.le_of_not_lt inside)]

@[simp] theorem capture_zero (old new : BitVec w) : capture 0#w old new = old := by
  apply BitVec.eq_of_getLsbD_eq
  intro i _
  simp [getLsbD_capture]

@[simp] theorem capture_self (choose stable : BitVec w) :
    capture choose stable stable = stable := by
  apply BitVec.eq_of_getLsbD_eq
  intro i _
  simp [getLsbD_capture]

/-- **Sampling a Gray pointer while it moves to its successor catches the old
pointer or the new one.** -/
theorem capture_gray_succ (choose x : BitVec w) :
    capture choose (gray x) (gray (x + 1#w)) = gray x ∨
      capture choose (gray x) (gray (x + 1#w)) = gray (x + 1#w) := by
  rcases Nat.eq_zero_or_pos w with rfl | positive
  · exact Or.inl (Subsingleton.elim _ _)
  obtain ⟨p, -, differs⟩ := gray_succ_differs x positive
  have elsewhere : ∀ i, i ≠ p → (gray x).getLsbD i = (gray (x + 1#w)).getLsbD i :=
    fun i away => not_not.mp fun differ => away ((differs i).mp differ)
  cases chosen : choose.getLsbD p with
  | false =>
      left
      apply BitVec.eq_of_getLsbD_eq
      intro i _
      rw [getLsbD_capture]
      by_cases here : i = p
      · subst here
        simp [chosen]
      · rw [elsewhere i here, ite_self]
  | true =>
      right
      apply BitVec.eq_of_getLsbD_eq
      intro i _
      rw [getLsbD_capture]
      by_cases here : i = p
      · subst here
        simp [chosen]
      · rw [elsewhere i here, ite_self]

/-! ## Free-running pointers

A ring pointer counts events modulo `2 ^ w`.  Its code stands for the number of
events, and comparisons of codes are comparisons of counts as long as the counts
are less than a full turn apart. -/

/-- The code of a pointer that has advanced `n` times. -/
def pointer (w n : Nat) : BitVec w := gray (BitVec.ofNat w n)

theorem pointer_eq_iff (m n : Nat) :
    pointer w m = pointer w n ↔ m % 2 ^ w = n % 2 ^ w := by
  rw [pointer, pointer, gray_injective.eq_iff, ← BitVec.toNat_inj, BitVec.toNat_ofNat,
    BitVec.toNat_ofNat]

/-- Within a turn from `m`, only `m` has the code of `m`. -/
theorem pointer_eq_iff_of_lt {m n : Nat} (after : m ≤ n) (within : n < m + 2 ^ w) :
    pointer w n = pointer w m ↔ n = m := by
  rw [pointer_eq_iff]
  constructor
  · intro same
    have turns : 2 ^ w ∣ n - m := (Nat.modEq_iff_dvd' after).mp same.symm
    have none : n - m = 0 := Nat.eq_zero_of_dvd_of_lt turns (by omega)
    omega
  · rintro rfl
    rfl

/-- A full turn after `m`, the code of `m` comes back for the first time. -/
theorem pointer_eq_iff_of_le {m n : Nat} (after : m < n) (within : n ≤ m + 2 ^ w) :
    pointer w n = pointer w m ↔ n = m + 2 ^ w := by
  rw [pointer_eq_iff]
  constructor
  · intro same
    have turns : 2 ^ w ∣ n - m := (Nat.modEq_iff_dvd' after.le).mp same.symm
    have whole : 2 ^ w ≤ n - m := Nat.le_of_dvd (by omega) turns
    omega
  · rintro rfl
    exact Nat.add_mod_right m (2 ^ w)

/-- **Sampling a pointer that advances at most once stands for the old or the new
count**, and for the old one when every bit is caught old. -/
theorem capture_pointer (choose : BitVec w) (n : Nat) (advance : Bool) :
    ∃ m, n ≤ m ∧ m ≤ n + advance.toNat ∧ (choose = 0#w → m = n) ∧
      capture choose (pointer w n) (pointer w (n + advance.toNat)) = pointer w m := by
  cases advance with
  | false => exact ⟨n, le_rfl, Nat.le_add_right n _, fun _ => rfl, capture_self _ _⟩
  | true =>
      by_cases old : choose = 0#w
      · subst old
        exact ⟨n, le_rfl, Nat.le_add_right n _, fun _ => rfl, capture_zero _ _⟩
      · have next : pointer w (n + 1) = gray (BitVec.ofNat w n + 1#w) := by
          rw [pointer, BitVec.ofNat_add]
        rcases capture_gray_succ choose (BitVec.ofNat w n) with caught | caught
        · exact ⟨n, le_rfl, Nat.le_add_right n _, fun _ => rfl, by
            rw [Bool.toNat_true, next]
            exact caught⟩
        · exact ⟨n + 1, Nat.le_succ n, le_rfl, fun zero => absurd zero old, by
            rw [Bool.toNat_true, next]
            exact caught⟩

end OrpsocCores.GrayCode
