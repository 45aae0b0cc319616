import Mathlib.Algebra.Ring.Int.Defs
import Mathlib.Algebra.Ring.Nat
import Mathlib.Data.List.GetD
import Mathlib.Data.List.OfFn
import Mathlib.Tactic.Common

/-!
# Line codes

A word is sent on a line bit by bit, its lowest bit first.  A receiver needs the line to
change (or, where changes cost energy, not to change too often), and a line without a
direct current path needs as many ones as zeros.

* `transitions` counts the changes of the line while bits are sent.
* `disparity` is the number of ones less the number of zeros.
* `chain` is differential coding: after the first bit, a bit says whether the line changes.
  Its inverse is `unchain`, and the changes of a chain are the bits that ask for one
  (`transitions_chain`).
-/

set_option autoImplicit false

namespace OrpsocCores.LineCode

variable {w v : Nat}

/-- The bits of a word in the order they are sent. -/
def lsbFirst (x : BitVec w) : List Bool := List.ofFn fun i : Fin w => x.getLsbD i

/-- The word that bits were sent for. -/
def ofLsbFirst (bits : List Bool) : BitVec w := (BitVec.ofBoolListLE bits).setWidth w

/-- How often the line changes while bits are sent. -/
def transitions : List Bool → Nat
  | first :: second :: bits => (first ^^ second).toNat + transitions (second :: bits)
  | _ => 0

/-- The ones less the zeros. -/
def disparity (bits : List Bool) : Int := bits.count true - bits.count false

/-! ## The bits of a word -/

@[simp] theorem length_lsbFirst (x : BitVec w) : (lsbFirst x).length = w := by simp [lsbFirst]

theorem lsbFirst_injective : Function.Injective (lsbFirst : BitVec w → List Bool) := by
  intro x y same
  have bits := List.ofFn_injective same
  exact BitVec.eq_of_getLsbD_eq fun i inside => congrFun bits ⟨i, inside⟩

@[simp] theorem ofLsbFirst_lsbFirst (x : BitVec w) : ofLsbFirst (lsbFirst x) = x := by
  apply BitVec.eq_of_getLsbD_eq
  intro i inside
  rw [ofLsbFirst, BitVec.getLsbD_setWidth, BitVec.getLsbD_ofBoolListLE, decide_eq_true inside,
    Bool.true_and, List.getD_eq_getElem _ _ (by simpa using inside)]
  simp only [lsbFirst, List.getElem_ofFn]

theorem lsbFirst_ofLsbFirst (bits : List Bool) (whole : bits.length = w) :
    lsbFirst (ofLsbFirst bits : BitVec w) = bits := by
  apply List.ext_getElem
  · simp [whole]
  · intro i _ inside
    have inside' : i < w := whole ▸ inside
    simp only [lsbFirst, ofLsbFirst, List.getElem_ofFn, BitVec.getLsbD_setWidth,
      BitVec.getLsbD_ofBoolListLE, decide_eq_true inside', Bool.true_and,
      List.getD_eq_getElem _ _ inside]

/-- A bit of a word, as one of those sent. -/
theorem getLsbD_eq_getD (x : BitVec w) (i : Nat) : x.getLsbD i = (lsbFirst x).getD i false := by
  by_cases inside : i < w
  · rw [List.getD_eq_getElem _ _ (by simpa using inside)]
    simp only [lsbFirst, List.getElem_ofFn]
  · rw [BitVec.getLsbD_of_ge x i (by omega), List.getD_eq_default _ _ (by simpa using inside)]

/-- The low part of a word is sent first. -/
theorem lsbFirst_setWidth (x : BitVec w) (narrower : v ≤ w) :
    lsbFirst (x.setWidth v) = (lsbFirst x).take v := by
  apply List.ext_getElem
  · simp [narrower]
  · intro i inside _
    have inside' : i < v := by simpa using inside
    simp only [lsbFirst, List.getElem_ofFn, List.getElem_take, BitVec.getLsbD_setWidth,
      decide_eq_true inside', Bool.true_and]

/-- A part of a word is a part of what is sent. -/
theorem lsbFirst_extractLsb' (x : BitVec w) {start : Nat} (inside : start + v ≤ w) :
    lsbFirst (x.extractLsb' start v) = ((lsbFirst x).drop start).take v := by
  apply List.ext_getElem
  · simp
    omega
  · intro i within _
    have within' : i < v := by simpa using within
    simp only [lsbFirst, List.getElem_ofFn, List.getElem_take, List.getElem_drop,
      BitVec.getLsbD_extractLsb', decide_eq_true within', Bool.true_and]

/-- Of two joined words the lower one is sent first. -/
theorem lsbFirst_append (high : BitVec w) (low : BitVec v) :
    lsbFirst (high ++ low) = lsbFirst low ++ lsbFirst high := by
  apply List.ext_getElem
  · simp [Nat.add_comm]
  · intro i inside _
    simp only [lsbFirst, List.getElem_ofFn, BitVec.getLsbD_append, List.getElem_append,
      List.length_ofFn]
    split <;> rfl

theorem lsbFirst_not (x : BitVec w) : lsbFirst (~~~x) = (lsbFirst x).map (!·) := by
  apply List.ext_getElem
  · simp
  · intro i inside _
    simp [lsbFirst]

@[simp] theorem lsbFirst_ofBool (bit : Bool) : lsbFirst (BitVec.ofBool bit) = [bit] := by
  simp [lsbFirst]

/-! ## Disparity -/

@[simp] theorem disparity_nil : disparity [] = 0 := rfl

theorem disparity_append (bits bits' : List Bool) :
    disparity (bits ++ bits') = disparity bits + disparity bits' := by
  simp only [disparity, List.count_append]
  omega

theorem count_not (bits : List Bool) (bit : Bool) :
    (bits.map (!·)).count bit = bits.count (!bit) := by
  induction bits with
  | nil => rfl
  | cons first bits ih =>
      have first' : (!first) = bit ↔ first = !bit := by cases first <;> cases bit <;> decide
      simp only [List.map_cons, List.count_cons, ih, beq_iff_eq, first']

/-- The inverted bits have the opposite disparity. -/
theorem disparity_not (bits : List Bool) : disparity (bits.map (!·)) = -disparity bits := by
  simp only [disparity, count_not, Bool.not_true, Bool.not_false]
  omega

/-- The zeros are what the ones leave. -/
theorem count_true_add_count_false (bits : List Bool) :
    bits.count true + bits.count false = bits.length := by
  induction bits with
  | nil => rfl
  | cons bit bits ih =>
      cases bit <;> simp only [List.count_cons, List.length_cons] <;> simp <;> omega

/-! ## Transitions -/

@[simp] theorem transitions_nil : transitions [] = 0 := rfl

@[simp] theorem transitions_singleton (bit : Bool) : transitions [bit] = 0 := rfl

theorem transitions_cons_cons (first second : Bool) (bits : List Bool) :
    transitions (first :: second :: bits) =
      (first ^^ second).toNat + transitions (second :: bits) := rfl

/-- The inverted bits change where the bits do. -/
theorem transitions_not (bits : List Bool) : transitions (bits.map (!·)) = transitions bits := by
  induction bits with
  | nil => rfl
  | cons first bits ih =>
      cases bits with
      | nil => rfl
      | cons second bits =>
          simp only [List.map_cons, transitions_cons_cons] at ih ⊢
          rw [ih]
          cases first <;> cases second <;> rfl

/-- A bit more is at most a change more. -/
theorem transitions_concat_le (bits : List Bool) (bit : Bool) :
    transitions (bits ++ [bit]) ≤ transitions bits + 1 := by
  induction bits with
  | nil => simp
  | cons first bits ih =>
      cases bits with
      | nil =>
          have one : (first ^^ bit).toNat ≤ 1 := Bool.toNat_le _
          simpa [transitions_cons_cons] using one
      | cons second bits =>
          simp only [List.cons_append, transitions_cons_cons] at ih ⊢
          omega

/-! ## Differential coding -/

/-- Bits as changes of a line that has the value `last`: a one is a change, or where
`invert` is set a zero is. -/
def chain (invert last : Bool) : List Bool → List Bool
  | [] => []
  | bit :: bits => (last ^^ bit ^^ invert) :: chain invert (last ^^ bit ^^ invert) bits

/-- The bits that the changes of a line stand for. -/
def unchain (invert last : Bool) : List Bool → List Bool
  | [] => []
  | sent :: bits => (last ^^ sent ^^ invert) :: unchain invert sent bits

@[simp] theorem length_chain (invert last : Bool) (bits : List Bool) :
    (chain invert last bits).length = bits.length := by
  induction bits generalizing last with
  | nil => rfl
  | cons bit bits ih => simp [chain, ih]

/-- **The changes of a line carry the bits.** -/
theorem unchain_chain (invert last : Bool) (bits : List Bool) :
    unchain invert last (chain invert last bits) = bits := by
  induction bits generalizing last with
  | nil => rfl
  | cons bit bits ih =>
      have back : (last ^^ (last ^^ bit ^^ invert) ^^ invert) = bit := by
        cases last <;> cases bit <;> cases invert <;> rfl
      simp only [chain, unchain, ih, back]

/-- **The line changes once for each bit that asks for it.** -/
theorem transitions_chain (invert last : Bool) (bits : List Bool) :
    transitions (last :: chain invert last bits) = bits.count (!invert) := by
  induction bits generalizing last with
  | nil => rfl
  | cons bit bits ih =>
      have change : (last ^^ (last ^^ bit ^^ invert)).toNat = if bit = !invert then 1 else 0 := by
        cases last <;> cases bit <;> cases invert <;> rfl
      rw [chain, transitions_cons_cons, ih, List.count_cons, change]
      simp only [beq_iff_eq]
      omega

end OrpsocCores.LineCode
