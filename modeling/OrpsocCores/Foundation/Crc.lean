import Mathlib.Data.BitVec
import Mathlib.Tactic.Common

/-!
# Cyclic redundancy checks

A check register takes the message bit by bit, most significant position first: it is
shifted to the left, and the feedback polynomial is added when the bit that falls out and
the message bit differ (`step`).  A register that is fed its own bits never has feedback,
so that it is shifted out to zero.  When the polynomial has a constant term, feedback
shows in the lowest bit of the register and stays inside it for as long as less than a
whole register of bits follows, so that no other bits lead to zero
(`feed_append_eq_zero_iff`).
-/

set_option autoImplicit false

namespace OrpsocCores.Crc

variable {w : Nat}

/-- A register takes a bit of the message. -/
def step (poly crc : BitVec w) (bit : Bool) : BitVec w :=
  crc <<< 1 ^^^ if xor crc.msb bit then poly else 0#w

/-- A register takes a message. -/
def feed (poly crc : BitVec w) (bits : List Bool) : BitVec w := bits.foldl (step poly) crc

/-- The bits of a word, most significant first. -/
def msbFirst (x : BitVec w) : List Bool := List.ofFn fun i : Fin w => x.getMsbD i

@[simp] theorem length_msbFirst (x : BitVec w) : (msbFirst x).length = w := List.length_ofFn

theorem getElem?_msbFirst (x : BitVec w) {i : Nat} (inside : i < w) :
    (msbFirst x)[i]? = some (x.getMsbD i) := by
  rw [msbFirst, List.getElem?_ofFn, dif_pos inside]

@[simp] theorem feed_nil (poly crc : BitVec w) : feed poly crc [] = crc := rfl

@[simp] theorem feed_cons (poly crc : BitVec w) (bit : Bool) (bits : List Bool) :
    feed poly crc (bit :: bits) = feed poly (step poly crc bit) bits := rfl

theorem feed_append (poly crc : BitVec w) (bits more : List Bool) :
    feed poly crc (bits ++ more) = feed poly (feed poly crc bits) more :=
  List.foldl_append

/-! ## One bit -/

theorem getLsbD_step (poly crc : BitVec w) (bit : Bool) {i : Nat} (inside : i < w) :
    (step poly crc bit).getLsbD i =
      xor (decide (i ≠ 0) && crc.getLsbD (i - 1)) (xor crc.msb bit && poly.getLsbD i) := by
  rw [step, BitVec.getLsbD_xor, BitVec.getLsbD_shiftLeft, decide_eq_true inside, Bool.true_and]
  congr 1
  · cases i with
    | zero => simp
    | succ i => simp
  · cases xor crc.msb bit <;> simp

/-- The lowest bit of the register is the feedback. -/
theorem getLsbD_zero_step {poly : BitVec w} (constant : poly.getLsbD 0 = true)
    (crc : BitVec w) (bit : Bool) :
    (step poly crc bit).getLsbD 0 = xor crc.msb bit := by
  have inside : 0 < w := BitVec.lt_of_getLsbD constant
  rw [getLsbD_step poly crc bit inside, constant]
  simp

/-- A register that is given its own highest bit is shifted. -/
theorem step_msb (poly crc : BitVec w) : step poly crc crc.msb = crc <<< 1 := by
  rw [step, Bool.xor_self, if_neg Bool.false_ne_true, BitVec.xor_zero]

/-! ## Bits that lead to zero -/

/-- A word that is shifted to zero has no low bits. -/
theorem getLsbD_of_shiftLeft_eq_zero {x : BitVec w} {n i : Nat} (gone : x <<< n = 0#w)
    (inside : i + n < w) : x.getLsbD i = false := by
  have bit := congrArg (fun y => y.getLsbD (i + n)) gone
  rw [BitVec.getLsbD_shiftLeft, decide_eq_true inside, decide_eq_false (by omega),
    Nat.add_sub_cancel, BitVec.getLsbD_zero] at bit
  simpa using bit

/-- A first bit that is followed by less than a register of bits leads to zero only
without feedback. -/
theorem eq_msb_of_step_gone {poly : BitVec w} (constant : poly.getLsbD 0 = true)
    {crc : BitVec w} {bit : Bool} {n : Nat} (short : n < w)
    (gone : step poly crc bit <<< n = 0#w) : bit = crc.msb := by
  have low := getLsbD_of_shiftLeft_eq_zero gone (i := 0) (by omega)
  rw [getLsbD_zero_step constant] at low
  cases bit with
  | false => rw [Bool.xor_false] at low; exact low.symm
  | true => rw [Bool.xor_true, Bool.not_eq_false'] at low; exact low.symm

/-- **The bits that lead a register to zero are its own**, and the rest of it is zero. -/
theorem feed_eq_zero_iff {poly : BitVec w} (constant : poly.getLsbD 0 = true) (crc : BitVec w)
    (bits : List Bool) (short : bits.length ≤ w) :
    feed poly crc bits = 0#w ↔
      crc <<< bits.length = 0#w ∧ ∀ i < bits.length, bits[i]? = some (crc.getMsbD i) := by
  induction bits generalizing crc with
  | nil => simp
  | cons bit bits ih =>
      have short' : bits.length < w := short
      have shifted : crc <<< (bit :: bits).length = (crc <<< 1) <<< bits.length := by
        rw [List.length_cons, Nat.add_comm, BitVec.shiftLeft_add]
      -- Behind the first bit the register has moved on by one place.
      have moved : ∀ i, i < bits.length → (crc <<< 1).getMsbD i = crc.getMsbD (i + 1) := by
        intro i inside
        rw [BitVec.getMsbD_shiftLeft, Nat.add_comm]
      rw [feed_cons, ih _ (by omega), shifted]
      constructor
      · rintro ⟨gone, same⟩
        have head := eq_msb_of_step_gone constant short' gone
        rw [head, step_msb] at gone same
        refine ⟨gone, ?_⟩
        intro i inside
        cases i with
        | zero => rw [List.getElem?_cons_zero, head, BitVec.msb_eq_getMsbD_zero]
        | succ i =>
            have inside' : i < bits.length := Nat.lt_of_succ_lt_succ inside
            rw [List.getElem?_cons_succ, same i inside', moved i inside']
      · rintro ⟨gone, same⟩
        have head := same 0 (Nat.succ_pos _)
        rw [List.getElem?_cons_zero, ← BitVec.msb_eq_getMsbD_zero] at head
        rw [Option.some.inj head, step_msb]
        refine ⟨gone, ?_⟩
        intro i inside
        rw [moved i inside, ← same (i + 1) (Nat.succ_lt_succ inside), List.getElem?_cons_succ]

theorem eq_msbFirst_iff (x : BitVec w) {bits : List Bool} (whole : bits.length = w) :
    bits = msbFirst x ↔ ∀ i < w, bits[i]? = some (x.getMsbD i) := by
  constructor
  · rintro rfl i inside
    exact getElem?_msbFirst x inside
  · intro same
    apply List.ext_getElem?
    intro i
    rcases Nat.lt_or_ge i w with inside | beyond
    · rw [same i inside, getElem?_msbFirst x inside]
    · rw [List.getElem?_eq_none (by omega), List.getElem?_eq_none (by simpa using beyond)]

theorem msbFirst_injective : Function.Injective (msbFirst : BitVec w → List Bool) := by
  intro x y same
  apply BitVec.eq_of_getMsbD_eq
  intro i inside
  have bit := congrArg (fun bits => bits[i]?) same
  rw [getElem?_msbFirst x inside, getElem?_msbFirst y inside] at bit
  exact Option.some.inj bit

/-- The bits of words one after the other, by their place. -/
theorem flatMap_msbFirst (word : Nat → BitVec w) (m : Nat) :
    (List.range m).flatMap (fun k => msbFirst (word k)) =
      (List.range (m * w)).map fun i => (word (i / w)).getMsbD (i % w) := by
  induction m with
  | zero => rw [Nat.zero_mul]; rfl
  | succ m ih =>
      rw [List.range_succ, List.flatMap_append, ih, List.flatMap_singleton, Nat.succ_mul,
        List.range_add, List.map_append, List.map_map]
      congr 1
      apply List.ext_getElem?
      intro i
      rcases Nat.lt_or_ge i w with inside | beyond
      · have quotient : (m * w + i) / w = m := by
          rw [Nat.mul_comm, Nat.mul_add_div (by omega), Nat.div_eq_of_lt inside, Nat.add_zero]
        have remainder : (m * w + i) % w = i := by
          rw [Nat.mul_comm, Nat.mul_add_mod, Nat.mod_eq_of_lt inside]
        rw [getElem?_msbFirst _ inside, List.getElem?_map, List.getElem?_range inside,
          Option.map_some, Function.comp_apply, quotient, remainder]
      · rw [List.getElem?_eq_none (by simpa using beyond),
          List.getElem?_eq_none (by simpa using beyond)]

/-- **A message and a check lead to zero exactly when the check is the register that the
message leaves.** -/
theorem feed_append_eq_zero_iff {poly : BitVec w} (constant : poly.getLsbD 0 = true)
    (crc : BitVec w) (message : List Bool) {check : List Bool} (whole : check.length = w) :
    feed poly crc (message ++ check) = 0#w ↔ check = msbFirst (feed poly crc message) := by
  rw [feed_append, feed_eq_zero_iff constant _ _ whole.le, eq_msbFirst_iff _ whole, whole,
    BitVec.shiftLeft_eq_zero le_rfl]
  exact ⟨fun both => both.2, fun same => ⟨rfl, same⟩⟩

end OrpsocCores.Crc
