import Mathlib.Algebra.Ring.Int.Defs
import Mathlib.Algebra.Ring.Nat
import Mathlib.Logic.Function.Basic
import Mathlib.Tactic.Common
import Mathlib.Tactic.IntervalCases

/-!
# Byte stores behind 32-bit words

A memory with byte selects is, to its users, a store of bytes: a write sets the
selected bytes of a word and leaves every other byte alone.  `ByteStore` is that
store, over any type of word addresses.  The memories of the cores hold 32-bit
words and merge the selected lanes of the data into them (`merge`);
`Represents.update` says that this merge is the store's write.
-/

set_option autoImplicit false

namespace OrpsocCores

universe u

variable {α : Type u} [DecidableEq α]

instance lanes_neZero : NeZero 4 := ⟨by decide⟩

/-- One byte of a word, lane zero the least significant. -/
def lane (word : BitVec 32) (b : Fin 4) : BitVec 8 := word.extractLsb' (8 * b) 8

/-- The bytes of a word, the least significant one first. -/
def lanes (word : BitVec 32) : List (BitVec 8) := [lane word 0, lane word 1, lane word 2, lane word 3]

/-- The lane of a word that a write with these byte selects leaves behind. -/
def mergeLane (sel : BitVec 4) (data word : BitVec 32) (b : Fin 4) : BitVec 8 :=
  if sel.getLsbD b then lane data b else lane word b

/-- The selected lanes of the data over the word. -/
def merge (sel : BitVec 4) (data word : BitVec 32) : BitVec 32 :=
  mergeLane sel data word 3 ++ mergeLane sel data word 2 ++ mergeLane sel data word 1 ++
    mergeLane sel data word 0

/-- A lane of four concatenated bytes. -/
theorem lane_append (bytes : Fin 4 → BitVec 8) (b : Fin 4) :
    lane (bytes 3 ++ bytes 2 ++ bytes 1 ++ bytes 0) b = bytes b := by
  apply BitVec.eq_of_getLsbD_eq
  intro i inside
  rw [lane, BitVec.getLsbD_extractLsb']
  simp only [BitVec.getLsbD_append, inside, decide_true, Bool.true_and]
  obtain ⟨b, bound⟩ := b
  interval_cases b
  · simp [inside]
  · simp [inside]
  · simp [inside, show ¬ 16 + i < 8 by omega, show 16 + i - 8 = 8 + i by omega]
  · simp [show ¬ 24 + i < 8 by omega, show 24 + i - 8 = 16 + i by omega,
      show ¬ 16 + i < 8 by omega, show 16 + i - 8 = 8 + i by omega]

theorem lane_merge (sel : BitVec 4) (data word : BitVec 32) (b : Fin 4) :
    lane (merge sel data word) b = mergeLane sel data word b :=
  lane_append (mergeLane sel data word) b

/-- A word is determined by its lanes. -/
theorem eq_of_lane_eq {x y : BitVec 32} (same : ∀ b, lane x b = lane y b) : x = y := by
  apply BitVec.eq_of_getLsbD_eq
  intro i inside
  have bit := congrArg (fun byte => byte.getLsbD (i % 8)) (same ⟨i / 8, by omega⟩)
  simpa [lane, Nat.mod_lt, Nat.div_add_mod] using bit

/-- With all lanes selected nothing of the word is left. -/
theorem merge_full (data word : BitVec 32) : merge 0xf data word = data := by
  have selected : ∀ b : Fin 4, (0xf : BitVec 4).getLsbD b = true := by decide
  refine eq_of_lane_eq fun b => ?_
  rw [lane_merge, mergeLane, if_pos (selected b)]

/-- A store of bytes, four to a word address. -/
def ByteStore (α : Type u) : Type u := α → Fin 4 → BitVec 8

namespace ByteStore

/-- Write the selected bytes of a word. -/
def write (store : ByteStore α) (a : α) (sel : BitVec 4) (data : BitVec 32) : ByteStore α :=
  fun a' b => if a' = a ∧ sel.getLsbD b then lane data b else store a' b

/-- The words of a memory hold the bytes of a store. -/
def Represents (mem : α → BitVec 32) (store : ByteStore α) : Prop :=
  ∀ a b, lane (mem a) b = store a b

/-- The bytes of a memory. -/
def ofWords (mem : α → BitVec 32) : ByteStore α := fun a b => lane (mem a) b

omit [DecidableEq α] in
theorem represents_ofWords (mem : α → BitVec 32) : Represents mem (ofWords mem) :=
  fun _ _ => rfl

/-- **Merging the selected lanes into a word is the store's write.** -/
theorem Represents.update {mem : α → BitVec 32} {store : ByteStore α}
    (represents : Represents mem store) (a : α) (sel : BitVec 4) (data : BitVec 32) :
    Represents (Function.update mem a (merge sel data (mem a))) (store.write a sel data) := by
  intro a' b
  by_cases here : a' = a
  · subst here
    rw [Function.update_self, lane_merge, mergeLane, write, represents]
    simp
  · rw [Function.update_of_ne here, write, represents]
    simp [here]

end ByteStore

end OrpsocCores
