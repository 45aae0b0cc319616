import OrpsocCores.Foundation.ByteStore

/-!
# The words of a byte-addressed memory

A memory of bytes with 32-bit addresses, read and written in words of four
bytes, the most significant one first.  Words at different aligned addresses do
not overlap (`readWord_writeWord_of_ne`), and the aligned words determine the
memory (`eq_of_words`).
-/

set_option autoImplicit false

namespace OrpsocCores

/-- A memory of bytes. -/
abbrev Memory := BitVec 32 → BitVec 8

/-- The address is the address of a word. -/
def Aligned (a : BitVec 32) : Prop := a.toNat % 4 = 0

instance (a : BitVec 32) : Decidable (Aligned a) := inferInstanceAs (Decidable (_ = _))

/-- The word at an address. -/
def readWord (memory : Memory) (a : BitVec 32) : BitVec 32 :=
  memory a ++ memory (a + 1) ++ memory (a + 2) ++ memory (a + 3)

/-- The memory with a word written. -/
def writeWord (memory : Memory) (a word : BitVec 32) : Memory := fun x =>
  if (x - a).toNat < 4 then word.extractLsb' (8 * (3 - (x - a).toNat)) 8 else memory x

theorem lane_readWord (memory : Memory) (a : BitVec 32) (b : Fin 4) :
    lane (readWord memory a) b = memory (a + BitVec.ofNat 32 (3 - b.val)) := by
  have lanes := lane_append (fun b => memory (a + BitVec.ofNat 32 (3 - b.val))) b
  simpa [readWord, show ((3 : Fin 4) : Nat) = 3 from rfl] using lanes

@[simp] theorem readWord_writeWord_self (memory : Memory) (a word : BitVec 32) :
    readWord (writeWord memory a word) a = word := by
  apply eq_of_lane_eq
  intro b
  have offset : (a + BitVec.ofNat 32 (3 - b.val) - a).toNat = 3 - b.val := by
    bv_omega
  rw [lane_readWord, writeWord, offset, if_pos (by omega), lane]
  congr 1
  omega

theorem readWord_writeWord_of_ne {memory : Memory} {a a' word : BitVec 32} (aligned : Aligned a)
    (aligned' : Aligned a') (distinct : a' ≠ a) :
    readWord (writeWord memory a word) a' = readWord memory a' := by
  apply eq_of_lane_eq
  intro b
  have apart : ¬ (a' + BitVec.ofNat 32 (3 - b.val) - a).toNat < 4 := by
    intro near
    apply distinct
    unfold Aligned at aligned aligned'
    bv_omega
  rw [lane_readWord, lane_readWord, writeWord, if_neg apart]

theorem eq_of_words {memory memory' : Memory}
    (same : ∀ a, Aligned a → readWord memory a = readWord memory' a) : memory = memory' := by
  funext x
  have aligned : Aligned (x - BitVec.ofNat 32 (x.toNat % 4)) := by
    unfold Aligned
    bv_omega
  have lanes := congrArg (fun word => lane word (Fin.ofNat 4 (3 - x.toNat % 4))) (same _ aligned)
  have offset : x - BitVec.ofNat 32 (x.toNat % 4) +
      BitVec.ofNat 32 (3 - (Fin.ofNat 4 (3 - x.toNat % 4)).val) = x := by
    rw [Fin.val_ofNat]
    bv_omega
  simpa only [lane_readWord, offset] using lanes

end OrpsocCores
