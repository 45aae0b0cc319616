import OrpsocCores.Foundation.WordMemory

/-!
# Ranges of a byte-addressed memory

Reading and writing consecutive bytes.  A program that accesses a range in pieces,
bytes here and words there, is compared with one access to the whole: ranges that
follow each other make one (`writeRange_append`, `readRange_append`), a byte is a
range (`update_eq_writeRange`) and so is a word, its most significant byte first
(`writeWord_eq_writeRange`, `readRange_four`).  Addresses wrap around, so that a
range is never longer than the address space.
-/

set_option autoImplicit false

namespace OrpsocCores

/-! ## Writing -/

/-- The memory with the first `n` bytes of the data written from an address on. -/
def writeRange (memory : Memory) (a : BitVec 32) (data : Nat → BitVec 8) (n : Nat) : Memory :=
  fun x => if (x - a).toNat < n then data (x - a).toNat else memory x

@[simp] theorem writeRange_zero (memory : Memory) (a : BitVec 32) (data : Nat → BitVec 8) :
    writeRange memory a data 0 = memory := by
  funext x
  exact if_neg (Nat.not_lt_zero _)

/-- What is written. -/
theorem writeRange_inside {memory : Memory} {a : BitVec 32} {data : Nat → BitVec 8} {n i : Nat}
    (inside : i < n) (small : n ≤ 2 ^ 32) :
    writeRange memory a data n (a + BitVec.ofNat 32 i) = data i := by
  have offset : (a + BitVec.ofNat 32 i - a).toNat = i := by
    bv_omega
  rw [writeRange, offset, if_pos inside]

/-- What is left alone. -/
theorem writeRange_outside {memory : Memory} {a x : BitVec 32} {data : Nat → BitVec 8} {n : Nat}
    (outside : ∀ i < n, x ≠ a + BitVec.ofNat 32 i) : writeRange memory a data n x = memory x := by
  rw [writeRange, if_neg]
  intro inside
  apply outside _ inside
  bv_omega

/-- Only the bytes of the range matter. -/
theorem writeRange_congr {memory : Memory} {a : BitVec 32} {data data' : Nat → BitVec 8} {n : Nat}
    (same : ∀ i < n, data i = data' i) :
    writeRange memory a data n = writeRange memory a data' n := by
  funext x
  unfold writeRange
  split
  · next inside => exact same _ inside
  · rfl

/-- Ranges that follow each other. -/
theorem writeRange_append {memory : Memory} {a : BitVec 32} {data : Nat → BitVec 8} {n k : Nat}
    (small : n + k ≤ 2 ^ 32) :
    writeRange (writeRange memory a data n) (a + BitVec.ofNat 32 n) (fun i => data (n + i)) k =
      writeRange memory a data (n + k) := by
  funext x
  unfold writeRange
  by_cases first : (x - a).toNat < n
  · have before : ¬ (x - (a + BitVec.ofNat 32 n)).toNat < k := by
      bv_omega
    rw [if_neg before, if_pos first, if_pos (by omega)]
  · by_cases second : (x - a).toNat < n + k
    · have offset : (x - (a + BitVec.ofNat 32 n)).toNat = (x - a).toNat - n := by
        bv_omega
      have place : n + ((x - a).toNat - n) = (x - a).toNat := by omega
      rw [offset, if_pos (by omega), if_pos second]
      exact congrArg data place
    · have behind : ¬ (x - (a + BitVec.ofNat 32 n)).toNat < k := by
        bv_omega
      rw [if_neg behind, if_neg first, if_neg second]

/-- A byte is a range. -/
theorem update_eq_writeRange (memory : Memory) (a : BitVec 32) (data : Nat → BitVec 8) :
    Function.update memory a (data 0) = writeRange memory a data 1 := by
  funext x
  by_cases here : x = a
  · subst here
    simp [writeRange]
  · have away : ¬ (x - a).toNat < 1 := by
      bv_omega
    rw [Function.update_of_ne here, writeRange, if_neg away]

/-- The byte of a word at this place of the memory. -/
def wordByte (word : BitVec 32) (i : Nat) : BitVec 8 := word.extractLsb' (8 * (3 - i)) 8

/-- A word is a range. -/
theorem writeWord_eq_writeRange (memory : Memory) (a word : BitVec 32) :
    writeWord memory a word = writeRange memory a (wordByte word) 4 := rfl

/-- Words one after the other. -/
theorem foldl_writeWord (memory : Memory) (a : BitVec 32) (words : Nat → BitVec 32) {n : Nat}
    (small : 4 * n ≤ 2 ^ 32) :
    (List.range n).foldl
        (fun memory i => writeWord memory (a + BitVec.ofNat 32 (4 * i)) (words i)) memory =
      writeRange memory a (fun i => wordByte (words (i / 4)) (i % 4)) (4 * n) := by
  induction n with
  | zero => exact (writeRange_zero memory a _).symm
  | succ n ih =>
      have longer : 4 * (n + 1) = 4 * n + 4 := by omega
      rw [List.range_succ, List.foldl_append, ih (by omega), longer,
        ← writeRange_append (by omega)]
      simp only [List.foldl_cons, List.foldl_nil, writeWord_eq_writeRange]
      apply writeRange_congr
      intro i inside
      have place : (4 * n + i) / 4 = n ∧ (4 * n + i) % 4 = i := by omega
      rw [place.1, place.2]

/-- A range is written exactly if every byte of it has its value and no other byte has
changed. -/
structure WrittenExactly (memory memory' : Memory) (a : BitVec 32) (bytes : List (BitVec 8)) :
    Prop where
  written : ∀ i, ∀ inside : i < bytes.length, memory' (a + BitVec.ofNat 32 i) = bytes[i]
  kept : ∀ x, (∀ i < bytes.length, x ≠ a + BitVec.ofNat 32 i) → memory' x = memory x

/-- **When a write leaves the wanted bytes behind.**  A write of as many bytes does if
it writes those bytes; one of fewer bytes does if the others are there already. -/
theorem writtenExactly_writeRange {memory : Memory} {a : BitVec 32} {data : Nat → BitVec 8}
    {n : Nat} {bytes : List (BitVec 8)} (short : n ≤ bytes.length)
    (small : bytes.length ≤ 2 ^ 32) :
    WrittenExactly memory (writeRange memory a data n) a bytes ↔
      ∀ i, ∀ inside : i < bytes.length,
        (if i < n then data i else memory (a + BitVec.ofNat 32 i)) = bytes[i] := by
  have value : ∀ i, i < bytes.length → writeRange memory a data n (a + BitVec.ofNat 32 i) =
      if i < n then data i else memory (a + BitVec.ofNat 32 i) := by
    intro i inside
    split
    · next first => exact writeRange_inside first (by omega)
    · next behind =>
        apply writeRange_outside
        intro k first same
        have : k = i := by
          bv_omega
        omega
  constructor
  · intro exact i inside
    rw [← value i inside]
    exact exact.written i inside
  · intro same
    refine ⟨fun i inside => (value i inside).trans (same i inside), fun x outside => ?_⟩
    exact writeRange_outside fun i first => outside i (by omega)

/-! ## Reading -/

/-- The bytes from an address on. -/
def readRange (memory : Memory) (a : BitVec 32) (n : Nat) : List (BitVec 8) :=
  (List.range n).map fun i => memory (a + BitVec.ofNat 32 i)

@[simp] theorem readRange_length (memory : Memory) (a : BitVec 32) (n : Nat) :
    (readRange memory a n).length = n := by
  simp [readRange]

/-- Ranges that follow each other. -/
theorem readRange_append (memory : Memory) (a : BitVec 32) (n k : Nat) :
    readRange memory a (n + k) =
      readRange memory a n ++ readRange memory (a + BitVec.ofNat 32 n) k := by
  rw [readRange, List.range_add, List.map_append, List.map_map]
  congr 1
  apply List.map_congr_left
  intro i _
  rw [Function.comp_apply, BitVec.ofNat_add, BitVec.add_assoc]

theorem readRange_succ (memory : Memory) (a : BitVec 32) (n : Nat) :
    readRange memory a (n + 1) = memory a :: readRange memory (a + 1) n := by
  rw [Nat.add_comm, readRange_append]
  simp [readRange]

/-- A range of whole words. -/
theorem readRange_words (memory : Memory) (a : BitVec 32) (n : Nat) :
    readRange memory a (4 * n) =
      (List.range n).flatMap fun i => readRange memory (a + BitVec.ofNat 32 (4 * i)) 4 := by
  induction n with
  | zero => rfl
  | succ n ih =>
      rw [Nat.mul_succ, readRange_append, ih, List.range_succ, List.flatMap_append]
      simp

/-- The bytes of a word, in the order of their addresses. -/
theorem readRange_four (memory : Memory) (a : BitVec 32) :
    readRange memory a 4 = (lanes (readWord memory a)).reverse := by
  rw [lanes, lane_readWord, lane_readWord, lane_readWord, lane_readWord]
  rfl

end OrpsocCores
