import Mathlib.Algebra.Ring.Int.Defs
import Mathlib.Algebra.Ring.Nat
import Mathlib.Data.List.Induction
import Mathlib.Data.Nat.Size
import Mathlib.Tactic.Common

/-!
# The functions of `verilog_utils.vh`

The functions take and return 32-bit integers.  A bit of an argument beyond the
integer's width is undefined and counts as clear in a condition.

`reverse_bits` and `reverse_bytes` move bits without looking at them, so that their integers
have bits of four values.  `reversals_iff` says when they reverse.
-/

set_option autoImplicit false

namespace OrpsocCores.VerilogUtils

/-- `clog2`: how often `in - 1` can be shifted before it is zero. -/
def clog2 (n : Nat) : Nat := Nat.size (n - 1)

theorem le_two_pow_clog2 (n : Nat) : n ≤ 2 ^ clog2 n := by
  have bound : n - 1 < 2 ^ clog2 n := Nat.lt_size_self (n - 1)
  omega

/-- The loop of `ff1`, from bit `i - 1` downwards; a later assignment wins. -/
def ff1Loop (x : BitVec 32) : Nat → Nat → Nat
  | 0, found => found
  | i + 1, found => ff1Loop x i (if x.getLsbD i then i else found)

/-- `ff1`. -/
def ff1 (x : BitVec 32) (width : Nat) : Nat := ff1Loop x width 0

/-- The loop finds the lowest set bit, or keeps what it had. -/
theorem ff1Loop_spec (x : BitVec 32) (n found : Nat) :
    (x.getLsbD (ff1Loop x n found) = true ∧ ff1Loop x n found < n ∧
        ∀ j < ff1Loop x n found, x.getLsbD j = false) ∨
      (ff1Loop x n found = found ∧ ∀ j < n, x.getLsbD j = false) := by
  induction n generalizing found with
  | zero => exact Or.inr ⟨rfl, fun j below => absurd below (Nat.not_lt_zero j)⟩
  | succ n ih =>
      rw [ff1Loop]
      rcases ih (if x.getLsbD n then n else found) with ⟨set, below, first⟩ | ⟨kept, clear⟩
      · exact Or.inl ⟨set, Nat.lt_succ_of_lt below, first⟩
      · cases bit : x.getLsbD n with
        | true =>
            simp only [bit, if_true] at kept
            refine Or.inl ?_
            simp only [if_true, kept]
            exact ⟨bit, Nat.lt_succ_self n, clear⟩
        | false =>
            simp only [bit, Bool.false_eq_true, if_false] at kept
            refine Or.inr ⟨by simpa using kept, fun j below => ?_⟩
            rcases Nat.lt_succ_iff_lt_or_eq.mp below with lower | rfl
            · exact clear j lower
            · exact bit

/-- **A set bit is the one `ff1` finds exactly when every lower bit is clear.** -/
theorem ff1_eq_iff {x : BitVec 32} {width i : Nat} (set : x.getLsbD i = true) (inside : i < width) :
    ff1 x width = i ↔ ∀ j < i, x.getLsbD j = false := by
  have spec := ff1Loop_spec x width 0
  rw [← ff1] at spec
  rcases spec with ⟨found, -, first⟩ | ⟨-, clear⟩
  · constructor
    · intro same j below
      rw [← same] at below
      exact first j below
    · intro lowest
      rcases Nat.lt_trichotomy (ff1 x width) i with less | same | more
      · rw [lowest _ less] at found
        cases found
      · exact same
      · rw [first i more] at set
        cases set
  · rw [clear i inside] at set
    cases set

theorem ff1_lt {x : BitVec 32} {width : Nat} (positive : 0 < width) : ff1 x width < width := by
  rcases ff1Loop_spec x width 0 with ⟨-, below, -⟩ | ⟨zero, -⟩
  · exact below
  · rw [ff1, zero]
    exact positive

/-! ## Reversal -/

/-- A bit of a four-valued vector. -/
inductive Bit where
  | zero
  | one
  | x
  | z
  deriving DecidableEq, Repr

/-- An `integer`, the least significant bit first. -/
abbrev Integer := Vector Bit 32

namespace Integer

/-- A bit of an integer; outside of it there is none to be read. -/
def bit (r : Integer) (index : Nat) : Bit := r[index]?.getD .x

/-- An assignment to a bit; outside of the integer it has no effect. -/
def assign (r : Integer) (write : Int × Bit) : Integer :=
  if 0 ≤ write.1 then r.setIfInBounds write.1.toNat write.2 else r

theorem bit_assign (r : Integer) (write : Int × Bit) {j : Nat} (inside : j < 32) :
    (r.assign write).bit j = if write.1 = j then write.2 else r.bit j := by
  obtain ⟨index, b⟩ := write
  by_cases here : index = j
  · subst here
    simp [assign, bit, inside]
  · have other : 0 ≤ index → index.toNat ≠ j := by omega
    rw [if_neg here, assign]
    split
    case isTrue positive => simp [bit, Vector.getElem?_setIfInBounds_ne (other positive)]
    case isFalse => rfl

/-- What some assignments make of an integer. -/
def assigned (writes : List (Int × Bit)) (r : Integer) : Integer := writes.foldl assign r

/-- A bit after assignments that agree on it. -/
theorem bit_assigned {writes : List (Int × Bit)} {j : Nat} (inside : j < 32) {b : Bit}
    (agree : ∀ write ∈ writes, write.1 = j → write.2 = b) (r : Integer) :
    (assigned writes r).bit j = if ∃ write ∈ writes, write.1 = j then b else r.bit j := by
  induction writes using List.reverseRecOn with
  | nil => simp [assigned]
  | append_singleton front write ih =>
      have before := ih fun write' visited => agree write' (List.mem_append_left _ visited)
      rw [assigned, List.foldl_append, List.foldl_cons, List.foldl_nil, bit_assign _ _ inside]
      rw [assigned] at before
      by_cases here : write.1 = j
      · have some : ∃ write' ∈ front ++ [write], write'.1 = j := ⟨write, by simp, here⟩
        rw [if_pos here, if_pos some]
        exact agree write (by simp) here
      · rw [if_neg here, before]
        refine if_congr ?_ rfl rfl
        simp [here]

end Integer

/-- The assignments of `reverse_bits`: `reverse_bits[width-i] = in[i]`. -/
def bitWrites (width : Nat) (inp : Integer) : List (Int × Bit) :=
  (List.range width).map fun (i : Nat) => ((width : Int) - i, inp.bit i)

/-- The assignments of `reverse_bytes`: `reverse_bytes[(width-1)-i-:8] = in[i+:8]`, for every
eighth `i`. -/
def byteWrites (width : Nat) (inp : Integer) : List (Int × Bit) :=
  (List.range ((width + 7) / 8)).flatMap fun (n : Nat) =>
    let i := 8 * n
    (List.range 8).map fun (k : Nat) => ((width : Int) - 1 - i - 7 + k, inp.bit (i + k))

/-- `reverse_bits`.  The result variable is static: `before` is what the last call has left in
it, and it is undefined before the first one. -/
def reverseBits (width : Nat) (before inp : Integer) : Integer :=
  Integer.assigned (bitWrites width inp) before

/-- `reverse_bytes`. -/
def reverseBytes (width : Nat) (before inp : Integer) : Integer :=
  Integer.assigned (byteWrites width inp) before

section Reversal

variable {before inp : Integer} {width j : Nat}

theorem bit_reverseBits (inside : j < 32) :
    (reverseBits width before inp).bit j =
      if 0 < j ∧ j ≤ width then inp.bit (width - j) else before.bit j := by
  have agree : ∀ write ∈ bitWrites width inp, write.1 = j → write.2 = inp.bit (width - j) := by
    rintro ⟨index, b⟩ visited here
    obtain ⟨i, below, same⟩ := List.mem_map.mp visited
    obtain ⟨rfl, rfl⟩ := Prod.mk.inj same
    have source : i = width - j := by
      rw [List.mem_range] at below
      dsimp only at here
      omega
    exact congrArg inp.bit source
  rw [reverseBits, Integer.bit_assigned inside agree]
  refine if_congr ?_ rfl rfl
  constructor
  · rintro ⟨write, visited, here⟩
    obtain ⟨i, below, rfl⟩ := List.mem_map.mp visited
    rw [List.mem_range] at below
    dsimp only at here
    omega
  · rintro ⟨positive, small⟩
    refine ⟨_, List.mem_map.mpr ⟨width - j, List.mem_range.mpr (by omega), rfl⟩, ?_⟩
    dsimp only
    omega

theorem bit_reverseBytes (whole : 8 ∣ width) (small : width ≤ 32) (inside : j < width) :
    (reverseBytes width before inp).bit j = inp.bit (width - 8 - 8 * (j / 8) + j % 8) := by
  have agree : ∀ write ∈ byteWrites width inp, write.1 = j →
      write.2 = inp.bit (width - 8 - 8 * (j / 8) + j % 8) := by
    rintro ⟨index, b⟩ visited here
    obtain ⟨n, below, inByte⟩ := List.mem_flatMap.mp visited
    obtain ⟨k, small, same⟩ := List.mem_map.mp inByte
    obtain ⟨rfl, rfl⟩ := Prod.mk.inj same
    rw [List.mem_range] at below small
    dsimp only at here
    exact congrArg inp.bit (by omega)
  have some : ∃ write ∈ byteWrites width inp, write.1 = j := by
    refine ⟨_, List.mem_flatMap.mpr ⟨width / 8 - 1 - j / 8, List.mem_range.mpr (by omega),
      List.mem_map.mpr ⟨j % 8, List.mem_range.mpr (by omega), rfl⟩⟩, ?_⟩
    dsimp only
    omega
  rw [reverseBytes, Integer.bit_assigned (by omega) agree, if_pos some]

/-- What a reversal is to do: in units of so many bits, the first one becomes the last one.
Applied to its result it gives the low bits of the input back, and every index at which it
writes is one of an integer. -/
structure Reverses (unit width : Nat) (writes : Integer → List (Int × Bit))
    (before inp : Integer) : Prop where
  maps : ∀ i < width / unit, ∀ k < unit,
    (Integer.assigned (writes inp) before).bit (unit * (width / unit - 1 - i) + k) =
      inp.bit (unit * i + k)
  again : ∀ i < width,
    let once := Integer.assigned (writes inp) before
    (Integer.assigned (writes once) once).bit i = inp.bit i
  inside : ∀ write ∈ writes inp, 0 ≤ write.1 ∧ write.1 < 32

/-- **`reverse_bits` is one place off**: it reverses only bits that are all alike, and like what
bit zero of its result has been before. -/
theorem reverses_bits_iff (positive : 0 < width) (small : width ≤ 32) :
    Reverses 1 width (bitWrites width) before inp ↔
      width < 32 ∧ ∀ i < width, inp.bit i = before.bit 0 := by
  constructor
  · intro reverses
    have first : ((width : Int), inp.bit 0) ∈ bitWrites width inp :=
      List.mem_map.mpr ⟨0, List.mem_range.mpr positive, by simp⟩
    have short : width < 32 := by
      have inside := (reverses.inside _ first).2
      dsimp only at inside
      omega
    have maps : ∀ i < width, (reverseBits width before inp).bit (width - 1 - i) = inp.bit i := by
      intro i below
      have unit := reverses.maps i (by omega) 0 Nat.one_pos
      simpa [reverseBits] using unit
    -- from the last bit on, each bit is the one above it
    have last : inp.bit (width - 1) = before.bit 0 := by
      rw [← maps (width - 1) (by omega), Nat.sub_self, bit_reverseBits (by decide),
        if_neg (fun both => Nat.lt_irrefl 0 both.1)]
    have alike : ∀ n < width, inp.bit (width - 1 - n) = before.bit 0 := by
      intro n
      induction n with
      | zero => exact fun _ => last
      | succ n ih =>
          intro below
          have above : width - 1 - (width - 1 - (n + 1)) = n + 1 := by omega
          rw [← maps (width - 1 - (n + 1)) (by omega), above, bit_reverseBits (by omega),
            if_pos (by omega), ← ih (by omega)]
          congr 1
          omega
    refine ⟨short, fun i below => ?_⟩
    have counted : width - 1 - (width - 1 - i) = i := by omega
    rw [← alike (width - 1 - i) (by omega), counted]
  · rintro ⟨short, alike⟩
    have once : ∀ j < width, (reverseBits width before inp).bit j = before.bit 0 := by
      intro j below
      rw [bit_reverseBits (by omega)]
      split
      · exact alike _ (by omega)
      · have first : j = 0 := by omega
        rw [first]
    constructor
    case maps =>
        intro i below k unit
        obtain rfl : k = 0 := by omega
        rw [Nat.div_one] at below ⊢
        rw [← reverseBits, once _ (by omega), alike _ (by omega)]
    case again =>
        intro i below
        dsimp only
        rw [← reverseBits, ← reverseBits, bit_reverseBits (by omega), alike i below]
        split
        · exact once _ (by omega)
        · exact once i below
    case inside =>
        intro write visited
        obtain ⟨i, below, rfl⟩ := List.mem_map.mp visited
        rw [List.mem_range] at below
        dsimp only
        omega

theorem reverses_bytes (whole : 8 ∣ width) (small : width ≤ 32) :
    Reverses 8 width (byteWrites width) before inp := by
  constructor
  case maps =>
      intro i below k unit
      rw [← reverseBytes, bit_reverseBytes whole small (by omega)]
      congr 1
      omega
  case again =>
      intro i below
      dsimp only
      rw [← reverseBytes, ← reverseBytes, bit_reverseBytes whole small below,
        bit_reverseBytes whole small (by omega)]
      congr 1
      omega
  case inside =>
      intro write visited
      obtain ⟨n, below, inByte⟩ := List.mem_flatMap.mp visited
      obtain ⟨k, unit, rfl⟩ := List.mem_map.mp inByte
      rw [List.mem_range] at below unit
      dsimp only
      omega

/-- **`reverse_bytes` reverses, `reverse_bits` only where there is nothing to reverse.** -/
theorem reversals_iff (before inp : Integer) (positive : 0 < width) (small : width ≤ 32) :
    (Reverses 1 width (bitWrites width) before inp ↔
        width < 32 ∧ ∀ i < width, inp.bit i = before.bit 0) ∧
      (8 ∣ width → Reverses 8 width (byteWrites width) before inp) :=
  ⟨reverses_bits_iff positive small, fun whole => reverses_bytes whole small⟩

end Reversal

/-- An integer of which no bit has been assigned. -/
def undefined : Integer := Vector.replicate 32 .x

/-- The integer one. -/
def one : Integer := (Vector.replicate 32 .zero).setIfInBounds 0 .one

theorem reversals_iff_one :
    Reverses 1 8 (bitWrites 8) (Vector.replicate 32 .zero) (Vector.replicate 32 .zero) ∧
      Reverses 8 16 (byteWrites 16) undefined one :=
  ⟨(reversals_iff _ _ (by decide) (by decide)).1.mpr (by decide),
    (reversals_iff _ _ (by decide) (by decide)).2 (by decide)⟩

/-- The one is put one place too high. -/
theorem reverseBits_one :
    ¬ ∀ (before inp : Integer) (width : Nat), 0 < width → width ≤ 32 →
      Reverses 1 width (bitWrites width) before inp := by
  intro claim
  have reverses := claim undefined one 8 (by decide) (by decide)
  exact absurd (reverses.maps 0 (by decide) 0 (by decide)) (by decide)

end OrpsocCores.VerilogUtils
