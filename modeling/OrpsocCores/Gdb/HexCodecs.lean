import OrpsocCores.Gdb.HexWrite
import OrpsocCores.Gdb.MemoryRead

/-!
# The hexadecimal codecs

Registers travel as eight digits, `reg2hex` and `hex2reg`, and texts as two digits for a
character, `ascii2hex` and `hex2ascii`.  Each pair is looked at from both sides: what is
written is read back, and what is read and written again comes out in lower case
(`hex_codecs`).

A register is compared bit by bit: digit `n` has the bits from `28 - 4 * n` on
(`getLsbD_nibbles`).  For texts two digits are one character.
-/

set_option autoImplicit false

namespace OrpsocCores.Gdb

/-- A letter in lower case. -/
def lower (ch : Byte) : Byte := if chr 'A' ≤ ch ∧ ch ≤ chr 'Z' then ch + 32 else ch

/-- What is read from a buffer that a string has been written to; behind the terminator the
buffer holds what it held. -/
def reread (text behind : List Byte) : List Byte := cString (text ++ 0 :: behind)

/-- Two digits stand for a terminator. -/
def EncodesNul : List Byte → Prop
  | high :: low :: rest => (high = chr '0' ∧ low = chr '0') ∨ EncodesNul rest
  | _ => False

instance decidableEncodesNul : ∀ text : List Byte, Decidable (EncodesNul text)
  | [] => inferInstanceAs (Decidable False)
  | [_] => inferInstanceAs (Decidable False)
  | high :: low :: rest =>
      have := decidableEncodesNul rest
      inferInstanceAs (Decidable ((high = chr '0' ∧ low = chr '0') ∨ EncodesNul rest))

/-! ## One digit -/

theorem nibble_of_hexDigit {ch : Byte} {value : Fin 16} (has : HexDigit ch value) :
    nibble ch = value := by
  rw [nibble, hex_of_hexDigit ch value has]
  omega

/-- A digit is written in lower case. -/
theorem digit_eq_lower (ch : Byte) (isDigit : IsHexDigit ch) : digit (nibble ch) = lower ch := by
  have table : ∀ value : Fin 16, digit value.val = lower (chr (lowerDigits.get value)) ∧
      digit value.val = lower (chr (upperDigits.get value)) := by
    decide +kernel
  obtain ⟨value, has⟩ := isDigit
  rw [nibble_of_hexDigit has]
  rcases has with rfl | rfl
  · exact (table value).1
  · exact (table value).2

/-- The values of digits. -/
theorem hex_eq_nibble {ch : Byte} (isDigit : IsHexDigit ch) : hex ch = nibble ch := by
  obtain ⟨value, has⟩ := isDigit
  rw [nibble_of_hexDigit has, hex_of_hexDigit ch value has]

theorem nibble_digit {value : Nat} (small : value < 16) : nibble (digit value) = value :=
  nibble_of_hexDigit (digit_spec ⟨value, small⟩).2

/-- Only the digit zero has the value zero. -/
theorem nibble_eq_zero (ch : Byte) (isDigit : IsHexDigit ch) (zero : nibble ch = 0) :
    ch = chr '0' := by
  obtain ⟨value, has⟩ := isDigit
  have first : value = 0 := Fin.ext ((nibble_of_hexDigit has).symm.trans zero)
  rw [first] at has
  rcases has with rfl | rfl
  · rfl
  · rfl

theorem digit_ne_zero {value : Nat} (small : value < 16) : digit value ≠ 0 := by
  have all : ∀ value : Fin 16, digit value.val ≠ 0 := by decide +kernel
  exact all ⟨value, small⟩

/-! ## Registers -/

section Registers

variable {nib : Nat → BitVec 32}

/-- A number of four bits has no others. -/
theorem getLsbD_of_small {x : BitVec 32} (small : x.toNat < 16) {k : Nat} (high : 4 ≤ k) :
    x.getLsbD k = false := by
  have bound : x.toNat < 2 ^ k :=
    lt_of_lt_of_le small (Nat.pow_le_pow_right (by decide) high : 2 ^ 4 ≤ 2 ^ k)
  exact Nat.testBit_lt_two_pow bound

/-- The bits of the first digits. -/
theorem getLsbD_nibbles (small : ∀ n < 8, (nib n).toNat < 16) {m i : Nat} (rounds : m ≤ 8)
    (inside : i < 32) :
    ((List.range m).foldl (fun val n => val ||| nib n <<< (28 - n * 4)) 0).getLsbD i =
      (decide (7 - i / 4 < m) && (nib (7 - i / 4)).getLsbD (i % 4)) := by
  induction m with
  | zero => simp
  | succ m ih =>
      rw [List.range_succ, List.foldl_append, List.foldl_cons, List.foldl_nil, BitVec.getLsbD_or,
        ih (by omega), BitVec.getLsbD_shiftLeft]
      rcases Nat.lt_trichotomy (7 - i / 4) m with before | here | behind
      · -- the digit is too high for this bit
        have none : (nib m).getLsbD (i - (28 - m * 4)) = false :=
          getLsbD_of_small (small m (by omega)) (by omega)
        simp [before, Nat.lt_succ_of_lt before, none]
      · have place : i - (28 - m * 4) = i % 4 := by omega
        have reached : ¬ i < 28 - m * 4 := by omega
        simp [here, place, reached, inside]
      · have below : i < 28 - m * 4 := by omega
        have later : ¬ 7 - i / 4 < m := by omega
        have later' : ¬ 7 - i / 4 < m + 1 := by omega
        simp [below, later, later']

/-- The bits of a register that has been read from eight digits. -/
theorem getLsbD_hex2reg {src : Chars} (digits : ∀ n < 8, IsHexDigit (src n)) {i : Nat}
    (inside : i < 32) :
    (hex2reg src).getLsbD i = (nibble (src (7 - i / 4))).testBit (i % 4) := by
  have value : ∀ n < 8, (BitVec.ofInt 32 (hex (src n))).toNat = nibble (src n) := by
    intro n few
    have bound := nibble_lt (src n)
    rw [hex_eq_nibble (digits n few), BitVec.ofInt_natCast, BitVec.toNat_ofNat]
    omega
  have small : ∀ n < 8, (BitVec.ofInt 32 (hex (src n))).toNat < 16 := by
    intro n few
    rw [value n few]
    exact nibble_lt (src n)
  rw [hex2reg, getLsbD_nibbles small (Nat.le_refl 8) inside, BitVec.getLsbD, value _ (by omega),
    decide_eq_true (by omega), Bool.true_and]

/-- The value of a digit of a register. -/
theorem testBit_field (val : BitVec 32) (n : Nat) {k : Nat} (low : k < 4) :
    ((val >>> (28 - n * 4)) &&& 0xf).toNat.testBit k = val.getLsbD (28 - n * 4 + k) := by
  have mask : ∀ k < 4, (0xf : BitVec 32).getLsbD k = true := by decide
  show ((val >>> (28 - n * 4)) &&& 0xf).getLsbD k = _
  rw [BitVec.getLsbD_and, BitVec.getLsbD_ushiftRight, mask k low, Bool.and_true]

theorem field_lt (val : BitVec 32) (n : Nat) : ((val >>> (28 - n * 4)) &&& 0xf).toNat < 16 := by
  rw [BitVec.toNat_and]
  exact Nat.lt_succ_of_le Nat.and_le_right

/-- The digits of a register in a buffer. -/
theorem storeString_reg2hex (val : BitVec 32) (dest : Chars) {n : Nat} (few : n < 8) :
    storeString dest 0 (reg2hex val) n = digit ((val >>> (28 - n * 4)) &&& 0xf).toNat := by
  have inside : n < (reg2hex val).length := by rwa [reg2hex_length]
  rw [storeString, if_neg (Nat.not_lt_zero n), Nat.sub_zero, List.getElem?_append_left inside,
    reg2hex, List.getElem?_map, List.getElem?_range few]
  rfl

/-- A register is read back. -/
theorem hex2reg_reg2hex (val : BitVec 32) (dest : Chars) :
    hex2reg (storeString dest 0 (reg2hex val)) = val := by
  have isDigit : ∀ n < 8, IsHexDigit (storeString dest 0 (reg2hex val) n) := by
    intro n few
    rw [storeString_reg2hex val dest few]
    exact ⟨_, (digit_spec ⟨_, field_lt val n⟩).2⟩
  apply BitVec.eq_of_getLsbD_eq
  intro i inside
  rw [getLsbD_hex2reg isDigit inside, storeString_reg2hex val dest (by omega),
    nibble_digit (field_lt val _), testBit_field val _ (by omega)]
  congr 1
  omega

/-- Digits of a register are written in lower case. -/
theorem reg2hex_hex2reg {src : Chars} (digits : ∀ n < 8, IsHexDigit (src n)) :
    reg2hex (hex2reg src) = (List.range 8).map fun n => lower (src n) := by
  refine List.map_congr_left fun n member => ?_
  have few : n < 8 := List.mem_range.mp member
  have value : ((hex2reg src >>> (28 - n * 4)) &&& 0xf).toNat = nibble (src n) := by
    apply Nat.eq_of_testBit_eq
    intro k
    rcases Nat.lt_or_ge k 4 with low | high
    · have here : 7 - (28 - n * 4 + k) / 4 = n := by omega
      have place : (28 - n * 4 + k) % 4 = k := by omega
      rw [testBit_field _ n low, getLsbD_hex2reg digits (by omega), here, place]
    · have bound : ∀ x < 16, x.testBit k = false := by
        intro x small
        exact Nat.testBit_lt_two_pow
          (lt_of_lt_of_le small (Nat.pow_le_pow_right (by decide) high : 2 ^ 4 ≤ 2 ^ k))
      rw [bound _ (field_lt _ n), bound _ (nibble_lt _)]
  rw [value, digit_eq_lower _ (digits n few)]

end Registers

/-! ## Texts -/

/-- A string is read as far as its terminator. -/
theorem reread_eq {text : List Byte} (noNul : 0 ∉ text) (behind : List Byte) :
    reread text behind = text := by
  have stops : ∀ ch ∈ text, decide (ch ≠ 0) = true := by
    intro ch member
    exact decide_eq_true fun zero => noNul (zero ▸ member)
  rw [reread, cString, List.takeWhile_append_of_pos stops]
  simp

theorem ascii2hex_cons (ch : Byte) (src : List Byte) :
    ascii2hex (ch :: src) = digit (ch.toNat / 16) :: digit (ch.toNat % 16) :: ascii2hex src := by
  rw [← toNat_high, ← toNat_low]
  rfl

/-- Digits are no terminators. -/
theorem not_mem_ascii2hex (src : List Byte) : 0 ∉ ascii2hex src := by
  induction src with
  | nil => exact List.not_mem_nil
  | cons ch src ih =>
      have bound := ch.isLt
      rw [ascii2hex_cons, List.mem_cons, List.mem_cons]
      rintro (high | low | rest)
      · exact digit_ne_zero (by omega) high.symm
      · exact digit_ne_zero (by omega) low.symm
      · exact ih rest

/-- A text is read back. -/
theorem hex2ascii_ascii2hex (src : List Byte) : hex2ascii (ascii2hex src) = src := by
  induction src with
  | nil => rfl
  | cons ch src ih =>
      have bound := ch.isLt
      obtain ⟨byte, pair, value⟩ := hex2ascii_pair (digit (ch.toNat / 16))
        (digit (ch.toNat % 16)) (ascii2hex src)
      rw [nibble_digit (by omega), nibble_digit (by omega)] at value
      have same : byte = ch := BitVec.eq_of_toNat_eq (by omega)
      rw [ascii2hex_cons, pair, same, ih]

section Pairs

variable {text : List Byte}

/-- Digits that stand for no terminator give none. -/
theorem not_mem_hex2ascii (digits : ∀ ch ∈ text, IsHexDigit ch) (noNul : ¬ EncodesNul text) :
    0 ∉ hex2ascii text := by
  induction text using hex2ascii.induct with
  | case1 high low rest ih =>
      obtain ⟨byte, pair, value⟩ := hex2ascii_pair high low rest
      rw [EncodesNul, not_or] at noNul
      rw [pair, List.mem_cons]
      rintro (zero | later)
      · have none : nibble high * 16 + nibble low = 0 := by rw [← value, ← zero]; rfl
        exact noNul.1 ⟨nibble_eq_zero high (digits _ (by simp)) (by omega),
          nibble_eq_zero low (digits _ (by simp)) (by omega)⟩
      · exact ih (fun ch member => digits ch (by simp [member])) noNul.2 later
  | case2 digits short =>
      rw [hex2ascii]
      · exact List.not_mem_nil
      · exact short

/-- The digits of a text are written in lower case. -/
theorem ascii2hex_hex2ascii (digits : ∀ ch ∈ text, IsHexDigit ch) (even : text.length % 2 = 0) :
    ascii2hex (hex2ascii text) = text.map lower := by
  induction text using hex2ascii.induct with
  | case1 high low rest ih =>
      obtain ⟨byte, pair, value⟩ := hex2ascii_pair high low rest
      have small := nibble_lt low
      have high' : byte.toNat / 16 = nibble high := by omega
      have low' : byte.toNat % 16 = nibble low := by omega
      have rest' : ascii2hex (hex2ascii rest) = rest.map lower := by
        refine ih (fun ch member => digits ch (by simp [member])) ?_
        rw [List.length_cons, List.length_cons] at even
        omega
      rw [pair, ascii2hex_cons, high', low', digit_eq_lower high (digits _ (by simp)),
        digit_eq_lower low (digits _ (by simp)), rest', List.map_cons, List.map_cons]
  | case2 text short =>
      rcases text with - | ⟨high, - | ⟨low, rest⟩⟩
      · rfl
      · exact absurd even (by decide : ¬ 1 % 2 = 0)
      · exact absurd rfl (short high low rest)

end Pairs

/-- **The codecs are inverse to each other, up to the case of the digits.** -/
theorem hex_codecs :
    (∀ (val : BitVec 32) (dest : Chars), hex2reg (storeString dest 0 (reg2hex val)) = val) ∧
      (∀ src : Chars, (∀ n < 8, IsHexDigit (src n)) →
        reg2hex (hex2reg src) = (List.range 8).map fun n => lower (src n)) ∧
      (∀ text behind behind' : List Byte, 0 ∉ text →
        hex2ascii (reread (ascii2hex (reread text behind)) behind') = text) ∧
      ∀ text behind behind' : List Byte, (∀ ch ∈ text, IsHexDigit ch) → text.length % 2 = 0 →
        ¬ EncodesNul text →
          ascii2hex (reread (hex2ascii (reread text behind)) behind') = text.map lower := by
  refine ⟨hex2reg_reg2hex, fun _ digits => reg2hex_hex2reg digits, ?_, ?_⟩
  · intro text behind behind' noNul
    rw [reread_eq noNul, reread_eq (not_mem_ascii2hex text), hex2ascii_ascii2hex]
  · intro text behind behind' digits even noNul
    have isText : 0 ∉ text := by
      intro member
      exact absurd (digits 0 member) (by decide)
    rw [reread_eq isText, reread_eq (not_mem_hex2ascii digits noNul),
      ascii2hex_hex2ascii digits even]

theorem hex_codecs_ok :
    hex2ascii (reread (ascii2hex (reread (str "OK") [])) []) = str "OK" ∧
      ascii2hex (reread (hex2ascii (reread (str "4F4b") [])) []) = str "4f4b" :=
  ⟨hex_codecs.2.2.1 (str "OK") [] [] (by decide),
    hex_codecs.2.2.2 (str "4F4b") [] [] (by decide) rfl (by decide)⟩

end OrpsocCores.Gdb
