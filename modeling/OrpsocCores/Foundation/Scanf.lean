import Mathlib.Algebra.Ring.Int.Defs
import Mathlib.Algebra.Ring.Nat
import Mathlib.Tactic.Common

/-!
# Reading formatted input

The part of `sscanf` that programs on small protocols use: literal characters,
white space, numbers in hexadecimal and decimal, and words.  A conversion skips
white space, reads the longest field its width permits, and fails when there is
nothing in the field; the scan ends at the first directive that fails.  What a
scan returns are the values of the conversions made until then, so that the
number of values is the number `sscanf` returns.

A number is converted the way `strtoul` and `strtol` do it on a machine with
64-bit longs: it saturates there and is then cut down to the 32 bits of the
variable.
-/

set_option autoImplicit false

namespace OrpsocCores.Scanf

/-- The directives of a format. -/
inductive Directive where
  | literal (c : BitVec 8)
  | space
  | hexadecimal (width : Option Nat)
  | decimal (width : Option Nat)
  | string (width : Nat)

/-- What a conversion stores. -/
inductive Value where
  | number (n : BitVec 32)
  | word (s : List (BitVec 8))
  deriving DecidableEq

/-- The white space characters. -/
def isSpace (c : BitVec 8) : Bool := c = 0x20 ∨ (0x09 ≤ c ∧ c ≤ 0x0D)

def skipSpace (s : List (BitVec 8)) : List (BitVec 8) := s.dropWhile isSpace

/-- The value of a digit in a base up to sixteen. -/
def digitValue (base : Nat) (c : BitVec 8) : Option Nat :=
  let value :=
    if 0x30 ≤ c ∧ c ≤ 0x39 then c.toNat - 0x30
    else if 0x61 ≤ c ∧ c ≤ 0x66 then c.toNat - 0x61 + 10
    else if 0x41 ≤ c ∧ c ≤ 0x46 then c.toNat - 0x41 + 10
    else 16
  if value < base then some value else none

/-- The digits at the head of the input, at most this many of them, and the rest
of the input. -/
def digits (base : Nat) : Nat → List (BitVec 8) → List Nat × List (BitVec 8)
  | 0, s => ([], s)
  | _ + 1, [] => ([], [])
  | width + 1, c :: rest =>
      match digitValue base c with
      | none => ([], c :: rest)
      | some value => (value :: (digits base width rest).1, (digits base width rest).2)

/-- The number the digits stand for. -/
def value (base : Nat) (ds : List Nat) : Nat := ds.foldl (fun n d => n * base + d) 0

/-- A sign at the head of a field: whether it is a minus, the width left, and
the rest of the input. -/
def sign (width : Nat) : List (BitVec 8) → Bool × Nat × List (BitVec 8)
  | c :: rest =>
      if 0 < width ∧ c = 0x2D then (true, width - 1, rest)
      else if 0 < width ∧ c = 0x2B then (false, width - 1, rest)
      else (false, width, c :: rest)
  | [] => (false, width, [])

/-- The `0x` that a hexadecimal field may begin with. -/
def hexPrefix (width : Nat) : List (BitVec 8) → Nat × List (BitVec 8)
  | 0x30 :: c :: rest =>
      if 2 ≤ width ∧ (c = 0x78 ∨ c = 0x58) then (width - 2, rest) else (width, 0x30 :: c :: rest)
  | s => (width, s)

/-- `strtoul`, cut down to 32 bits. -/
def unsigned (negative : Bool) (n : Nat) : BitVec 32 :=
  if 2 ^ 64 ≤ n then BitVec.ofNat 32 (2 ^ 64 - 1)
  else if negative then BitVec.ofNat 32 (2 ^ 64 - n)
  else BitVec.ofNat 32 n

/-- `strtol`, cut down to 32 bits. -/
def signed (negative : Bool) (n : Nat) : BitVec 32 :=
  if negative then BitVec.ofInt 32 (-(min n (2 ^ 63) : Nat))
  else BitVec.ofNat 32 (min n (2 ^ 63 - 1))

/-- A number in hexadecimal and the rest of the input. -/
def scanHexadecimal (width : Option Nat) (s : List (BitVec 8)) :
    Option (BitVec 32 × List (BitVec 8)) :=
  let s := skipSpace s
  let signed := sign (width.getD s.length) s
  let field := hexPrefix signed.2.1 signed.2.2
  let found := digits 16 field.1 field.2
  if found.1 = [] then none else some (unsigned signed.1 (value 16 found.1), found.2)

/-- A number in decimal and the rest of the input. -/
def scanDecimal (width : Option Nat) (s : List (BitVec 8)) :
    Option (BitVec 32 × List (BitVec 8)) :=
  let s := skipSpace s
  let field := sign (width.getD s.length) s
  let found := digits 10 field.2.1 field.2.2
  if found.1 = [] then none else some (signed field.1 (value 10 found.1), found.2)

/-- A word of at most this many characters and the rest of the input. -/
def scanString (width : Nat) (s : List (BitVec 8)) : Option (List (BitVec 8) × List (BitVec 8)) :=
  let s := skipSpace s
  let word := (s.take width).takeWhile fun c => !isSpace c
  if word = [] then none else some (word, s.drop word.length)

/-- The values of the conversions made before the first directive that fails. -/
def sscanf : List Directive → List (BitVec 8) → List Value
  | [], _ => []
  | .literal c :: format, s =>
      match s with
      | [] => []
      | c' :: rest => if c' = c then sscanf format rest else []
  | .space :: format, s => sscanf format (skipSpace s)
  | .hexadecimal width :: format, s =>
      match scanHexadecimal width s with
      | none => []
      | some (n, rest) => .number n :: sscanf format rest
  | .decimal width :: format, s =>
      match scanDecimal width s with
      | none => []
      | some (n, rest) => .number n :: sscanf format rest
  | .string width :: format, s =>
      match scanString width s with
      | none => []
      | some (word, rest) => .word word :: sscanf format rest

/-! ## Numbers that are written plainly -/

/-- A digit is neither white space nor a sign nor the `x` of a prefix. -/
theorem of_digitValue : ∀ c : BitVec 8, digitValue 16 c ≠ none →
    isSpace c = false ∧ c ≠ 0x2D ∧ c ≠ 0x2B ∧ c ≠ 0x78 ∧ c ≠ 0x58 := by
  decide +kernel

/-- Digits are read up to the first character that is none. -/
theorem digits_append {base width : Nat} {ds rest : List (BitVec 8)} {values : List Nat}
    (same : ds.map (digitValue base) = values.map some) (wide : ds.length ≤ width)
    (ends : ∀ c ∈ rest.head?, digitValue base c = none) :
    digits base width (ds ++ rest) = (values, rest) := by
  induction ds generalizing width values with
  | nil =>
      obtain rfl : values = [] := by simpa using same.symm
      cases width with
      | zero => rfl
      | succ width =>
          cases rest with
          | nil => rfl
          | cons c rest =>
              have none : digitValue base c = .none := ends c rfl
              simp [digits, none]
  | cons d ds ih =>
      cases values with
      | nil => simp at same
      | cons v values =>
          rw [List.map_cons, List.map_cons, List.cons.injEq] at same
          rw [List.length_cons] at wide
          obtain ⟨width, rfl⟩ : ∃ w, width = w + 1 := ⟨width - 1, by omega⟩
          have tail : digits base width (ds ++ rest) = (values, rest) := ih same.2 (by omega)
          simp [digits, same.1, tail]

/-- A number without sign and prefix. -/
theorem scanHexadecimal_append {ds rest : List (BitVec 8)} {values : List Nat} (some_digit : ds ≠ [])
    (same : ds.map (digitValue 16) = values.map some)
    (ends : ∀ c ∈ rest.head?, digitValue 16 c = none ∧ c ≠ 0x78 ∧ c ≠ 0x58) :
    scanHexadecimal none (ds ++ rest) = some (unsigned false (value 16 values), rest) := by
  obtain ⟨d, ds', rfl⟩ := List.exists_cons_of_ne_nil some_digit
  have digit : ∀ c ∈ d :: ds', digitValue 16 c ≠ none := by
    intro c member
    obtain ⟨v, -, here⟩ := List.mem_map.mp (same ▸ List.mem_map_of_mem member)
    rw [← here]
    exact Option.some_ne_none v
  obtain ⟨noSpace, noMinus, noPlus, -, -⟩ := of_digitValue d (digit d List.mem_cons_self)
  have skipped : skipSpace (d :: ds' ++ rest) = d :: ds' ++ rest := by
    rw [skipSpace, List.cons_append, List.dropWhile_cons_of_neg (by simp [noSpace])]
  have unsigned' : ∀ width, sign width (d :: ds' ++ rest) = (false, width, d :: ds' ++ rest) := by
    intro width
    rw [List.cons_append, sign, if_neg fun both => noMinus both.2, if_neg fun both => noPlus both.2]
  -- what follows a leading zero is a digit or the end of the number
  have plain : ∀ width, hexPrefix width (d :: ds' ++ rest) = (width, d :: ds' ++ rest) := by
    intro width
    have next : ∀ c more, ds' ++ rest = c :: more → c ≠ 0x78 ∧ c ≠ 0x58 := by
      intro c more here
      cases ds' with
      | nil =>
          have head : c ∈ rest.head? := by simp [show rest = c :: more from here]
          exact (ends c head).2
      | cons d' ds' =>
          obtain rfl : d' = c := by
            rw [List.cons_append, List.cons.injEq] at here
            exact here.1
          exact (of_digitValue d' (digit d' (by simp))).2.2.2
    rw [List.cons_append]
    cases follows : ds' ++ rest with
    | nil => rw [hexPrefix.eq_def]; split <;> simp_all
    | cons c more =>
        have no_x := next c more follows
        rw [hexPrefix.eq_def]
        split <;> simp_all
  have found : digits 16 (d :: ds' ++ rest).length (d :: ds' ++ rest) = (values, rest) :=
    digits_append same (by rw [List.length_append]; omega) fun c member => (ends c member).1
  have nonempty : values ≠ [] := by
    rintro rfl
    simp at same
  simp only [scanHexadecimal, skipped, Option.getD_none, unsigned', plain, found, nonempty, if_false]

/-! ## A given number of conversions -/

/-- One number. -/
def one : List Value → Option (BitVec 32)
  | [.number a] => some a
  | _ => none

/-- Two numbers. -/
def two : List Value → Option (BitVec 32 × BitVec 32)
  | [.number a, .number b] => some (a, b)
  | _ => none

/-- Three numbers. -/
def three : List Value → Option (BitVec 32 × BitVec 32 × BitVec 32)
  | [.number a, .number b, .number c] => some (a, b, c)
  | _ => none

/-- A number and a word. -/
def numberAndWord : List Value → Option (BitVec 32 × List (BitVec 8))
  | [.number a, .word s] => some (a, s)
  | _ => none

end OrpsocCores.Scanf
