import Mathlib.Algebra.Ring.Nat
import Mathlib.Logic.Function.Basic
import Mathlib.Tactic.Common

/-!
# Memory images in hexadecimal

The text files that `$readmemh` loads: fields between white space, of which one is either an
address behind an `@` or the word for the next address.  Comments and the digits of unknown
values are not covered, and a file with another field is not loaded at all.

* `fields_lines`: the lines of a text are its fields.
* `readHex_hexDigits`: a number is read back from its digits.
* `readmemh_lines`: words that are written one to a line are loaded one behind the other.
-/

set_option autoImplicit false

namespace OrpsocCores.HexImage

/-! ## Fields -/

/-- The white space between fields. -/
def isBlank (c : Char) : Bool := c = ' ' || c = '\t' || c = '\n' || c = '\r' || c = '\x0c'

/-- A field that has begun, if it has. -/
def field (current : List Char) : List (List Char) := if current = [] then [] else [current]

/-- The fields of a text behind the characters of one that has begun. -/
def fieldsFrom (current : List Char) : List Char → List (List Char)
  | [] => field current
  | c :: text =>
      if isBlank c then field current ++ fieldsFrom [] text else fieldsFrom (current ++ [c]) text

/-- The fields of a text. -/
def fields (text : List Char) : List (List Char) := fieldsFrom [] text

theorem fieldsFrom_append {current word text : List Char} {c : Char}
    (solid : ∀ c ∈ word, isBlank c = false) (blank : isBlank c = true) :
    fieldsFrom current (word ++ c :: text) = field (current ++ word) ++ fields text := by
  induction word generalizing current with
  | nil => rw [List.nil_append, List.append_nil, fieldsFrom, if_pos blank, fields]
  | cons first word ih =>
      have here : ¬ isBlank first = true := by
        rw [solid first List.mem_cons_self]
        exact Bool.false_ne_true
      rw [List.cons_append, fieldsFrom, if_neg here,
        ih fun c member => solid c (List.mem_cons_of_mem first member), List.append_assoc]
      rfl

/-- Lines without blanks are fields. -/
theorem fields_lines {lines : List (List Char)} (text : List Char)
    (solid : ∀ line ∈ lines, line ≠ [] ∧ ∀ c ∈ line, isBlank c = false) :
    fields (lines.flatMap (· ++ ['\n']) ++ text) = lines ++ fields text := by
  induction lines with
  | nil => rfl
  | cons line lines ih =>
      obtain ⟨nonempty, noBlank⟩ := solid line List.mem_cons_self
      have rest := ih fun line member => solid line (List.mem_cons_of_mem _ member)
      rw [List.flatMap_cons, List.append_assoc, List.append_assoc, List.singleton_append, fields,
        fieldsFrom_append noBlank rfl, rest, List.nil_append, field, if_neg nonempty]
      rfl

/-- Blanks have no fields. -/
theorem fields_blanks {blanks : List Char} (blank : ∀ c ∈ blanks, isBlank c = true) :
    fields blanks = [] := by
  induction blanks with
  | nil => rfl
  | cons c blanks ih =>
      rw [fields, fieldsFrom, if_pos (blank c List.mem_cons_self)]
      exact ih fun c member => blank c (List.mem_cons_of_mem _ member)

/-! ## Numbers -/

/-- The digit of a value below sixteen. -/
def digitChar (value : Nat) : Char := "0123456789ABCDEF".toList.getD value '0'

/-- The value of a digit, of either case. -/
def digitValue (c : Char) : Option Nat :=
  if '0' ≤ c ∧ c ≤ '9' then some (c.toNat - '0'.toNat)
  else if 'A' ≤ c ∧ c ≤ 'F' then some (c.toNat - 'A'.toNat + 10)
  else if 'a' ≤ c ∧ c ≤ 'f' then some (c.toNat - 'a'.toNat + 10)
  else none

/-- The last `k` digits of a number. -/
def hexDigits : Nat → Nat → List Char
  | 0, _ => []
  | k + 1, n => hexDigits k (n / 16) ++ [digitChar (n % 16)]

/-- The number that digits stand for. -/
def readHex (digits : List Char) : Option Nat :=
  digits.foldl (fun n c => n.bind fun n => (digitValue c).map (n * 16 + ·)) (some 0)

theorem digitChar_spec : ∀ value < 16,
    digitValue (digitChar value) = some value ∧ isBlank (digitChar value) = false ∧
      digitChar value ≠ '@' := by
  decide

theorem length_hexDigits (k n : Nat) : (hexDigits k n).length = k := by
  induction k generalizing n with
  | zero => rfl
  | succ k ih => rw [hexDigits, List.length_append, ih, List.length_singleton]

theorem mem_hexDigits {k n : Nat} {c : Char} (member : c ∈ hexDigits k n) :
    ∃ value < 16, c = digitChar value := by
  induction k generalizing n with
  | zero => cases member
  | succ k ih =>
      rcases List.mem_append.mp member with before | last
      · exact ih before
      · exact ⟨n % 16, Nat.mod_lt n (by decide), List.mem_singleton.mp last⟩

theorem readHex_append (digits : List Char) (c : Char) :
    readHex (digits ++ [c]) =
      (readHex digits).bind fun n => (digitValue c).map (n * 16 + ·) := by
  rw [readHex, List.foldl_append]
  rfl

theorem readHex_hexDigits (k n : Nat) : readHex (hexDigits k n) = some (n % 16 ^ k) := by
  induction k generalizing n with
  | zero => rw [hexDigits, Nat.pow_zero, Nat.mod_one]; rfl
  | succ k ih =>
      have last := (digitChar_spec (n % 16) (Nat.mod_lt n (by decide))).1
      rw [hexDigits, readHex_append, ih, Option.bind_some, last, Option.map_some, Nat.pow_succ,
        Nat.mul_comm (16 ^ k), Nat.mod_mul]
      congr 1
      omega

/-- The digits of a number are one field, and no address. -/
theorem hexDigits_field (k n : Nat) :
    (∀ c ∈ hexDigits k n, isBlank c = false) ∧ '@' ∉ hexDigits k n := by
  constructor
  · intro c member
    obtain ⟨value, low, rfl⟩ := mem_hexDigits member
    exact (digitChar_spec value low).2.1
  · intro member
    obtain ⟨value, low, same⟩ := mem_hexDigits member
    exact (digitChar_spec value low).2.2 same.symm

/-! ## Images -/

/-- What has been loaded, and the address of the next word. -/
structure Image (w : Nat) where
  memory : Nat → Option (BitVec w)
  address : Nat

variable {w : Nat}

/-- A field is loaded. -/
def Image.load (image : Image w) : List Char → Option (Image w)
  | '@' :: digits => (readHex digits).map fun address => { image with address := address }
  | digits =>
      (readHex digits).map fun n =>
        ⟨Function.update image.memory image.address (some (BitVec.ofNat w n)), image.address + 1⟩

/-- `$readmemh`: the words at the addresses that the file has words for. -/
def readmemh (w : Nat) (text : List Char) : Option (Nat → Option (BitVec w)) :=
  ((fields text).foldlM Image.load ⟨fun _ => none, 0⟩).map Image.memory

/-- The image with words loaded from its address on. -/
def Image.append (image : Image w) (words : List (BitVec w)) : Image w where
  memory x := if image.address ≤ x then words[x - image.address]?.or (image.memory x)
    else image.memory x
  address := image.address + words.length

theorem Image.append_nil (image : Image w) : image.append [] = image := by
  rw [append]
  simp only [List.getElem?_nil, Option.none_or, ite_self, List.length_nil, Nat.add_zero]

/-- A word is loaded before the words behind it. -/
theorem Image.append_cons (image : Image w) (word : BitVec w) (words : List (BitVec w)) :
    (Image.append ⟨Function.update image.memory image.address (some word), image.address + 1⟩
      words) = image.append (word :: words) := by
  simp only [append, Image.mk.injEq, List.length_cons]
  refine ⟨funext fun x => ?_, by omega⟩
  by_cases here : x = image.address
  · subst here
    rw [if_neg (by omega), if_pos (Nat.le_refl _), Function.update_self, Nat.sub_self]
    rfl
  by_cases later : image.address + 1 ≤ x
  · obtain ⟨k, rfl⟩ := Nat.exists_eq_add_of_le later
    rw [if_pos later, if_pos (by omega), Function.update_of_ne here,
      show image.address + 1 + k - (image.address + 1) = k by omega,
      show image.address + 1 + k - image.address = k + 1 by omega, List.getElem?_cons_succ]
  · rw [if_neg later, if_neg (by omega), Function.update_of_ne here]

theorem Image.load_number (image : Image w) {digits : List Char} {n : Nat}
    (noAddress : '@' ∉ digits) (number : readHex digits = some n) :
    image.load digits =
      some ⟨Function.update image.memory image.address (some (BitVec.ofNat w n)),
        image.address + 1⟩ := by
  unfold load
  split
  · exact absurd List.mem_cons_self noAddress
  · rw [number]
    rfl

theorem Image.load_address (image : Image w) (k n : Nat) :
    image.load ('@' :: hexDigits k n) = some { image with address := n % 16 ^ k } := by
  rw [load, readHex_hexDigits]
  rfl

/-- **Words that are written one to a line are loaded one behind the other.** -/
theorem load_words {k : Nat} (wide : w ≤ 4 * k) (image : Image w) (words : List (BitVec w)) :
    (words.map fun word => hexDigits k word.toNat).foldlM Image.load image =
      some (image.append words) := by
  induction words generalizing image with
  | nil => rw [List.map_nil, List.foldlM_nil, Image.append_nil]; rfl
  | cons word words ih =>
      have small : word.toNat < 16 ^ k := by
        calc word.toNat < 2 ^ w := word.isLt
          _ ≤ 2 ^ (4 * k) := Nat.pow_le_pow_right (by decide) wide
          _ = 16 ^ k := Nat.pow_mul 2 4 k
      have number := readHex_hexDigits k word.toNat
      rw [Nat.mod_eq_of_lt small] at number
      rw [List.map_cons, List.foldlM_cons, image.load_number (hexDigits_field k _).2 number,
        BitVec.ofNat_toNat, BitVec.setWidth_eq]
      exact (ih _).trans (congrArg some (image.append_cons word words))

/-- **A file of words, one to a line behind the address of the first, is loaded from there.** -/
theorem readmemh_lines {k n : Nat} (some_digits : 0 < k) (wide : w ≤ 4 * k)
    (words : List (BitVec w)) {blanks : List Char} (blank : ∀ c ∈ blanks, isBlank c = true) :
    readmemh w ((('@' :: hexDigits k n) :: words.map fun word => hexDigits k word.toNat).flatMap
      (· ++ ['\n']) ++ blanks) =
        some (Image.append ⟨fun _ => none, n % 16 ^ k⟩ words).memory := by
  have solid : ∀ line ∈ ('@' :: hexDigits k n) :: words.map fun word => hexDigits k word.toNat,
      line ≠ [] ∧ ∀ c ∈ line, isBlank c = false := by
    intro line member
    rcases List.mem_cons.mp member with rfl | member
    · refine ⟨List.cons_ne_nil _ _, fun c inside => ?_⟩
      rcases List.mem_cons.mp inside with rfl | inside
      · rfl
      · exact (hexDigits_field k n).1 c inside
    · obtain ⟨word, -, rfl⟩ := List.mem_map.mp member
      refine ⟨fun empty => ?_, (hexDigits_field k _).1⟩
      have length := length_hexDigits k word.toNat
      rw [empty, List.length_nil] at length
      omega
  rw [readmemh, fields_lines _ solid, fields_blanks blank, List.append_nil, List.foldlM_cons,
    Image.load_address]
  exact congrArg (Option.map Image.memory) (load_words wide _ words)

end OrpsocCores.HexImage
