import OrpsocCores.Gdb.HandleRsp

/-!
# Packets with an address and a length

The requests that write memory have the form `M<addr>,<length>:<data>` and
`X<addr>,<length>:<data>`.  The server takes them apart in two ways: `sscanf` reads the
two numbers from the characters in front of the terminator, and a search for the first
colon finds the data.  On a packet of the form (`MemoryPacket`) both find what is there
(`MemoryPacket.parsed`, `MemoryPacket.colon`, `MemoryPacket.data_at`).
-/

set_option autoImplicit false

namespace OrpsocCores.Gdb

open Scanf

/-! ## Numbers -/

/-- The number that hexadecimal digits stand for. -/
def numberOf (digits : List Byte) : Nat :=
  digits.foldl (fun n ch => n * 16 + (hex ch).toNat) 0

/-- `sscanf` knows the digits that `hex` knows. -/
theorem digitValue_hexDigit : ∀ value : Fin 16,
    digitValue 16 (chr (lowerDigits.get value)) = some value.val ∧
      digitValue 16 (chr (upperDigits.get value)) = some value.val := by
  decide +kernel

theorem digitValue_of_isHexDigit {ch : Byte} (isDigit : IsHexDigit ch) :
    digitValue 16 ch = some (hex ch).toNat := by
  obtain ⟨value, digit⟩ := isDigit
  rw [hex_of_hexDigit ch value digit, Int.toNat_natCast]
  rcases digit with rfl | rfl
  · exact (digitValue_hexDigit value).1
  · exact (digitValue_hexDigit value).2

theorem ne_of_isHexDigit {ch : Byte} (isDigit : IsHexDigit ch) : ch ≠ 0 ∧ ch ≠ chr ':' := by
  have known := digitValue_of_isHexDigit isDigit
  constructor
  · rintro rfl
    exact absurd known (by decide)
  · rintro rfl
    exact absurd known (by decide)

/-- The values of digits. -/
theorem map_digitValue {digits : List Byte} (areDigits : ∀ ch ∈ digits, IsHexDigit ch) :
    digits.map (digitValue 16) = (digits.map fun ch => (hex ch).toNat).map some := by
  rw [List.map_map]
  apply List.map_congr_left
  intro ch member
  exact digitValue_of_isHexDigit (areDigits ch member)

theorem value_map_hex (digits : List Byte) :
    value 16 (digits.map fun ch => (hex ch).toNat) = numberOf digits := by
  rw [value, List.foldl_map, numberOf]

/-! ## The form -/

/-- The characters in front of the data. -/
def header (request : Char) (a l : List Byte) : List Byte :=
  chr request :: (a ++ chr ',' :: (l ++ [chr ':']))

/-- Hexadecimal digits that stand for this number. -/
structure Writes (digits : List Byte) (number : Nat) : Prop where
  nonempty : digits ≠ []
  areDigits : ∀ ch ∈ digits, IsHexDigit ch
  number : numberOf digits = number

/-- The packet has the form `<request><addr>,<length>:<data>`, with an address of 32
bits. -/
def MemoryPacket (request : Char) (buf : RspBuf) (addr : BitVec 32) (len : Nat)
    (data : List Byte) : Prop :=
  ∃ a l, Writes a addr.toNat ∧ Writes l len ∧ buf.text = header request a l ++ data

/-- A number in front of a character that ends it. -/
theorem Writes.scan {digits : List Byte} {number : Nat} (writes : Writes digits number)
    (small : number < 2 ^ 32) {ch : Byte} (rest : List Byte)
    (ends : digitValue 16 ch = none ∧ ch ≠ 0x78 ∧ ch ≠ 0x58) :
    scanHexadecimal none (digits ++ ch :: rest) = some (BitVec.ofNat 32 number, ch :: rest) := by
  rw [scanHexadecimal_append writes.nonempty (map_digitValue writes.areDigits)
    (by simpa using ends), value_map_hex, writes.number, unsigned, if_neg (by omega)]
  rfl

/-- `sscanf` on a header. -/
theorem sscanf_header {request : Char} {a l : List Byte} {addr : BitVec 32} {len : Nat}
    (address : Writes a addr.toNat) (length : Writes l len) (small : len < 2 ^ 32)
    (rest : List Byte) :
    two (sscanf (memFormat request) (header request a l ++ rest)) =
      some (addr, BitVec.ofNat 32 len) := by
  have text : header request a l ++ rest =
      chr request :: (a ++ chr ',' :: (l ++ chr ':' :: rest)) := by
    simp [header]
  have first := address.scan addr.isLt (l ++ chr ':' :: rest)
    (by decide : digitValue 16 (chr ',') = none ∧ chr ',' ≠ 0x78 ∧ chr ',' ≠ 0x58)
  have second := length.scan small rest
    (by decide : digitValue 16 (chr ':') = none ∧ chr ':' ≠ 0x78 ∧ chr ':' ≠ 0x58)
  rw [text, memFormat]
  simp only [sscanf, if_true, first, second, two, BitVec.ofNat_toNat, BitVec.setWidth_eq]

/-- A header has no terminator, and one colon, its last character. -/
theorem mem_header {request : Char} {a l : List Byte} {addr len : Nat}
    (address : Writes a addr) (length : Writes l len) {ch : Byte}
    (member : ch ∈ chr request :: (a ++ chr ',' :: l)) (known : chr request ≠ 0)
    (noColon : chr request ≠ chr ':') : ch ≠ 0 ∧ ch ≠ chr ':' := by
  simp only [List.mem_cons, List.mem_append] at member
  rcases member with rfl | member | rfl | member
  · exact ⟨known, noColon⟩
  · exact ne_of_isHexDigit (address.areDigits ch member)
  · decide
  · exact ne_of_isHexDigit (length.areDigits ch member)

namespace MemoryPacket

variable {request : Char} {buf : RspBuf} {a l data : List Byte} {addr : BitVec 32} {len : Nat}

section

variable (address : Writes a addr.toNat) (length : Writes l len)
  (text : buf.text = header request a l ++ data)
include text

/-- The packet is the front of the array. -/
theorem toList_eq :
    buf.data.toList = header request a l ++ data ++ buf.data.toList.drop buf.len := by
  rw [← text, RspBuf.text, List.take_append_drop]

/-- The packet's length. -/
theorem len_eq (received : buf.len < gdbBufMax) :
    buf.len = (header request a l).length + data.length := by
  rw [← List.length_append, ← text, RspBuf.text, List.length_take, Vector.length_toList]
  omega

/-- The data stands behind the header. -/
theorem data_at : (buf.data.toList.drop (header request a l).length).take data.length = data := by
  rw [toList_eq text, List.append_assoc, List.drop_left, List.take_left]

include address length

variable (known : chr request ≠ 0) (noColon : chr request ≠ chr ':')
include known noColon

/-- `sscanf` reads the two numbers. -/
theorem parsed (small : len < 2 ^ 32) :
    two (sscanf (memFormat request) buf.cText) = some (addr, BitVec.ofNat 32 len) := by
  have plain : ∀ ch ∈ header request a l, decide (ch ≠ 0) = true := by
    intro ch member
    have cases' : ch ∈ chr request :: (a ++ chr ',' :: l) ∨ ch = chr ':' := by
      simpa [header, or_assoc] using member
    rcases cases' with front | rfl
    · exact decide_eq_true (mem_header address length front known noColon).1
    · decide
  have front : buf.cText = header request a l ++
      cString (data ++ buf.data.toList.drop buf.len) := by
    conv_lhs => rw [RspBuf.cText, toList_eq text, List.append_assoc, cString]
    exact List.takeWhile_append_of_pos plain
  rw [front]
  exact sscanf_header address length small _

/-- The first colon is the one of the header. -/
theorem colon : buf.colon = some ((header request a l).length - 1) := by
  have split : header request a l = (chr request :: (a ++ chr ',' :: l)) ++ [chr ':'] := by
    simp [header]
  rw [RspBuf.colon, List.findIdx?_eq_some_iff_getElem]
  have place : (header request a l).length - 1 = (chr request :: (a ++ chr ',' :: l)).length := by
    rw [split, List.length_append]
    rfl
  rw [place, toList_eq text, split, List.append_assoc, List.append_assoc]
  refine ⟨by rw [List.length_append, List.length_append]; simp, ?_, ?_⟩
  · rw [List.getElem_append_right (Nat.le_refl _)]
    simp
  · intro i before
    rw [List.getElem_append_left before]
    have other := (mem_header address length (List.getElem_mem before) known noColon).2
    simpa using other

end

/-- The data fits the packet. -/
theorem length_le (packet : MemoryPacket request buf addr len data)
    (received : buf.len < gdbBufMax) : data.length ≤ gdbBufMax := by
  obtain ⟨a, l, -, -, text⟩ := packet
  have total := len_eq text received
  omega

/-- **A packet determines its address, its length and its data.** -/
theorem unique (known : chr request ≠ 0)
    (noColon : chr request ≠ chr ':') {addr' : BitVec 32} {len' : Nat} {data' : List Byte}
    (small : len < 2 ^ 32) (small' : len' < 2 ^ 32)
    (packet : MemoryPacket request buf addr len data)
    (packet' : MemoryPacket request buf addr' len' data') :
    addr = addr' ∧ len = len' ∧ data = data' := by
  obtain ⟨a, l, address, length, text⟩ := packet
  obtain ⟨a', l', address', length', text'⟩ := packet'
  have numbers := (parsed address length text known noColon small).symm.trans
    (parsed address' length' text' known noColon small')
  have colons := (colon address length text known noColon).symm.trans
    (colon address' length' text' known noColon)
  simp only [Option.some.injEq, Prod.mk.injEq] at numbers colons
  have start : (header request a l).length = (header request a' l').length := by
    simp only [header, List.length_cons, List.length_append, List.length_nil] at colons ⊢
    omega
  refine ⟨numbers.1, ?_, ?_⟩
  · have same := congrArg BitVec.toNat numbers.2
    rwa [BitVec.toNat_ofNat, BitVec.toNat_ofNat, Nat.mod_eq_of_lt small,
      Nat.mod_eq_of_lt small'] at same
  · exact (List.append_inj (text.symm.trans text') start).2

end MemoryPacket

end OrpsocCores.Gdb
