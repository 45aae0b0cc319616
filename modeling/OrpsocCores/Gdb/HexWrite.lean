import Mathlib.Data.List.GetD
import OrpsocCores.Foundation.ByteRange
import OrpsocCores.Gdb.MemoryPacket

/-!
# Writing memory in hexadecimal

`rsp_write_mem` takes the digits of an `M` packet one by one and writes a word with
every eighth digit.  What is left behind the last whole word is collected and never
written, so that the bytes there keep what they held (`writeNibbles_memory`), and the
packet is answered `OK` all the same.  The header is not checked either: `sscanf` is
content with two numbers, the data may begin behind any colon, and a character that is
no digit counts as fifteen.

`writeMem_exact_iff` says when an `M` packet that passes the checks has done what it
should: it has the form, and the bytes behind its last whole word were there before.
-/

set_option autoImplicit false

namespace OrpsocCores.Gdb

open Scanf

variable {host : Host}

/-! ## Digits -/

/-- The four bits that a character stands for. -/
def nibble (ch : Byte) : Nat := (hex ch % 16).toNat

theorem nibble_lt (ch : Byte) : nibble ch < 16 := by
  unfold nibble
  omega

theorem toNat_nibble (ch : Byte) : (0xf &&& BitVec.ofInt 32 (hex ch)).toNat = nibble ch := by
  rw [BitVec.toNat_and, Nat.and_comm, BitVec.toNat_ofInt]
  refine (Nat.and_two_pow_sub_one_eq_mod _ 4).trans ?_
  unfold nibble
  omega

theorem toNat_nibble_byte (ch : Byte) : (BitVec.ofInt 8 (hex ch) &&& 0xf).toNat = nibble ch := by
  rw [BitVec.toNat_and, BitVec.toNat_ofInt]
  refine (Nat.and_two_pow_sub_one_eq_mod _ 4).trans ?_
  unfold nibble
  omega

/-- A shift by four makes room for one more digit. -/
theorem toNat_shift_or {w : Nat} {val digit : BitVec w} (room : val.toNat * 16 < 2 ^ w)
    (small : digit.toNat < 16) : (val <<< 4 ||| digit).toNat = val.toNat * 16 + digit.toNat := by
  have shifted : (val <<< 4).toNat = val.toNat <<< 4 := by
    rw [BitVec.toNat_shiftLeft, Nat.shiftLeft_eq, Nat.mod_eq_of_lt room]
  rw [BitVec.toNat_or, shifted, ← Nat.shiftLeft_add_eq_or_of_lt small, Nat.shiftLeft_eq]

/-- The byte of two digits. -/
theorem hex2ascii_pair (high low : Byte) (rest : List Byte) :
    ∃ byte : Byte, hex2ascii (high :: low :: rest) = byte :: hex2ascii rest ∧
      byte.toNat = nibble high * 16 + nibble low := by
  refine ⟨_, rfl, ?_⟩
  have first := nibble_lt high
  have second := nibble_lt low
  rw [toNat_shift_or, toNat_nibble_byte, toNat_nibble_byte]
  · rw [toNat_nibble_byte]
    omega
  · rw [toNat_nibble_byte]
    exact second

theorem hex2ascii_length (digits : List Byte) : (hex2ascii digits).length = digits.length / 2 := by
  induction digits using hex2ascii.induct with
  | case1 high low rest ih =>
      obtain ⟨byte, pair, -⟩ := hex2ascii_pair high low rest
      rw [pair, List.length_cons, ih, List.length_cons, List.length_cons]
      omega
  | case2 digits short =>
      match digits with
      | [] => rfl
      | [_] => simp [hex2ascii]
      | high :: low :: rest => exact absurd rfl (short high low rest)

/-! ## Words -/

/-- One more digit. -/
def collect (val : BitVec 32) (ch : Byte) : BitVec 32 :=
  val <<< 4 ||| (0xf &&& BitVec.ofInt 32 (hex ch))

/-- The number that digits add up to in the variable of the loop. -/
def collected (digits : List Byte) : BitVec 32 := digits.foldl collect 0

/-- Digits in front of the eighth are only collected. -/
theorem writeNibbles_foldl (host : Host) (t : Target) (addr val : BitVec 32) {nibc : Nat}
    {front : List Byte} (short : nibc % 8 + front.length ≤ 7) (rest : List Byte) :
    writeNibbles host t addr (val <<< 4) nibc (front ++ rest) =
      writeNibbles host t addr (front.foldl collect val <<< 4) (nibc + front.length) rest := by
  induction front generalizing nibc val with
  | nil => rfl
  | cons ch front ih =>
      rw [List.length_cons] at short
      have goesOn : nibc % 8 ≠ 7 := by omega
      have next : (nibc + 1) % 8 + front.length ≤ 7 := by omega
      rw [List.cons_append, writeNibbles]
      dsimp only
      rw [if_neg goesOn, ← collect, ih (collect val ch) next, List.foldl_cons, List.length_cons,
        Nat.add_assoc, Nat.add_comm 1]

theorem writeNibbles_collected (host : Host) (t : Target) (addr : BitVec 32) {nibc : Nat}
    {front : List Byte} (short : nibc % 8 + front.length ≤ 7) (rest : List Byte) :
    writeNibbles host t addr 0 nibc (front ++ rest) =
      writeNibbles host t addr (collected front <<< 4) (nibc + front.length) rest := by
  have shifted : (0 : BitVec 32) <<< 4 = 0 := rfl
  have collects := writeNibbles_foldl host t addr 0 short rest
  rw [shifted] at collects
  exact collects

theorem toNat_collect {val : BitVec 32} (room : val.toNat < 16 ^ 7) (ch : Byte) :
    (collect val ch).toNat = val.toNat * 16 + nibble ch := by
  have small := nibble_lt ch
  rw [collect, toNat_shift_or, toNat_nibble]
  · omega
  · rw [toNat_nibble]
    exact small

/-- Eight digits fit the variable. -/
theorem toNat_foldl_collect {digits : List Byte} {val : BitVec 32} {k : Nat}
    (room : val.toNat < 16 ^ k) (short : k + digits.length ≤ 8) :
    (digits.foldl collect val).toNat =
      digits.foldl (fun n ch => n * 16 + nibble ch) val.toNat := by
  induction digits generalizing val k with
  | nil => rfl
  | cons ch digits ih =>
      rw [List.length_cons] at short
      have small := nibble_lt ch
      have bound : 16 ^ k ≤ 16 ^ 7 := Nat.pow_le_pow_right (by decide) (by omega)
      have value := toNat_collect (Nat.lt_of_lt_of_le room bound) ch
      have room' : (collect val ch).toNat < 16 ^ (k + 1) := by
        rw [value, Nat.pow_succ]
        omega
      rw [List.foldl_cons, List.foldl_cons, ih room' (by omega), value]

/-- The bytes of the word that eight digits make. -/
theorem wordByte_collected (c₀ c₁ c₂ c₃ c₄ c₅ c₆ c₇ : Byte) (rest : List Byte) {i : Nat}
    (inside : i < 4) :
    wordByte (collected [c₀, c₁, c₂, c₃, c₄, c₅, c₆, c₇]) i =
      (hex2ascii (c₀ :: c₁ :: c₂ :: c₃ :: c₄ :: c₅ :: c₆ :: c₇ :: rest)).getD i 0 := by
  have zero : (0 : BitVec 32).toNat < 16 ^ 0 := by decide
  have number : (collected [c₀, c₁, c₂, c₃, c₄, c₅, c₆, c₇]).toNat =
      [c₀, c₁, c₂, c₃, c₄, c₅, c₆, c₇].foldl (fun n ch => n * 16 + nibble ch) 0 :=
    toNat_foldl_collect zero (by simp)
  simp only [List.foldl_cons, List.foldl_nil] at number
  have small := nibble_lt
  have n₀ := small c₀
  have n₁ := small c₁
  have n₂ := small c₂
  have n₃ := small c₃
  have n₄ := small c₄
  have n₅ := small c₅
  have n₆ := small c₆
  have n₇ := small c₇
  obtain ⟨b₀, pair₀, value₀⟩ := hex2ascii_pair c₀ c₁ (c₂ :: c₃ :: c₄ :: c₅ :: c₆ :: c₇ :: rest)
  obtain ⟨b₁, pair₁, value₁⟩ := hex2ascii_pair c₂ c₃ (c₄ :: c₅ :: c₆ :: c₇ :: rest)
  obtain ⟨b₂, pair₂, value₂⟩ := hex2ascii_pair c₄ c₅ (c₆ :: c₇ :: rest)
  obtain ⟨b₃, pair₃, value₃⟩ := hex2ascii_pair c₆ c₇ rest
  rw [pair₀, pair₁, pair₂, pair₃]
  apply BitVec.eq_of_toNat_eq
  rw [wordByte, BitVec.extractLsb'_toNat, Nat.shiftRight_eq_div_pow, number]
  interval_cases i <;> simp <;> omega

/-- Fewer than eight digits are not written. -/
theorem writeNibbles_short (t : Target) (addr : BitVec 32) {nibc : Nat} (start : nibc % 8 = 0)
    {digits : List Byte} (short : digits.length < 8) :
    (writeNibbles host t addr 0 nibc digits).target = t := by
  have collects := writeNibbles_collected host t addr
    (show nibc % 8 + digits.length ≤ 7 by omega) []
  rw [List.append_nil] at collects
  rw [collects]
  rfl

/-- Eight digits are a word. -/
theorem writeNibbles_word (reliable : host.Reliable) (t : Target) (addr : BitVec 32) {nibc : Nat}
    (start : nibc % 8 = 0) (c₀ c₁ c₂ c₃ c₄ c₅ c₆ c₇ : Byte) (rest : List Byte) :
    writeNibbles host t addr 0 nibc (c₀ :: c₁ :: c₂ :: c₃ :: c₄ :: c₅ :: c₆ :: c₇ :: rest) =
      writeNibbles host
        { t with
          memory := writeWord t.memory addr (collected [c₀, c₁, c₂, c₃, c₄, c₅, c₆, c₇])
          performed := t.performed + 1 }
        (addr + 4) 0 (nibc + 8) rest := by
  have short : nibc % 8 + [c₀, c₁, c₂, c₃, c₄, c₅, c₆].length ≤ 7 := by
    rw [start]
    exact Nat.le_refl 7
  have last : (nibc + [c₀, c₁, c₂, c₃, c₄, c₅, c₆].length) % 8 = 7 := by
    simp only [List.length_cons, List.length_nil]
    omega
  have word : collected [c₀, c₁, c₂, c₃, c₄, c₅, c₆, c₇] =
      collected [c₀, c₁, c₂, c₃, c₄, c₅, c₆] <<< 4 ||| (0xf &&& BitVec.ofInt 32 (hex c₇)) :=
    rfl
  refine (writeNibbles_collected host t addr short (c₇ :: rest)).trans ?_
  rw [writeNibbles]
  dsimp only
  rw [if_pos last, ← word, gdbWriteWords, Target.writes_reliable reliable]
  simp [List.range_succ]

/-- **What the loop writes.**  The bytes up to the last whole word are those of the
digits; nothing else changes. -/
theorem writeNibbles_memory (reliable : host.Reliable) {digits : List Byte}
    (small : digits.length ≤ gdbBufMax) (t : Target) (addr : BitVec 32) {nibc : Nat}
    (start : nibc % 8 = 0) :
    (writeNibbles host t addr 0 nibc digits).target.memory =
      writeRange t.memory addr (fun i => (hex2ascii digits).getD i 0) (4 * (digits.length / 8)) := by
  have size : gdbBufMax = 281 := by decide
  induction left : digits.length using Nat.strongRecOn generalizing digits t addr nibc with
  | ind n ih =>
      rcases Nat.lt_or_ge digits.length 8 with short | long
      · have none : 4 * (n / 8) = 0 := by omega
        rw [writeNibbles_short t addr start short, none, writeRange_zero]
      · match digits with
        | c₀ :: c₁ :: c₂ :: c₃ :: c₄ :: c₅ :: c₆ :: c₇ :: rest =>
            have more : n = rest.length + 8 := by simpa using left.symm
            have words : 4 * (n / 8) = 4 + 4 * (rest.length / 8) := by omega
            rw [writeNibbles_word reliable t addr start, ih rest.length (by omega) (by omega) _ _
              (by omega) rfl, words, ← writeRange_append (by omega), writeWord_eq_writeRange]
            rw [writeRange_congr fun i inside =>
              wordByte_collected c₀ c₁ c₂ c₃ c₄ c₅ c₆ c₇ rest inside]
            apply writeRange_congr
            intro i _
            rw [Nat.add_comm]
            rfl

/-- When every access succeeds, so does the loop. -/
theorem writeNibbles_err (reliable : host.Reliable) (digits : List Byte) (t : Target)
    (addr val : BitVec 32) (nibc : Nat) :
    (writeNibbles host t addr val nibc digits).err = .errNone := by
  induction digits generalizing t addr val nibc with
  | nil => rfl
  | cons ch digits ih =>
      rw [writeNibbles]
      dsimp only
      rw [gdbWriteWords, Target.writes_reliable reliable]
      split
      · exact ih _ _ _ _
      · exact ih _ _ _ _

/-! ## The request -/

/-- The packet has the form `M<addr>,<length>:<data>`, the data being two digits for
each byte. -/
structure HexWritePacket (buf : RspBuf) (addr : BitVec 32) (len : Nat) (digits : List Byte) :
    Prop where
  packet : MemoryPacket 'M' buf addr len digits
  areDigits : ∀ ch ∈ digits, IsHexDigit ch
  pairs : digits.length = 2 * len

/-- The packet determines what it asks for. -/
theorem HexWritePacket.unique {buf : RspBuf} (received : buf.len < gdbBufMax)
    {addr addr' : BitVec 32} {len len' : Nat} {digits digits' : List Byte}
    (packet : HexWritePacket buf addr len digits)
    (packet' : HexWritePacket buf addr' len' digits') :
    addr = addr' ∧ len = len' ∧ digits = digits' := by
  have size : gdbBufMax = 281 := by decide
  have pairs := packet.pairs
  have pairs' := packet'.pairs
  have short := packet.packet.length_le received
  have short' := packet'.packet.length_le received
  exact packet.packet.unique (by decide) (by decide) (by omega) (by omega) packet'.packet

/-- The packet passes the checks of `rsp_write_mem`: `sscanf` finds two numbers, and
twice the second is the number of characters behind the colon. -/
def HexWriteChecked (host : Host) (buf : RspBuf) : Prop :=
  ∃ addr len, two (sscanf (memFormat 'M') buf.cText) = some (addr, len) ∧
    (len * 2).toInt = RspServer.datlen host buf ∧
    ¬ (buf.colon = none ∧ 0 < RspServer.datlen host buf)

/-- The packet asks for a write, and the bytes that it is about are written. -/
def HexWriteExact (buf : RspBuf) (memory memory' : Memory) : Prop :=
  ∃ addr len digits, HexWritePacket buf addr len digits ∧
    WrittenExactly memory memory' addr (hex2ascii digits)

/-- The packet asks for a write, and the bytes behind its last whole word are what they
should become already. -/
def HexWriteWhole (buf : RspBuf) (memory : Memory) : Prop :=
  ∃ addr len digits, HexWritePacket buf addr len digits ∧
    ∀ i < len, 4 * (len / 4) ≤ i →
      memory (addr + BitVec.ofNat 32 i) = (hex2ascii digits).getD i 0

/-- The packets that are answered `OK` are those that pass the checks. -/
theorem writeMem_ok_iff (reliable : host.Reliable) (s : RspServer) (buf : RspBuf) :
    s.replies (s.rspWriteMem host buf) = [str "OK"] ↔ HexWriteChecked host buf := by
  have other : str "E01" ≠ str "OK" := by decide
  unfold HexWriteChecked RspServer.rspWriteMem
  cases parsed : two (sscanf (memFormat 'M') buf.cText) with
  | none =>
      rw [RspServer.replies_of_sent rfl, List.singleton_inj]
      exact iff_of_false other fun ⟨_, _, found, _⟩ => nomatch found
  | some numbers =>
      obtain ⟨addr, len⟩ := numbers
      dsimp only
      have checked : (∃ addr' len', some (addr, len) = some (addr', len') ∧
          (len' * 2).toInt = RspServer.datlen host buf ∧
          ¬ (buf.colon = none ∧ 0 < RspServer.datlen host buf)) ↔
          (len * 2).toInt = RspServer.datlen host buf ∧
            ¬ (buf.colon = none ∧ 0 < RspServer.datlen host buf) := by
        constructor
        · rintro ⟨_, _, found, checks⟩
          cases found
          exact checks
        · exact fun checks => ⟨addr, len, rfl, checks⟩
      rw [checked]
      split
      · next wrong =>
          rw [RspServer.replies_of_sent rfl, List.singleton_inj]
          exact iff_of_false other fun checks => wrong checks.1
      · next right =>
          split
          · next lost =>
              have silent : s.replies s.crash = [] := by simp [RspServer.replies, RspServer.crash]
              rw [silent]
              exact iff_of_false (by simp) fun checks => checks.2 lost
          · next found =>
              rw [writeNibbles_err reliable, if_neg (by simp), RspServer.replies_of_sent rfl]
              exact iff_of_true rfl ⟨not_not.mp right, found⟩

/-- A packet of the form writes the whole words of its data. -/
theorem rspWriteMem_memory (reliable : host.Reliable) (s : RspServer) {buf : RspBuf}
    (received : buf.len < gdbBufMax) {addr : BitVec 32} {len : Nat} {digits : List Byte}
    (packet : HexWritePacket buf addr len digits) :
    (s.rspWriteMem host buf).target.memory =
      writeRange s.target.memory addr (fun i => (hex2ascii digits).getD i 0) (4 * (len / 4)) := by
  obtain ⟨⟨a, l, address, length, text⟩, areDigits, pairs⟩ := packet
  have size : gdbBufMax = 281 := by decide
  have total := MemoryPacket.len_eq text received
  have nonempty : 0 < (header 'M' a l).length := by simp [header]
  have parsed := MemoryPacket.parsed address length text (by decide) (by decide) (by omega)
  have colon := MemoryPacket.colon address length text (by decide) (by decide)
  have start : RspServer.symdat host buf = (header 'M' a l).length := by
    rw [RspServer.symdat, colon]
    dsimp only
    omega
  have datlen : RspServer.datlen host buf = digits.length := by
    rw [RspServer.datlen, start, total, BitVec.toInt_ofInt, Int.bmod_eq_of_le] <;> omega
  have double : (BitVec.ofNat 32 len * 2).toInt = digits.length := by
    rw [BitVec.toInt_eq_toNat_of_lt] <;> rw [BitVec.toNat_mul] <;> simp <;> omega
  have data := MemoryPacket.data_at text
  simp only [RspServer.rspWriteMem, parsed, double, datlen, start, colon, ne_eq, not_true_eq_false,
    if_false, reduceCtorEq, false_and, Int.toNat_natCast, data, writeNibbles_err reliable]
  rw [RspServer.put, writeNibbles_memory reliable (by omega) s.target addr rfl, pairs]
  have words : 2 * len / 8 = len / 4 := by omega
  rw [words]

/-- **Writing memory in hexadecimal.**  When every debug access succeeds, a packet that
is answered `OK` has the form of a write and has written its bytes exactly, if and only
if, passing the checks, it has the form and its last bytes, those behind the last whole
word, were in the memory before. -/
theorem writeMem_exact_iff (reliable : host.Reliable) (s : RspServer) {buf : RspBuf}
    (received : buf.len < gdbBufMax) :
    (s.replies (s.rspWriteMem host buf) = [str "OK"] →
        HexWriteExact buf s.target.memory (s.rspWriteMem host buf).target.memory) ↔
      (HexWriteChecked host buf → HexWriteWhole buf s.target.memory) := by
  rw [writeMem_ok_iff reliable]
  refine imp_congr_right fun _ => exists_congr fun addr => exists_congr fun len =>
    exists_congr fun digits => and_congr_right fun packet => ?_
  have size : gdbBufMax = 281 := by decide
  obtain ⟨a, l, -, -, text⟩ := packet.packet
  have total := MemoryPacket.len_eq text received
  have bytes : (hex2ascii digits).length = len := by
    rw [hex2ascii_length, packet.pairs]
    omega
  have pairs := packet.pairs
  rw [rspWriteMem_memory reliable s received packet,
    writtenExactly_writeRange (by omega) (by omega)]
  constructor
  · intro same i inside behind
    rw [List.getD_eq_getElem _ _ (by omega), ← same i (by omega), if_neg (by omega)]
  · intro there i inside
    split
    · exact List.getD_eq_getElem _ _ (by omega)
    · next behind =>
        rw [there i (by omega) (by omega)]
        exact List.getD_eq_getElem _ _ (by omega)

/-- A request for two bytes. -/
theorem twoBytes_packet :
    HexWritePacket (packetBuf "M4015cc,2:c320") 0x4015cc 2 (str "c320") where
  packet := ⟨str "4015cc", str "2", ⟨by decide, by decide +kernel, by decide +kernel⟩,
    ⟨by decide, by decide +kernel, by decide +kernel⟩, by decide +kernel⟩
  areDigits := by decide +kernel
  pairs := by decide

/-- Two bytes are answered `OK` and not written. -/
theorem two_bytes_not_written :
    ¬ (idleServer.replies (idleServer.rspWriteMem idleHost (packetBuf "M4015cc,2:c320")) =
        [str "OK"] →
      HexWriteExact (packetBuf "M4015cc,2:c320") idleServer.target.memory
        (idleServer.rspWriteMem idleHost (packetBuf "M4015cc,2:c320")).target.memory) := by
  intro exact
  obtain ⟨addr, len, digits, packet, written⟩ := exact (by decide +kernel)
  obtain ⟨rfl, rfl, rfl⟩ := packet.unique (by decide) twoBytes_packet
  have first := written.written 0 (by decide)
  exact absurd first (by decide +kernel)

/-- A request for a word. -/
theorem wholeWord_packet :
    HexWritePacket (packetBuf "M101,4:01020304") 0x101 4 (str "01020304") where
  packet := ⟨str "101", str "4", ⟨by decide, by decide +kernel, by decide +kernel⟩,
    ⟨by decide, by decide +kernel, by decide +kernel⟩, by decide +kernel⟩
  areDigits := by decide +kernel
  pairs := by decide

/-- A word is written. -/
theorem writeMem_exact_word :
    idleServer.replies (idleServer.rspWriteMem idleHost (packetBuf "M101,4:01020304")) =
        [str "OK"] ∧
      HexWriteExact (packetBuf "M101,4:01020304") idleServer.target.memory
        (idleServer.rspWriteMem idleHost (packetBuf "M101,4:01020304")).target.memory := by
  have answered : idleServer.replies (idleServer.rspWriteMem idleHost
      (packetBuf "M101,4:01020304")) = [str "OK"] := by
    decide +kernel
  exact ⟨answered, (writeMem_exact_iff (fun _ => rfl) idleServer (by decide)).mpr
    (fun _ => ⟨0x101, 4, _, wholeWord_packet, fun i inside behind => by omega⟩) answered⟩

end OrpsocCores.Gdb
