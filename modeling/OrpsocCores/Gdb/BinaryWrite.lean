import Mathlib.Data.List.GetD
import OrpsocCores.Gdb.MemoryPacket
import OrpsocCores.Gdb.MemoryRead
import OrpsocCores.Gdb.RoundTrip

/-!
# Writing memory in binary

`rsp_write_mem_bin` turns the bytes of the payload around in groups of four, counted
from the start of the payload, and then writes bytes up to a word boundary of the
target, whole words and bytes again.  Written as a word, four bytes of the buffer are
turned around once more.  A byte of the payload comes out in its place only if the
groups are the words and nothing is left over (`source_eq_self_iff`).

`writeMemBin_exact_iff` says which payloads a packet writes as they are.
-/

set_option autoImplicit false

namespace OrpsocCores.Gdb

open FixedBuffer

variable {host : Host}

/-! ## The buffer turned around -/

/-- The place across from a place in its group of four. -/
def mirror (i : Nat) : Nat := 4 * (i / 4) + (3 - i % 4)

theorem mirror_ne (i : Nat) : mirror i ≠ i := by
  unfold mirror
  omega

@[simp] theorem mirror_mirror (i : Nat) : mirror (mirror i) = i := by
  unfold mirror
  omega

/-- One group. -/
theorem swapWord_apply (data : Chars) (k i : Nat) :
    swapWord data (4 * k) i = if i / 4 = k then data (mirror i) else data i := by
  unfold swapWord mirror
  by_cases inside : i / 4 = k
  · have place : i = 4 * k ∨ i = 4 * k + 1 ∨ i = 4 * k + 2 ∨ i = 4 * k + 3 := by omega
    have quotient : ∀ r < 4, (4 * k + r) / 4 = k ∧ (4 * k + r) % 4 = r := by omega
    rw [if_pos inside]
    rcases place with rfl | rfl | rfl | rfl
    · simp
    · simp [quotient 1 (by decide)]
    · simp [quotient 2 (by decide)]
    · simp [quotient 3 (by decide)]
  · rw [if_neg inside, if_neg (by omega), if_neg (by omega), if_neg (by omega), if_neg (by omega)]

/-- As many groups. -/
theorem swapWords_apply (data : Chars) (n : Nat) :
    (List.range n).foldl (fun data k => swapWord data (4 * k)) data =
      fun i => if i / 4 < n then data (mirror i) else data i := by
  induction n with
  | zero => rfl
  | succ n ih =>
      funext i
      have same : mirror i / 4 = i / 4 := by
        unfold mirror
        omega
      rw [List.range_succ, List.foldl_append, ih, List.foldl_cons, List.foldl_nil, swapWord_apply,
        same, mirror_mirror]
      by_cases last : i / 4 = n
      · rw [if_pos last, if_neg (by omega), if_pos (by omega)]
      · rw [if_neg last]
        exact if_congr (by omega) rfl rfl

/-- What is written of the buffer. -/
theorem swapBuf_apply (data : Chars) {len i : Nat} (inside : i < len) :
    swapBuf data len i = if 2 < len then data (mirror i) else data i := by
  unfold swapBuf
  split
  · rw [swapWords_apply]
    exact if_pos (by omega)
  · rfl

/-! ## The accesses -/

theorem writeBytes_reliable (reliable : host.Reliable) (t : Target) (addr : BitVec 32)
    (data : Chars) {n : Nat} (small : n ≤ 2 ^ 32) :
    ∃ performed, writeBytes host t addr data n =
      ⟨{ t with memory := writeRange t.memory addr data n, performed := performed }, .errNone,
        ()⟩ := by
  induction n with
  | zero => exact ⟨t.performed, by rw [writeRange_zero]; rfl⟩
  | succ n ih =>
      obtain ⟨performed, front⟩ := ih (by omega)
      refine ⟨performed + 1, ?_⟩
      rw [writeBytes, List.range_succ, List.foldl_append, ← writeBytes, front, List.foldl_cons,
        List.foldl_nil, gdbWriteByte, Target.writes_reliable reliable, ← writeRange_append small]
      dsimp only
      rw [← update_eq_writeRange]
      rfl

/-- The byte of the buffer that is written here: in a word, the one across. -/
def bufferPlace (addr : BitVec 32) (n i : Nat) : Nat :=
  if bytesToAlign addr n ≤ i ∧ i < bytesToAlign addr n + 4 * wholeWords addr n then
    bytesToAlign addr n + mirror (i - bytesToAlign addr n)
  else i

theorem bufferPlace_lt (addr : BitVec 32) {n i : Nat} (inside : i < n) :
    bufferPlace addr n i < n := by
  have bound := bytesToAlign_le addr n
  unfold bufferPlace wholeWords mirror
  split <;> omega

theorem wordByte_hostWord (data : Chars) (k : Nat) {r : Nat} (inside : r < 4) :
    wordByte (hostWord data k) r = data (4 * k + (3 - r)) :=
  lane_append (fun b => data (4 * k + b)) ⟨3 - r, by omega⟩

/-- The bytes in front of the first boundary and the whole words. -/
theorem alignedBlock_reliable (reliable : host.Reliable) (t : Target) (addr : BitVec 32)
    (data : Chars) {n : Nat} (small : n < 2 ^ 32) :
    ∃ performed,
      (if 3 < n - bytesToAlign addr n ∧ (writeBytes host t addr data (bytesToAlign addr n)).err =
          .errNone then
        gdbWriteWords host (writeBytes host t addr data (bytesToAlign addr n)).target
          (addr + BitVec.ofNat 32 (bytesToAlign addr n))
          (hostWord fun i => data (bytesToAlign addr n + i)) (wholeWords addr n)
      else writeBytes host t addr data (bytesToAlign addr n)) =
        ⟨{ t with
            memory := writeRange t.memory addr (fun i => data (bufferPlace addr n i))
              (bytesToAlign addr n + 4 * wholeWords addr n)
            performed := performed }, .errNone, ()⟩ := by
  have bound := bytesToAlign_le addr n
  obtain ⟨first, head⟩ := writeBytes_reliable reliable t addr data
    (show bytesToAlign addr n ≤ 2 ^ 32 by omega)
  have front : writeRange t.memory addr data (bytesToAlign addr n) =
      writeRange t.memory addr (fun i => data (bufferPlace addr n i)) (bytesToAlign addr n) := by
    apply writeRange_congr
    intro i before
    rw [bufferPlace, if_neg (by omega)]
  by_cases some : 3 < n - bytesToAlign addr n
  · refine ⟨first + 1, ?_⟩
    rw [head, if_pos ⟨some, rfl⟩, gdbWriteWords, Target.writes_reliable reliable]
    dsimp only
    rw [foldl_writeWord _ _ _ (by unfold wholeWords; omega), front,
      ← writeRange_append (by unfold wholeWords; omega)]
    refine congrArg (fun memory => (⟨⟨_, memory, _⟩, _, _⟩ : Result Unit)) ?_
    apply writeRange_congr
    intro i inside
    have place : 4 * (i / 4) + (3 - i % 4) = mirror i := rfl
    rw [wordByte_hostWord _ _ (Nat.mod_lt i (by decide)), place, bufferPlace,
      if_pos ⟨by omega, by omega⟩, Nat.add_sub_cancel_left]
  · have none : wholeWords addr n = 0 := by
      unfold wholeWords
      omega
    refine ⟨first, ?_⟩
    rw [if_neg fun both => some both.1, head, none, front]
    rfl

/-- **What the accesses write.** -/
theorem writeMemory_reliable (reliable : host.Reliable) (t : Target) (addr : BitVec 32)
    (data : Chars) {n : Nat} (small : n < 2 ^ 32) :
    (writeMemory host t addr data n).err = .errNone ∧
      (writeMemory host t addr data n).target.memory =
        writeRange t.memory addr (fun i => data (bufferPlace addr n i)) n := by
  have bound := bytesToAlign_le addr n
  obtain ⟨second, words⟩ := alignedBlock_reliable reliable t addr data small
  have total : bytesToAlign addr n + 4 * wholeWords addr n + (n - bytesToAlign addr n) % 4 = n := by
    unfold wholeWords
    omega
  rw [writeMemory, ← wholeWords, words]
  by_cases more : (n - bytesToAlign addr n) % 4 ≠ 0
  · obtain ⟨third, tail⟩ := writeBytes_reliable reliable
      ⟨t.cpu, writeRange t.memory addr (fun i => data (bufferPlace addr n i))
        (bytesToAlign addr n + 4 * wholeWords addr n), second⟩
      (addr + BitVec.ofNat 32 (bytesToAlign addr n) + BitVec.ofNat 32 (4 * wholeWords addr n))
      (fun i => data (bytesToAlign addr n + 4 * wholeWords addr n + i))
      (show (n - bytesToAlign addr n) % 4 ≤ 2 ^ 32 by omega)
    rw [if_pos ⟨more, rfl⟩, tail]
    refine ⟨rfl, ?_⟩
    dsimp only
    have behind : writeRange t.memory addr (fun i => data (bufferPlace addr n i)) n =
        writeRange (writeRange t.memory addr (fun i => data (bufferPlace addr n i))
            (bytesToAlign addr n + 4 * wholeWords addr n))
          (addr + BitVec.ofNat 32 (bytesToAlign addr n + 4 * wholeWords addr n))
          (fun i => data (bufferPlace addr n (bytesToAlign addr n + 4 * wholeWords addr n + i)))
          ((n - bytesToAlign addr n) % 4) := by
      rw [writeRange_append (by omega), total]
    rw [behind, BitVec.add_assoc, ← BitVec.ofNat_add]
    apply writeRange_congr
    intro i inside
    rw [bufferPlace, if_neg (by omega)]
  · rw [if_neg fun both => more both.1]
    refine ⟨rfl, ?_⟩
    have all : bytesToAlign addr n + 4 * wholeWords addr n = n := by omega
    dsimp only
    rw [all]

/-! ## The bytes of the payload -/

/-- The place in the payload of the byte that is written here. -/
def source (addr : BitVec 32) (len i : Nat) : Nat :=
  if 2 < len then mirror (bufferPlace addr len i) else i

/-- **When every byte of a payload is written in its place.** -/
theorem source_eq_self_iff (addr : BitVec 32) (len : Nat) :
    (∀ i < len, source addr len i = i) ↔ len ≤ 2 ∨ addr.toNat % 4 = 0 ∧ len % 4 = 0 := by
  constructor
  · intro same
    by_contra wrong
    rw [not_or, not_and] at wrong
    have long : 2 < len := by omega
    simp only [source, if_pos long] at same
    by_cases aligned : addr.toNat % 4 = 0
    · -- the first byte behind the last whole word
      have start : bytesToAlign addr len = 0 := if_pos aligned
      have rest := wrong.2 aligned
      have place : bufferPlace addr len (4 * (len / 4)) = 4 * (len / 4) := by
        rw [bufferPlace, wholeWords, start, if_neg (by omega)]
      have here := same (4 * (len / 4)) (by omega)
      rw [place] at here
      exact mirror_ne _ here
    · -- the first byte in front of the first boundary
      have some : 0 < bytesToAlign addr len := by
        rw [bytesToAlign, if_neg aligned]
        omega
      have place : bufferPlace addr len 0 = 0 := by
        rw [bufferPlace, if_neg (by omega)]
      have here := same 0 (by omega)
      rw [place] at here
      exact mirror_ne _ here
  · rintro (short | ⟨aligned, whole⟩) i inside
    · exact if_neg (by omega)
    · have start : bytesToAlign addr len = 0 := if_pos aligned
      rw [source, bufferPlace, wholeWords, start]
      split
      · rw [if_pos (by omega), Nat.zero_add, Nat.sub_zero, mirror_mirror]
      · rfl

/-- What the buffer holds here after `rsp_unescape`: the payload, and behind it what it
held before. -/
def unescaped (host : Host) (buf : RspBuf) (body payload : List Byte) (j : Nat) : Byte :=
  if inside : j < payload.length then payload[j]
  else (buf.data.toList.drop (buf.len - body.length)).getD j (host.uninit j)

/-- The packet has the form `X<addr>,<length>:` followed by this payload in escaped
form. -/
def BinaryWritePacket (buf : RspBuf) (addr : BitVec 32) (payload body : List Byte) : Prop :=
  MemoryPacket 'X' buf addr payload.length body ∧ EscapedForm payload body

/-- What a packet with a payload does. -/
theorem rspWriteMemBin_written (reliable : host.Reliable) (s : RspServer) {buf : RspBuf}
    (received : buf.len < gdbBufMax) {addr : BitVec 32} {payload body : List Byte}
    (packet : BinaryWritePacket buf addr payload body) :
    s.replies (s.rspWriteMemBin host buf) = [str "OK"] ∧
      (s.rspWriteMemBin host buf).target.memory = writeRange s.target.memory addr
        (fun i => unescaped host buf body payload (source addr payload.length i))
        payload.length := by
  obtain ⟨⟨a, l, address, length, text⟩, form⟩ := packet
  have size : gdbBufMax = 281 := by decide
  have total := MemoryPacket.len_eq text received
  have shorter := form.length_le
  obtain ⟨k, place⟩ : ∃ k, (header 'X' a l).length = k + 1 := ⟨_, List.length_cons⟩
  have parsed := MemoryPacket.parsed address length text (by decide) (by decide) (by omega)
  have colon := MemoryPacket.colon address length text (by decide) (by decide)
  have data := MemoryPacket.data_at text
  rw [place] at total data
  rw [place, Nat.add_sub_cancel] at colon
  have left : buf.len - (k + 1) = body.length := by omega
  have front : buf.len - body.length = k + 1 := by omega
  have body' : (buf.data.drop (k + 1)).toList.take body.length = body := by
    rw [Vector.toList_drop]
    exact data
  obtain ⟨data, converted, holds, kept⟩ := rspUnescape_form form body'
  have cells : (fun i => data.toList.getD i (host.uninit i)) =
      unescaped host buf body payload := by
    funext j
    rw [unescaped, front]
    split
    · next inside =>
        have here := holds j inside
        rw [Nat.zero_add, ← Vector.getElem?_toList, List.getElem?_eq_getElem inside] at here
        rw [List.getD_eq_getElem?_getD, here, Option.getD_some]
    · next behind =>
        have here := kept j (by omega)
        rw [← Vector.getElem?_toList, ← Vector.getElem?_toList, Vector.toList_drop] at here
        rw [List.getD_eq_getElem?_getD, List.getD_eq_getElem?_getD, here]
  have len : min (BitVec.ofNat 32 payload.length).toInt (payload.length : Int) = payload.length := by
    rw [BitVec.toInt_eq_toNat_of_lt] <;> rw [BitVec.toNat_ofNat] <;> omega
  have inArray : ¬ gdbBufMax ≤ k + 1 := by omega
  simp only [RspServer.rspWriteMemBin, parsed, colon, if_neg inArray, left, converted, len, cells,
    Int.toNat_natCast]
  by_cases empty : payload.length = 0
  · rw [if_pos (by omega), empty, writeRange_zero]
    exact ⟨RspServer.replies_of_sent rfl, rfl⟩
  · obtain ⟨err, written⟩ := writeMemory_reliable reliable s.target addr
      (swapBuf (unescaped host buf body payload) payload.length)
      (show payload.length < 2 ^ 32 by omega)
    rw [if_neg (by omega), err, if_neg (by simp)]
    refine ⟨RspServer.replies_of_sent rfl, written.trans ?_⟩
    apply writeRange_congr
    intro i inside
    rw [swapBuf_apply _ (bufferPlace_lt addr inside), source]
    split
    · rfl
    · next short =>
        have bound := bytesToAlign_le addr payload.length
        rw [bufferPlace, wholeWords, if_neg (by omega)]

/-- **Writing memory in binary.**  When every debug access succeeds, a packet that
carries a payload in escaped form is answered `OK` and has written the payload exactly,
if and only if every byte of the payload equals the one that the buffer, before it is
turned around, has at the place that is written there. -/
theorem writeMemBin_exact_iff (reliable : host.Reliable) (s : RspServer) {buf : RspBuf}
    (received : buf.len < gdbBufMax) {addr : BitVec 32} {payload body : List Byte}
    (packet : BinaryWritePacket buf addr payload body) :
    (s.replies (s.rspWriteMemBin host buf) = [str "OK"] ∧
        WrittenExactly s.target.memory (s.rspWriteMemBin host buf).target.memory addr payload) ↔
      ∀ i, ∀ inside : i < payload.length,
        unescaped host buf body payload (source addr payload.length i) = payload[i] := by
  obtain ⟨answered, written⟩ := rspWriteMemBin_written reliable s received packet
  have small : payload.length ≤ 2 ^ 32 := by
    have size : gdbBufMax = 281 := by decide
    have short := packet.1.length_le received
    have shorter := packet.2.length_le
    omega
  rw [written, writtenExactly_writeRange (Nat.le_refl _) small, and_iff_right answered]
  refine forall₂_congr fun i inside => ?_
  rw [if_pos inside]

/-- Three bytes for an aligned address. -/
theorem threeBytes_packet :
    BinaryWritePacket (packetBuf "X100,3:abc") 0x100 (str "abc") (str "abc") :=
  ⟨⟨str "100", str "3", ⟨by decide, by decide +kernel, by decide +kernel⟩,
    ⟨by decide, by decide +kernel, by decide +kernel⟩, by decide +kernel⟩,
    .plain (by decide) (.plain (by decide) (.plain (by decide) .nil))⟩

/-- Three bytes are written turned around, with what stood behind them. -/
theorem three_bytes_turned :
    BinaryWritePacket (packetBuf "X100,3:abc") 0x100 (str "abc") (str "abc") ∧
      ¬ (idleServer.replies (idleServer.rspWriteMemBin idleHost (packetBuf "X100,3:abc")) =
          [str "OK"] ∧
        WrittenExactly idleServer.target.memory
          (idleServer.rspWriteMemBin idleHost (packetBuf "X100,3:abc")).target.memory 0x100
          (str "abc")) := by
  refine ⟨threeBytes_packet, fun exact => ?_⟩
  have reliable : idleHost.Reliable := fun _ => rfl
  have written :=
    (rspWriteMemBin_written reliable idleServer (by decide) threeBytes_packet).2
  have first := exact.2.written 0 (by decide)
  rw [written, writeRange_inside (by decide) (by decide)] at first
  exact absurd first (by decide +kernel)

/-- A word for an aligned address. -/
theorem alignedWord_packet :
    BinaryWritePacket (packetBuf "X100,4:a\x7d]cd") 0x100 (str "a\x7dcd") (str "a\x7d]cd") :=
  ⟨⟨str "100", str "4", ⟨by decide, by decide +kernel, by decide +kernel⟩,
    ⟨by decide, by decide +kernel, by decide +kernel⟩, by decide +kernel⟩,
    .plain (by decide) (.announced (.plain (by decide) (.plain (by decide) .nil)))⟩

/-- A word is written. -/
theorem writeMemBin_exact_word :
    idleServer.replies (idleServer.rspWriteMemBin idleHost (packetBuf "X100,4:a\x7d]cd")) =
        [str "OK"] ∧
      WrittenExactly idleServer.target.memory
        (idleServer.rspWriteMemBin idleHost (packetBuf "X100,4:a\x7d]cd")).target.memory 0x100
        (str "a\x7dcd") :=
  (writeMemBin_exact_iff (fun _ => rfl) idleServer (by decide) alignedWord_packet).mpr
    (by decide +kernel)

end OrpsocCores.Gdb
