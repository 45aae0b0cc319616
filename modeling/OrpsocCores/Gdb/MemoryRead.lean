import OrpsocCores.Foundation.ByteRange
import OrpsocCores.Gdb.HandleRsp

/-!
# Reading memory

`rsp_read_mem` reads single bytes up to a word boundary, whole words as a block, and
single bytes again.  A byte arrives as it is; a word arrives as a number of the host,
whose bytes lie in memory with the least significant one first, and is never turned
around.  `fetched` is what the three ways of access together put into the buffer, and
`readMem_exact_iff` says when the reply is right: when every word of the range reads
the same backwards.
-/

set_option autoImplicit false

namespace OrpsocCores.Gdb

open Scanf

variable {host : Host}

/-! ## What the accesses fetch -/

/-- The number of words of a range that are read as words. -/
def wholeWords (addr : BitVec 32) (n : Nat) : Nat := (n - bytesToAlign addr n) / 4

/-- The address of one of them. -/
def wordStart (addr : BitVec 32) (n i : Nat) : BitVec 32 :=
  addr + BitVec.ofNat 32 (bytesToAlign addr n) + BitVec.ofNat 32 (4 * i)

/-- The bytes in the buffer of `rsp_read_mem`. -/
def fetched (memory : Memory) (addr : BitVec 32) (n : Nat) : List Byte :=
  readRange memory addr (bytesToAlign addr n) ++
    (List.range (wholeWords addr n)).flatMap
      (fun i => lanes (readWord memory (wordStart addr n i))) ++
    readRange memory (wordStart addr n (wholeWords addr n)) ((n - bytesToAlign addr n) % 4)

theorem bytesToAlign_le (addr : BitVec 32) (n : Nat) : bytesToAlign addr n ≤ n := by
  unfold bytesToAlign
  split <;> omega

theorem readBytes_reliable (reliable : host.Reliable) (t : Target) (addr : BitVec 32) (n : Nat) :
    ∃ performed, readBytes host t addr n =
      ⟨{ t with performed := performed }, .errNone, readRange t.memory addr n⟩ := by
  induction n generalizing t addr with
  | zero => exact ⟨t.performed, rfl⟩
  | succ n ih =>
      obtain ⟨performed, rest⟩ := ih { t with performed := t.performed + 1 } (addr + 1)
      refine ⟨performed, ?_⟩
      rw [readBytes, gdbReadByte, Target.reads_reliable reliable]
      simp only [ne_eq, not_true_eq_false, if_false, rest, readRange_succ]

theorem readMemory_reliable (reliable : host.Reliable) (t : Target) (addr : BitVec 32) (n : Nat) :
    ∃ performed, readMemory host t addr n =
      ⟨{ t with performed := performed }, .errNone, fetched t.memory addr n⟩ := by
  obtain ⟨first, head⟩ := readBytes_reliable reliable t addr (bytesToAlign addr n)
  have block : ∃ performed data,
      (if wholeWords addr n = 0 then ⟨{ t with performed := first }, .errNone, fun _ => 0⟩
        else gdbReadWords host { t with performed := first }
          (addr + BitVec.ofNat 32 (bytesToAlign addr n))) =
        (⟨{ t with performed := performed }, .errNone, data⟩ : Result (Nat → BitVec 32)) ∧
      ∀ i < wholeWords addr n, data i = readWord t.memory (wordStart addr n i) := by
    by_cases none : wholeWords addr n = 0
    · exact ⟨first, fun _ => 0, if_pos none, fun i inside => absurd inside (by omega)⟩
    · rw [if_neg none, gdbReadWords, Target.reads_reliable reliable]
      exact ⟨first + 1, _, rfl, fun i _ => rfl⟩
  obtain ⟨second, data, words, value⟩ := block
  obtain ⟨third, tail⟩ := readBytes_reliable reliable { t with performed := second }
    (wordStart addr n (wholeWords addr n)) ((n - bytesToAlign addr n) % 4)
  refine ⟨third, ?_⟩
  have middle : (List.range (wholeWords addr n)).flatMap (fun i => lanes (data i)) =
      (List.range (wholeWords addr n)).flatMap
        fun i => lanes (readWord t.memory (wordStart addr n i)) := by
    rw [List.flatMap, List.flatMap]
    congr 1
    apply List.map_congr_left
    intro i inside
    rw [value i (List.mem_range.mp inside)]
  unfold wholeWords at words tail middle
  unfold wordStart at tail middle
  rw [readMemory]
  simp only [head, words, tail, ne_eq, not_true_eq_false, if_false, fetched, middle, wholeWords,
    wordStart]

/-! ## When it is the range -/

/-- The four bytes from an address on are the same backwards. -/
def SameBackwards (memory : Memory) (a : BitVec 32) : Prop :=
  readRange memory a 4 = (readRange memory a 4).reverse

instance (memory : Memory) (a : BitVec 32) : Decidable (SameBackwards memory a) :=
  inferInstanceAs (Decidable (_ = _))

/-- The range, cut as the accesses cut it. -/
theorem readRange_cut (memory : Memory) (addr : BitVec 32) (n : Nat) :
    readRange memory addr n = readRange memory addr (bytesToAlign addr n) ++
      (List.range (wholeWords addr n)).flatMap
        (fun i => readRange memory (wordStart addr n i) 4) ++
      readRange memory (wordStart addr n (wholeWords addr n)) ((n - bytesToAlign addr n) % 4) := by
  have before := bytesToAlign_le addr n
  have parts : n = bytesToAlign addr n + 4 * wholeWords addr n + (n - bytesToAlign addr n) % 4 := by
    unfold wholeWords
    omega
  conv_lhs => rw [parts]
  rw [readRange_append, readRange_append, readRange_words, wordStart, BitVec.ofNat_add,
    ← BitVec.add_assoc]
  rfl

/-- Lists made of as many pieces of one length are equal if the pieces are. -/
theorem flatMap_range_inj {α : Type} {f g : Nat → List α} {length n : Nat}
    (lengthF : ∀ i, (f i).length = length) (lengthG : ∀ i, (g i).length = length) :
    (List.range n).flatMap f = (List.range n).flatMap g ↔ ∀ i < n, f i = g i := by
  induction n with
  | zero => exact iff_of_true rfl fun i inside => absurd inside (Nat.not_lt_zero i)
  | succ n ih =>
      rw [List.range_succ, List.flatMap_append, List.flatMap_append, List.flatMap_singleton,
        List.flatMap_singleton]
      constructor
      · intro same i inside
        obtain ⟨front, last⟩ := List.append_inj' same ((lengthF n).trans (lengthG n).symm)
        rcases Nat.lt_succ_iff_lt_or_eq.mp inside with before | rfl
        · exact ih.mp front i before
        · exact last
      · intro same
        rw [ih.mpr fun i before => same i (Nat.lt_succ_of_lt before), same n (Nat.lt_succ_self n)]

/-- **What is fetched is the range if and only if its words read the same backwards.** -/
theorem fetched_eq_iff (memory : Memory) (addr : BitVec 32) (n : Nat) :
    fetched memory addr n = readRange memory addr n ↔
      ∀ i < wholeWords addr n, SameBackwards memory (wordStart addr n i) := by
  have read : ∀ i, (lanes (readWord memory (wordStart addr n i))).length = 4 := fun _ => rfl
  have range : ∀ i, (readRange memory (wordStart addr n i) 4).length = 4 :=
    fun _ => readRange_length _ _ _
  rw [readRange_cut, fetched, List.append_left_inj, List.append_right_inj,
    flatMap_range_inj read range]
  refine forall₂_congr fun i _ => ?_
  rw [SameBackwards, readRange_four, List.reverse_reverse]
  exact eq_comm

/-! ## Digits -/

theorem ascii2hex_length (src : List Byte) : (ascii2hex src).length = 2 * src.length := by
  induction src with
  | nil => rfl
  | cons ch src ih =>
      have pair : ascii2hex (ch :: src) =
          digit (ch >>> 4 &&& 0xf).toNat :: digit (ch &&& 0xf).toNat :: ascii2hex src := rfl
      rw [pair, List.length_cons, List.length_cons, ih, List.length_cons]
      omega

/-- Different values have different digits. -/
theorem digit_inj {v w : Nat} (small : v < 16) (small' : w < 16) (same : digit v = digit w) :
    v = w := by
  have first := (digit_spec ⟨v, small⟩).2
  have second := (digit_spec ⟨w, small'⟩).2
  rw [← same] at second
  exact congrArg Fin.val (first.unique second)

/-- The two halves of a byte. -/
theorem toNat_high (ch : Byte) : (ch >>> 4 &&& 0xf).toNat = ch.toNat / 16 := by
  have small := ch.isLt
  rw [BitVec.toNat_and, BitVec.toNat_ushiftRight, Nat.shiftRight_eq_div_pow]
  exact (Nat.and_two_pow_sub_one_eq_mod _ 4).trans (Nat.mod_eq_of_lt (by omega))

theorem toNat_low (ch : Byte) : (ch &&& 0xf).toNat = ch.toNat % 16 := by
  rw [BitVec.toNat_and]
  exact Nat.and_two_pow_sub_one_eq_mod _ 4

/-- The digits of bytes determine them. -/
theorem ascii2hex_injective {src src' : List Byte} (same : ascii2hex src = ascii2hex src') :
    src = src' := by
  induction src generalizing src' with
  | nil =>
      have length := congrArg List.length same
      rw [ascii2hex_length, ascii2hex_length] at length
      exact (List.length_eq_zero_iff.mp (by simpa using length.symm)).symm
  | cons ch src ih =>
      cases src' with
      | nil =>
          have length := congrArg List.length same
          rw [ascii2hex_length, ascii2hex_length, List.length_cons, List.length_nil] at length
          omega
      | cons ch' src' =>
          have pair : ∀ (ch : Byte) (src : List Byte), ascii2hex (ch :: src) =
            digit (ch >>> 4 &&& 0xf).toNat :: digit (ch &&& 0xf).toNat :: ascii2hex src :=
              fun _ _ => rfl
          rw [pair, pair, List.cons.injEq, List.cons.injEq, toNat_high, toNat_high, toNat_low,
            toNat_low] at same
          obtain ⟨high, low, rest⟩ := same
          have high' := digit_inj (by omega) (by omega) high
          have low' := digit_inj (by omega) (by omega) low
          have first : ch = ch' := BitVec.eq_of_toNat_eq (by omega)
          rw [first, ih rest]

/-- No digits of bytes are an error. -/
theorem ascii2hex_ne_error (src : List Byte) : str "E01" ≠ ascii2hex src := by
  intro same
  have length := congrArg List.length same
  rw [ascii2hex_length] at length
  have three : (str "E01").length = 3 := by decide
  omega

/-! ## The request -/

/-- **Reading memory.**  When every debug access succeeds, a request for a range whose
digits fit the packet buffer is answered with the digits of its bytes if and only if
`malloc` grants the buffer and every word that is read as a word is the same
backwards. -/
theorem readMem_exact_iff (reliable : host.Reliable) (room : gdbBufMax ≤ host.room)
    (s : RspServer) {buf : RspBuf} {addr len : BitVec 32}
    (parsed : two (sscanf (memFormat 'm') buf.cText) = some (addr, len))
    (fits : 2 * len.toNat ≤ gdbBufMax - 1) :
    s.replies (s.rspReadMem host buf) = [ascii2hex (readRange s.target.memory addr len.toNat)] ↔
      host.malloc len.toNat = true ∧
        ∀ i < wholeWords addr len.toNat,
          SameBackwards s.target.memory (wordStart addr len.toNat i) := by
  have size : gdbBufMax = 281 := by decide
  have length : RspServer.readLength len = len.toNat := by
    have double : (len * 2).toInt = 2 * len.toNat := by
      rw [BitVec.toInt_eq_toNat_of_lt] <;> rw [BitVec.toNat_mul] <;> simp <;> omega
    rw [RspServer.readLength, double, if_neg (by omega), BitVec.toInt_eq_toNat_of_lt (by omega)]
  have replyFits : RspServer.ReplyFits host len.toNat := ⟨by omega, by omega⟩
  obtain ⟨performed, read⟩ := readMemory_reliable reliable s.target addr len.toNat
  have mallocs : host.mallocs (len.toNat : Int) = host.malloc len.toNat := by
    simp [Host.mallocs]
  simp only [RspServer.rspReadMem, parsed, length, mallocs, Int.toNat_natCast, read, ne_eq,
    not_true_eq_false, if_false, replyFits, if_true]
  by_cases granted : host.malloc len.toNat = true
  · rw [if_pos granted, RspServer.replies_of_sent rfl, List.singleton_inj, ← fetched_eq_iff]
    exact ⟨fun same => ⟨granted, ascii2hex_injective same⟩, fun exact => by rw [exact.2]⟩
  · rw [if_neg granted, RspServer.replies_of_sent rfl, List.singleton_inj]
    exact iff_of_false (ascii2hex_ne_error _) fun exact => granted exact.1

/-- Every byte of the memory is the last one of its address. -/
def countingServer : RspServer :=
  { idleServer with target := { idleServer.target with memory := fun a => a.setWidth 8 } }

/-- A word is read backwards. -/
theorem word_read_backwards :
    ¬ countingServer.replies (countingServer.rspReadMem idleHost (packetBuf "m100,4")) =
      [ascii2hex (readRange countingServer.target.memory 0x100 4)] := by
  decide +kernel

/-- Every byte of the memory is the number of its word. -/
def numberedServer : RspServer :=
  { idleServer with target := { idleServer.target with memory := fun a => (a >>> 2).setWidth 8 } }

/-- Words of equal bytes are read as they are. -/
theorem readMem_exact_numbered :
    numberedServer.replies (numberedServer.rspReadMem idleHost (packetBuf "m101,8")) =
      [ascii2hex (readRange numberedServer.target.memory 0x101 8)] := by
  have parsed : two (sscanf (memFormat 'm') (packetBuf "m101,8").cText) = some (0x101, 8) := by
    decide +kernel
  exact (readMem_exact_iff (fun _ => rfl) (Nat.le_refl _) numberedServer parsed (by decide)).mpr
    ⟨rfl, by decide +kernel⟩

end OrpsocCores.Gdb
