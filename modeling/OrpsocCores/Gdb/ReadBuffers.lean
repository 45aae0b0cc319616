import OrpsocCores.Gdb.AccessErrors

/-!
# The buffers of a memory read

`rsp_read_mem` collects the bytes in an array of the length it asks `malloc` for, writes
their digits and a terminator into the packet buffer, and has `put_packet` construct the
packet in an array of its own.  Its check of the length is for twice the size of the
packet buffer, with which it compares the number of digits: lengths from 141 to 280 pass,
and so do those whose double wraps around to a negative number.

`fetchMemory` and `rspReadMemPacket` do to the arrays what the code does to them, with a
fault for an index outside.  They do what `readMemory` and `rspReadMem` say without arrays
(`fetchMemory_spec`, `rspReadMemPacket_sends`), and stay inside exactly when the digits
fit or are never written (`read_bounds_iff`).
-/

set_option autoImplicit false

namespace OrpsocCores.Gdb

open Scanf FixedBuffer

/-! ## The array for the bytes -/

section Fetch

variable {n : Nat} (host : Host)

/-- Read bytes into the array until one cannot be read. -/
def fetchBytes (t : Target) (addr : BitVec 32) (recBuf : Vector Byte n) (i : Nat) :
    Nat → Except Fault (Result (Vector Byte n))
  | 0 => .ok ⟨t, .errNone, recBuf⟩
  | count + 1 => do
      let read := gdbReadByte host t addr
      let recBuf ← store recBuf i read.data
      if read.err ≠ .errNone then .ok ⟨read.target, read.err, recBuf⟩
      else fetchBytes read.target (addr + 1) recBuf (i + 1) count

/-- Store a word in the byte order of the host. -/
def storeWord (recBuf : Vector Byte n) (i : Nat) (word : BitVec 32) :
    Except Fault (Vector Byte n) := do
  let recBuf ← store recBuf i (lane word 0)
  let recBuf ← store recBuf (i + 1) (lane word 1)
  let recBuf ← store recBuf (i + 2) (lane word 2)
  store recBuf (i + 3) (lane word 3)

/-- Read words into the array. -/
def fetchWords (t : Target) (addr : BitVec 32) (recBuf : Vector Byte n) (i words : Nat) :
    Except Fault (Result (Vector Byte n)) := do
  let read := gdbReadWords host t addr
  let recBuf ← (List.range words).foldlM
    (fun recBuf k => storeWord recBuf (i + 4 * k) (read.data k)) recBuf
  return ⟨read.target, read.err, recBuf⟩

/-- Read words behind what has been read, if there are any to read. -/
def fetchBlock (head : Result (Vector Byte n)) (addr : BitVec 32) (i words : Nat) :
    Except Fault (Result (Vector Byte n)) :=
  if words = 0 then .ok head else fetchWords host head.target addr head.data i words

/-- How far `rsp_read_mem` advances its pointer behind the first bytes, whether it has read
as many or not. -/
def numBytesToAlign (addr : BitVec 32) : Nat :=
  if addr.toNat % 4 = 0 then 0 else 4 - addr.toNat % 4

/-- The accesses of `rsp_read_mem`, for an array of the requested length. -/
def fetchMemory (t : Target) (addr : BitVec 32) (recBuf : Vector Byte n) :
    Except Fault (Result (Vector Byte n)) := do
  let bytesToRead := bytesToAlign addr n
  let head ← fetchBytes host t addr recBuf 0 bytesToRead
  if head.err ≠ .errNone then return head
  else
    let words := (n - bytesToRead) / 4
    let recBufPtr := numBytesToAlign addr
    let addr := addr + BitVec.ofNat 32 bytesToRead
    let block ← fetchBlock host head addr recBufPtr words
    if block.err ≠ .errNone then return block
    else
      fetchBytes host block.target (addr + BitVec.ofNat 32 (4 * words)) block.data
        (recBufPtr + 4 * words) ((n - bytesToRead) % 4)

end Fetch

/-! ## The packet buffer -/

/-- Write the digits of a byte. -/
def putDigits {n : Nat} (recBuf : Vector Byte n) (data : Vector Byte gdbBufMax) (off : Nat) :
    Except Fault (Vector Byte gdbBufMax) := do
  let byte ← load recBuf off
  let high ← load hexchars ((byte &&& 0xf0) >>> 4).toNat
  let data ← store data (2 * off) high
  let low ← load hexchars (byte &&& 0x0f).toNat
  store data (2 * off + 1) low

/-- `rsp_read_mem` on its arrays: the packet that is sent, or `none` for an error. -/
def rspReadMemPacket (host : Host) (s : RspServer) (buf : RspBuf)
    (data : Vector Byte (gdbBufMax * 2)) : Except Fault (Option (List Byte)) :=
  match two (sscanf (memFormat 'm') buf.cText) with
  | some (addr, len) =>
      let len := RspServer.readLength len
      if host.mallocs len then do
        let read ← fetchMemory host s.target addr
          (Vector.ofFn fun i : Fin len.toNat => host.uninit i)
        if read.err ≠ .errNone then return none
        else
          let text ← (List.range len.toNat).foldlM (putDigits read.data) buf.data
          let text ← store text (2 * len.toNat) 0
          let c ← construct ⟨text, (cString text.toList).length⟩ data
          return some (c.data.toList.take c.len)
      else .ok none
  | none => .ok none

/-! ## The array holds what was read -/

section Fetch

variable {n : Nat} (host : Host)

/-- The accesses are those of a read, and the array holds what it returns behind what was
there. -/
structure Fetched (r : Result (Vector Byte n)) (read : Result (List Byte)) (done : List Byte) :
    Prop where
  target : r.target = read.target
  err : r.err = read.err
  holds : r.err = .errNone → Holds r.data 0 (done ++ read.data)

theorem fetchBytes_spec (t : Target) (addr : BitVec 32) {recBuf : Vector Byte n}
    {done : List Byte} {count : Nat} (holds : Holds recBuf 0 done)
    (room : done.length + count ≤ n) :
    ∃ r, fetchBytes host t addr recBuf done.length count = .ok r ∧
      Fetched r (readBytes host t addr count) done := by
  induction count generalizing t addr recBuf done with
  | zero =>
      refine ⟨_, rfl, rfl, rfl, fun _ => ?_⟩
      rw [readBytes, List.append_nil]
      exact holds
  | succ count ih =>
      have inside : done.length < n := by omega
      have extended := holds.extend (x := (gdbReadByte host t addr).data)
        (by rw [Nat.zero_add]; exact inside)
      simp only [Nat.zero_add] at extended
      simp only [fetchBytes, readBytes, store_of_lt inside, bind, Except.bind]
      by_cases failed : (gdbReadByte host t addr).err ≠ .errNone
      · rw [if_pos failed, if_pos failed]
        exact ⟨_, rfl, rfl, rfl, fun fine => absurd fine failed⟩
      · rw [if_neg failed, if_neg failed]
        obtain ⟨r, run, fetched⟩ := ih (gdbReadByte host t addr).target (addr + 1) extended
          (by rw [List.length_append, List.length_singleton]; omega)
        rw [List.length_append, List.length_singleton] at run
        refine ⟨r, run, fetched.target, fetched.err, fun fine => ?_⟩
        have holds := fetched.holds fine
        rw [List.append_assoc, List.singleton_append] at holds
        exact holds

theorem storeWord_spec {recBuf : Vector Byte n} {done : List Byte} (holds : Holds recBuf 0 done)
    (room : done.length + 4 ≤ n) (word : BitVec 32) :
    ∃ recBuf', storeWord recBuf done.length word = .ok recBuf' ∧
      Holds recBuf' 0 (done ++ lanes word) := by
  have step {recBuf : Vector Byte n} {done : List Byte} (holds : Holds recBuf 0 done)
      (inside : done.length < n) (byte : Byte) :
      ∃ recBuf', store recBuf done.length byte = .ok recBuf' ∧ Holds recBuf' 0 (done ++ [byte]) := by
    have extended := holds.extend (x := byte) (by rw [Nat.zero_add]; exact inside)
    simp only [Nat.zero_add] at extended
    exact ⟨_, store_of_lt inside, extended⟩
  obtain ⟨first, run₁, holds₁⟩ := step holds (by omega) (lane word 0)
  obtain ⟨second, run₂, holds₂⟩ := step holds₁ (by simp; omega) (lane word 1)
  obtain ⟨third, run₃, holds₃⟩ := step holds₂ (by simp; omega) (lane word 2)
  obtain ⟨fourth, run₄, holds₄⟩ := step holds₃ (by simp; omega) (lane word 3)
  refine ⟨fourth, ?_, ?_⟩
  · simp only [List.length_append, List.length_singleton, Nat.add_assoc] at run₂ run₃ run₄
    simp only [storeWord, run₁, run₂, run₃, run₄, bind, Except.bind]
  · simpa [lanes] using holds₄

theorem length_flatMap_lanes (words : Nat) (data : Nat → BitVec 32) :
    ((List.range words).flatMap fun i => lanes (data i)).length = 4 * words := by
  induction words with
  | zero => rfl
  | succ words ih =>
      rw [List.range_succ, List.flatMap_append, List.length_append, ih, List.flatMap_singleton]
      rfl

theorem fetchWords_spec (t : Target) (addr : BitVec 32) {recBuf : Vector Byte n}
    {done : List Byte} {words : Nat} (holds : Holds recBuf 0 done)
    (room : done.length + 4 * words ≤ n) :
    ∃ r, fetchWords host t addr recBuf done.length words = .ok r ∧
      r.target = (gdbReadWords host t addr).target ∧ r.err = (gdbReadWords host t addr).err ∧
      Holds r.data 0 (done ++
        (List.range words).flatMap fun i => lanes ((gdbReadWords host t addr).data i)) := by
  obtain ⟨recBuf', run, holds'⟩ : ∃ recBuf',
      (List.range words).foldlM (fun recBuf k =>
        storeWord recBuf (done.length + 4 * k) ((gdbReadWords host t addr).data k)) recBuf =
          .ok recBuf' ∧
        Holds recBuf' 0 (done ++
          (List.range words).flatMap fun i => lanes ((gdbReadWords host t addr).data i)) := by
    refine counted_loop (fun k recBuf => Holds recBuf 0 (done ++
      (List.range k).flatMap fun i => lanes ((gdbReadWords host t addr).data i))) words ?_ ?_
    · rw [List.range_zero, List.flatMap_nil, List.append_nil]
      exact holds
    · intro k recBuf inside holds
      have position : (done ++ (List.range k).flatMap fun i =>
          lanes ((gdbReadWords host t addr).data i)).length = done.length + 4 * k := by
        rw [List.length_append, length_flatMap_lanes]
      obtain ⟨recBuf', run, holds'⟩ := storeWord_spec holds (by rw [position]; omega)
        ((gdbReadWords host t addr).data k)
      rw [position] at run
      rw [List.range_succ, List.flatMap_append, List.flatMap_singleton, ← List.append_assoc]
      exact ⟨recBuf', run, holds'⟩
  refine ⟨⟨(gdbReadWords host t addr).target, (gdbReadWords host t addr).err, recBuf'⟩, ?_, rfl,
    rfl, holds'⟩
  simp only [fetchWords, run, bind, Except.bind, pure, Except.pure]

theorem length_readBytes (t : Target) (addr : BitVec 32) {count : Nat}
    (fine : (readBytes host t addr count).err = .errNone) :
    (readBytes host t addr count).data.length = count := by
  induction count generalizing t addr with
  | zero => rfl
  | succ count ih =>
      rw [readBytes] at fine ⊢
      by_cases failed : (gdbReadByte host t addr).err ≠ .errNone
      · rw [if_pos failed] at fine
        exact absurd fine failed
      · rw [if_neg failed] at fine ⊢
        rw [List.length_cons, ih _ _ fine]

/-- The pointer is behind the first bytes, if there are more. -/
theorem numBytesToAlign_eq {addr : BitVec 32} (more : bytesToAlign addr n < n) :
    numBytesToAlign addr = bytesToAlign addr n := by
  unfold bytesToAlign numBytesToAlign at *
  split_ifs at more ⊢ <;> omega

/-- The words behind the first bytes, if there are any. -/
theorem fetchBlock_spec {head : Result (Vector Byte n)} {done : List Byte}
    (fine : head.err = .errNone) (holds : Holds head.data 0 done) (addr : BitVec 32)
    (words : Nat) {i : Nat} (place : words ≠ 0 → i = done.length)
    (room : done.length + 4 * words ≤ n) :
    let read : Result (Nat → BitVec 32) := if words = 0 then ⟨head.target, .errNone, fun _ => 0⟩
      else gdbReadWords host head.target addr
    ∃ block, fetchBlock host head addr i words = .ok block ∧ block.target = read.target ∧
      block.err = read.err ∧
      Holds block.data 0 (done ++ (List.range words).flatMap fun k => lanes (read.data k)) := by
  unfold fetchBlock
  dsimp only
  by_cases none : words = 0
  · rw [if_pos none, if_pos none, none, List.range_zero, List.flatMap_nil, List.append_nil]
    exact ⟨head, rfl, rfl, fine, holds⟩
  · rw [if_neg none, if_neg none, place none]
    exact fetchWords_spec host head.target addr holds room

/-- The bytes behind the words, if there are any. -/
theorem fetchTail_spec (t : Target) (addr : BitVec 32) (count : Nat) {recBuf : Vector Byte n}
    {done : List Byte} {i : Nat} (holds : Holds recBuf 0 done)
    (place : count ≠ 0 → i = done.length) (room : done.length + count ≤ n) :
    ∃ r, fetchBytes host t addr recBuf i count = .ok r ∧
      Fetched r (readBytes host t addr count) done := by
  cases count with
  | zero =>
      refine ⟨_, rfl, rfl, rfl, fun _ => ?_⟩
      rw [readBytes, List.append_nil]
      exact holds
  | succ count =>
      rw [place (Nat.succ_ne_zero count)]
      exact fetchBytes_spec host t addr holds room

/-- **The array holds what the read returns.** -/
theorem fetchMemory_spec (t : Target) (addr : BitVec 32) (recBuf : Vector Byte n) :
    ∃ r, fetchMemory host t addr recBuf = .ok r ∧ Fetched r (readMemory host t addr n) [] := by
  have few := bytesToAlign_le addr n
  obtain ⟨head, run, fetched⟩ : ∃ head, fetchBytes host t addr recBuf 0 (bytesToAlign addr n) =
      .ok head ∧ Fetched head (readBytes host t addr (bytesToAlign addr n)) [] :=
    fetchBytes_spec host t addr (Holds.nil recBuf 0) (by rw [List.length_nil]; omega)
  unfold fetchMemory readMemory
  simp only [run, bind, Except.bind, pure, Except.pure]
  by_cases failed : head.err ≠ .errNone
  · rw [if_pos failed, if_pos (fetched.err ▸ failed)]
    exact ⟨head, rfl, fetched⟩
  have fine := not_not.mp failed
  have length : (readBytes host t addr (bytesToAlign addr n)).data.length = bytesToAlign addr n :=
    length_readBytes host t addr (fetched.err ▸ fine)
  have holds := fetched.holds fine
  rw [List.nil_append] at holds
  have place (more : bytesToAlign addr n < n) : numBytesToAlign addr =
      (readBytes host t addr (bytesToAlign addr n)).data.length := by
    rw [length, numBytesToAlign_eq more]
  rw [if_neg failed, if_neg (fetched.err ▸ failed), ← fetched.target]
  obtain ⟨block, run, target, err, holds⟩ := fetchBlock_spec host fine holds
    (addr + BitVec.ofNat 32 (bytesToAlign addr n)) ((n - bytesToAlign addr n) / 4)
    (fun more => place (by omega)) (by rw [length]; omega)
  rw [run, ← target, ← err]
  dsimp only
  by_cases failed : block.err ≠ .errNone
  · rw [if_pos failed, if_pos failed]
    exact ⟨block, rfl, rfl, rfl, fun fine => absurd fine failed⟩
  rw [if_neg failed, if_neg failed]
  have length' := length_flatMap_lanes ((n - bytesToAlign addr n) / 4)
  obtain ⟨tail, run, fetched'⟩ := fetchTail_spec host block.target
    (addr + BitVec.ofNat 32 (bytesToAlign addr n) +
      BitVec.ofNat 32 (4 * ((n - bytesToAlign addr n) / 4))) ((n - bytesToAlign addr n) % 4) holds
    (i := numBytesToAlign addr + 4 * ((n - bytesToAlign addr n) / 4))
    (fun more => by rw [List.length_append, length', place (by omega)])
    (by rw [List.length_append, length', length]; omega)
  exact ⟨tail, run, fetched'.target, fetched'.err, fetched'.holds⟩

end Fetch

/-! ## The digits -/

/-- The digits that are written are those of the byte. -/
theorem digits_of_byte (byte : Byte) :
    load hexchars ((byte &&& 0xf0) >>> 4).toNat = .ok (digit (byte >>> 4 &&& 0xf).toNat) ∧
      load hexchars (byte &&& 0x0f).toNat = .ok (digit (byte &&& 0xf).toNat) := by
  have high : (byte &&& 0xf0) >>> 4 = byte >>> 4 &&& 0xf := by
    rw [BitVec.ushiftRight_and_distrib]
    rfl
  have small := byte.isLt
  constructor
  · rw [high, toNat_high]
    exact (digit_spec ⟨byte.toNat / 16, by omega⟩).1
  · rw [toNat_low]
    exact (digit_spec ⟨byte.toNat % 16, by omega⟩).1

theorem ascii2hex_append (src src' : List Byte) :
    ascii2hex (src ++ src') = ascii2hex src ++ ascii2hex src' := List.flatMap_append

/-- A round of the loop, for a byte that has been read. -/
theorem putDigits_spec {n : Nat} {recBuf : Vector Byte n} {bytes : List Byte}
    (holds : Holds recBuf 0 bytes) {data : Vector Byte gdbBufMax} {off : Nat}
    (inside : off < bytes.length) (room : 2 * off + 1 < gdbBufMax)
    (done : Holds data 0 (ascii2hex (bytes.take off))) :
    ∃ data', putDigits recBuf data off = .ok data' ∧
      Holds data' 0 (ascii2hex (bytes.take (off + 1))) := by
  have here : recBuf[off]? = some bytes[off] := by
    have here := holds off inside
    rw [Nat.zero_add, List.getElem?_eq_getElem inside] at here
    exact here
  obtain ⟨high, low⟩ := digits_of_byte bytes[off]
  have length : (ascii2hex (bytes.take off)).length = 2 * off := by
    rw [ascii2hex_length, List.length_take, Nat.min_eq_left (Nat.le_of_lt inside)]
  have first := done.extend (x := digit (bytes[off] >>> 4 &&& 0xf).toNat) (by omega)
  have second := first.extend (x := digit (bytes[off] &&& 0xf).toNat) (by
    rw [List.length_append, List.length_singleton]
    omega)
  simp only [List.length_append, List.length_singleton, length, Nat.zero_add] at first second
  have text : ascii2hex (bytes.take (off + 1)) = ascii2hex (bytes.take off) ++
      [digit (bytes[off] >>> 4 &&& 0xf).toNat] ++ [digit (bytes[off] &&& 0xf).toNat] := by
    rw [List.take_add_one, List.getElem?_eq_getElem inside, Option.toList_some, ascii2hex_append,
      List.append_assoc]
    rfl
  have firstRoom : 2 * off < gdbBufMax := by omega
  rw [text]
  refine ⟨_, ?_, second⟩
  simp only [putDigits, load_of_getElem? here, high, low, store_of_lt firstRoom,
    store_of_lt room, bind, Except.bind]

/-- Behind the end of the packet buffer there is no round that does not fault. -/
theorem putDigits_fault {n : Nat} (recBuf : Vector Byte n) {off : Nat} (inside : off < n)
    (outside : gdbBufMax ≤ 2 * off + 1) (data : Vector Byte gdbBufMax) :
    ∃ fault, putDigits recBuf data off = .error fault := by
  obtain ⟨high, low⟩ := digits_of_byte (recBuf.get ⟨off, inside⟩)
  have second : ∀ (data : Vector Byte gdbBufMax) byte,
      store data (2 * off + 1) byte = .error .outOfBounds :=
    fun data byte => dif_neg (Nat.not_lt.mpr outside)
  refine ⟨.outOfBounds, ?_⟩
  simp only [putDigits, load_of_lt inside, high, low, second, bind, Except.bind]
  unfold store
  split_ifs <;> rfl

/-- A digit is sent as it is, and is not the terminator. -/
theorem digit_plain : ∀ v : Fin 16, ¬ Escaped (digit v) ∧ digit v ≠ 0 := by
  decide

theorem mem_ascii2hex {src : List Byte} {ch : Byte} (member : ch ∈ ascii2hex src) :
    ¬ Escaped ch ∧ ch ≠ 0 := by
  obtain ⟨byte, -, here⟩ := List.mem_flatMap.mp member
  have small := byte.isLt
  rcases List.mem_pair.mp here with rfl | rfl
  · rw [toNat_high]
    exact digit_plain ⟨byte.toNat / 16, by omega⟩
  · rw [toNat_low]
    exact digit_plain ⟨byte.toNat % 16, by omega⟩

theorem escape_ascii2hex (src : List Byte) : escape (ascii2hex src) = ascii2hex src := by
  have plain : ∀ payload : List Byte, (∀ ch ∈ payload, ¬ Escaped ch) → escape payload = payload := by
    intro payload none
    induction payload with
    | nil => rfl
    | cons ch rest ih =>
        rw [escape, List.flatMap_cons, escapeByte_of_plain (none ch List.mem_cons_self), ← escape,
          ih fun ch' member => none ch' (List.mem_cons_of_mem ch member)]
        rfl
  exact plain _ fun ch member => (mem_ascii2hex member).1

/-- The string in a buffer ends at its terminator. -/
theorem cString_of_holds {data : Vector Byte gdbBufMax} {text : List Byte}
    (holds : Holds data 0 (text ++ [0])) (noTerminator : ∀ ch ∈ text, ch ≠ 0) :
    cString data.toList = text ∧ data.toList.take text.length = text := by
  have whole := holds.take
  rw [List.length_append, List.length_singleton] at whole
  have split : data.toList = text ++ (0 :: data.toList.drop (text.length + 1)) := by
    rw [← List.take_append_drop (text.length + 1) data.toList, whole, List.append_assoc]
    simp
  constructor
  · rw [split, cString, List.takeWhile_append_of_pos fun ch member =>
      decide_eq_true (noTerminator ch member)]
    simp
  · rw [split, List.take_left]

/-! ## The whole request -/

/-- The bytes of an answered read are as many as were asked for. -/
theorem length_readMemory (host : Host) (t : Target) (addr : BitVec 32) (n : Nat)
    (fine : (readMemory host t addr n).err = .errNone) :
    (readMemory host t addr n).data.length = n := by
  have few := bytesToAlign_le addr n
  revert fine
  unfold readMemory
  extract_lets before head words addr' block tail
  by_cases headFailed : head.err ≠ .errNone
  · rw [if_pos headFailed]
    exact fun fine => absurd fine headFailed
  by_cases blockFailed : block.err ≠ .errNone
  · rw [if_neg headFailed, if_pos blockFailed]
    exact fun fine => absurd fine blockFailed
  rw [if_neg headFailed, if_neg blockFailed]
  intro fine
  rw [List.length_append, List.length_append, length_flatMap_lanes,
    length_readBytes host t addr (not_not.mp headFailed), length_readBytes host _ _ fine]
  omega

/-- The digits of the bytes that have been read, if they fit. -/
theorem packet_of_bytes {n : Nat} {recBuf : Vector Byte n} {bytes : List Byte}
    (holds : Holds recBuf 0 bytes) (fits : 2 * bytes.length < gdbBufMax)
    (text : Vector Byte gdbBufMax) (data : Vector Byte (gdbBufMax * 2)) :
    ∃ text' text'' c,
      (List.range bytes.length).foldlM (putDigits recBuf) text = .ok text' ∧
      store text' (2 * bytes.length) 0 = .ok text'' ∧
      construct ⟨text'', (cString text''.toList).length⟩ data = .ok c ∧
      c.data.toList.take c.len = (frameOf (ascii2hex bytes)).bytes := by
  obtain ⟨text', filled, done⟩ : ∃ text',
      (List.range bytes.length).foldlM (putDigits recBuf) text = .ok text' ∧
        Holds text' 0 (ascii2hex (bytes.take bytes.length)) := by
    refine counted_loop (fun off text => Holds text 0 (ascii2hex (bytes.take off))) bytes.length
      (Holds.nil text 0) ?_
    intro off text inside done
    exact putDigits_spec holds inside (by omega) done
  rw [List.take_length] at done
  have terminated := done.extend (x := 0) (by rw [ascii2hex_length]; omega)
  simp only [ascii2hex_length, Nat.zero_add] at terminated
  obtain ⟨string, front⟩ := cString_of_holds terminated fun ch member => (mem_ascii2hex member).2
  have room : (escape (ascii2hex bytes)).length + 4 ≤ gdbBufMax * 2 := by
    rw [escape_ascii2hex, ascii2hex_length]
    have size : 4 ≤ gdbBufMax := by decide
    omega
  obtain ⟨c, built, sent⟩ : ∃ c, construct ⟨text'.set (2 * bytes.length) 0 fits,
        (cString (text'.set (2 * bytes.length) 0 fits).toList).length⟩ data = .ok c ∧
      c.data.toList.take c.len = (frameOf (ascii2hex bytes)).bytes := by
    refine construct_of_room (by rw [string]) ?_ room data
    rw [RspBuf.text, string]
    exact front
  exact ⟨text', _, c, filled, store_of_lt fits, built, sent⟩

section Request

variable (host : Host) (s : RspServer) {buf : RspBuf} (data : Vector Byte (gdbBufMax * 2))
  {addr len : BitVec 32} (parsed : two (sscanf (memFormat 'm') buf.cText) = some (addr, len))
  (granted : host.mallocs (RspServer.readLength len) = true)
include parsed granted

/-- A read that fails is answered without the digits. -/
theorem rspReadMemPacket_failed
    (failed : (readMemory host s.target addr (RspServer.readLength len).toNat).err ≠ .errNone) :
    rspReadMemPacket host s buf data = .ok none := by
  obtain ⟨r, run, fetched⟩ := fetchMemory_spec host s.target addr
    (Vector.ofFn fun i : Fin (RspServer.readLength len).toNat => host.uninit i)
  rw [← fetched.err] at failed
  unfold rspReadMemPacket
  rw [parsed]
  dsimp only
  rw [if_pos granted, run]
  simp only [bind, Except.bind, pure, Except.pure, if_pos failed]

/-- The packet is the frame of the digits. -/
theorem rspReadMemPacket_fits
    (fine : (readMemory host s.target addr (RspServer.readLength len).toNat).err = .errNone)
    (fits : 2 * (RspServer.readLength len).toNat < gdbBufMax) :
    rspReadMemPacket host s buf data = .ok (some (frameOf (ascii2hex
      (readMemory host s.target addr (RspServer.readLength len).toNat).data)).bytes) := by
  have length := length_readMemory host s.target addr _ fine
  obtain ⟨r, run, fetched⟩ := fetchMemory_spec host s.target addr
    (Vector.ofFn fun i : Fin (RspServer.readLength len).toNat => host.uninit i)
  have read : ¬ r.err ≠ .errNone := not_not.mpr (fetched.err.trans fine)
  have holds := fetched.holds (not_not.mp read)
  rw [List.nil_append] at holds
  obtain ⟨text, text', c, filled, terminated, built, sent⟩ :=
    packet_of_bytes holds (by rw [length]; exact fits) buf.data data
  rw [length] at filled terminated
  unfold rspReadMemPacket
  rw [parsed]
  dsimp only
  rw [if_pos granted, run]
  simp only [bind, Except.bind, pure, Except.pure, if_neg read, filled, terminated, built, sent]

/-- **The packet is the frame of the reply.** -/
theorem rspReadMemPacket_sends
    (fine : (readMemory host s.target addr (RspServer.readLength len).toNat).err = .errNone)
    (fits : 2 * (RspServer.readLength len).toNat < gdbBufMax) (room : gdbBufMax ≤ host.room) :
    ∃ body, s.replies (s.rspReadMem host buf) = [body] ∧
      rspReadMemPacket host s buf data = .ok (some (frameOf body).bytes) := by
  refine ⟨_, ?_, rspReadMemPacket_fits host s data parsed granted fine fits⟩
  have replyFits : RspServer.ReplyFits host (RspServer.readLength len).toNat := by
    have size : 4 ≤ gdbBufMax := by decide
    exact ⟨by omega, by omega⟩
  unfold RspServer.rspReadMem
  rw [parsed]
  dsimp only
  rw [if_pos granted, if_neg (not_not.mpr fine), if_pos replyFits]
  exact RspServer.replies_of_sent rfl

/-- The digits of more bytes do not stay inside the packet buffer. -/
theorem rspReadMemPacket_fault
    (fine : (readMemory host s.target addr (RspServer.readLength len).toNat).err = .errNone)
    (long : gdbBufMax ≤ 2 * (RspServer.readLength len).toNat) :
    ∃ fault, rspReadMemPacket host s buf data = .error fault := by
  obtain ⟨r, run, fetched⟩ := fetchMemory_spec host s.target addr
    (Vector.ofFn fun i : Fin (RspServer.readLength len).toNat => host.uninit i)
  have read : ¬ r.err ≠ .errNone := not_not.mpr (fetched.err.trans fine)
  have size : gdbBufMax = 281 := rfl
  -- the round for byte 140 writes its second digit behind the buffer
  have reached : (gdbBufMax - 1) / 2 < (RspServer.readLength len).toNat := by omega
  obtain ⟨fault, stopped⟩ := faulting_loop (putDigits_fault r.data reached (by omega)) reached
    buf.data
  refine ⟨fault, ?_⟩
  unfold rspReadMemPacket
  rw [parsed]
  dsimp only
  rw [if_pos granted, run]
  simp only [bind, Except.bind, pure, Except.pure, if_neg read, stopped]

end Request

/-- Every access of a read is tested. -/
theorem readMemory_failed_iff (host : Host) (t : Target) (addr : BitVec 32) (n : Nat) :
    (readMemory host t addr n).err ≠ .errNone ↔
      host.AnyFails t.performed (readTests addr n).length := by
  have all : ∀ tested ∈ readTests addr n, tested = true := by
    intro tested member
    unfold readTests at member
    dsimp only at member
    rcases List.mem_append.mp member with inHead | behind
    · exact (List.mem_replicate.mp inHead).2
    rcases List.mem_append.mp behind with inBlock | inTail
    · split_ifs at inBlock
      · cases inBlock
      · exact List.mem_singleton.mp inBlock
    · exact (List.mem_replicate.mp inTail).2
  rw [← Host.testedFails_of_all all, ne_eq, (readMemory_makes host t addr n).err, not_not]

/-- A memory read ends without a fault: every index is one of its array. -/
def ReadStaysInside (host : Host) (s : RspServer) (buf : RspBuf)
    (data : Vector Byte (gdbBufMax * 2)) : Prop :=
  ∃ packet, rspReadMemPacket host s buf data = .ok packet

/-- **A memory read stays inside its buffers exactly when an access fails or the digits fit
the packet buffer.** -/
theorem read_bounds_iff (host : Host) (s : RspServer) (buf : RspBuf)
    (data : Vector Byte (gdbBufMax * 2)) :
    ReadStaysInside host s buf data ↔
      ∀ addr len, two (sscanf (memFormat 'm') buf.cText) = some (addr, len) →
        host.mallocs (RspServer.readLength len) = true →
        host.AnyFails s.target.performed
            (readTests addr (RspServer.readLength len).toNat).length ∨
          2 * (RspServer.readLength len).toNat < gdbBufMax := by
  unfold ReadStaysInside
  cases parsed : two (sscanf (memFormat 'm') buf.cText) with
  | none =>
      refine iff_of_true ⟨none, ?_⟩ nofun
      rw [rspReadMemPacket, parsed]
  | some both =>
      obtain ⟨addr, len⟩ := both
      rw [forall_parsed rfl]
      by_cases granted : host.mallocs (RspServer.readLength len) = true
      case neg =>
          refine iff_of_true ⟨none, ?_⟩ fun grants => absurd grants granted
          rw [rspReadMemPacket, parsed]
          exact if_neg granted
      case pos =>
          rw [imp_iff_right granted, ← readMemory_failed_iff]
          by_cases failed :
              (readMemory host s.target addr (RspServer.readLength len).toNat).err ≠ .errNone
          · refine iff_of_true ⟨none, ?_⟩ (.inl failed)
            exact rspReadMemPacket_failed host s data parsed granted failed
          · rw [or_iff_right failed]
            have fine := not_not.mp failed
            constructor
            · rintro ⟨packet, ends⟩
              refine Nat.lt_of_not_le fun long => ?_
              obtain ⟨fault, stopped⟩ :=
                rspReadMemPacket_fault host s data parsed granted fine long
              rw [stopped] at ends
              cases ends
            · intro fits
              exact ⟨_, rspReadMemPacket_fits host s data parsed granted fine fits⟩

/-- A request for 141 bytes. -/
theorem read_141_wrong :
    ¬ ReadStaysInside idleHost idleServer (packetBuf "m0,8d") (Vector.replicate _ 0) := by
  rintro ⟨packet, ends⟩
  have parsed : two (sscanf (memFormat 'm') (packetBuf "m0,8d").cText) = some (0, 141) := by
    decide +kernel
  have reliable : idleHost.Reliable := fun _ => rfl
  obtain ⟨performed, read⟩ := readMemory_reliable reliable idleServer.target 0
    (RspServer.readLength 141).toNat
  obtain ⟨fault, stopped⟩ := rspReadMemPacket_fault idleHost idleServer (Vector.replicate _ 0)
    parsed (by decide) (congrArg Result.err read) (by decide)
  rw [stopped] at ends
  cases ends

end OrpsocCores.Gdb
