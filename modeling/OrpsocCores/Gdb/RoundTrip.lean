import OrpsocCores.Gdb.Acceptance

/-!
# A payload across the connection

`put_packet` escapes the characters of a payload that have a meaning in the
protocol, `get_packet` frames what arrives and `rsp_unescape` undoes the
escaping in the buffer itself.  Each of the three is a loop over an array of its
own; they agree on the list `escape payload`, which is what stands between the
`$` and the `#`, what the checksum is about and what is converted back
(`payload_roundTrip`).
-/

set_option autoImplicit false

namespace OrpsocCores.Gdb

open FixedBuffer

/-! ## The escaped form of a payload -/

def escapeByte (ch : Byte) : List Byte := if Escaped ch then [chr '}', ch ^^^ 0x20] else [ch]

/-- The body of the packet for a payload. -/
def escape (payload : List Byte) : List Byte := payload.flatMap escapeByte

theorem escape_take_succ {payload : List Byte} {count : Nat} {ch : Byte}
    (here : payload[count]? = some ch) :
    escape (payload.take (count + 1)) = escape (payload.take count) ++ escapeByte ch := by
  rw [List.take_add_one, here, escape, List.flatMap_append]
  simp [escape]

theorem escape_take_length_le (payload : List Byte) (count : Nat) :
    (escape (payload.take count)).length ≤ (escape payload).length := by
  conv_rhs => rw [← List.take_append_drop count payload, escape, List.flatMap_append]
  rw [List.length_append, escape]
  exact Nat.le_add_right _ _

theorem escapeByte_of_escaped {ch : Byte} (escaped : Escaped ch) :
    escapeByte ch = [chr '}', ch ^^^ 0x20] :=
  if_pos escaped

theorem escapeByte_of_plain {ch : Byte} (plain : ¬ Escaped ch) : escapeByte ch = [ch] :=
  if_neg plain

/-- Neither the escape character nor an escaped one stands for a delimiter. -/
theorem mem_escapeByte {ch byte : Byte} (member : byte ∈ escapeByte ch) :
    byte ≠ chr '$' ∧ byte ≠ chr '#' ∧ byte ≠ chr '*' := by
  by_cases escaped : Escaped ch
  · rw [escapeByte_of_escaped escaped, List.mem_pair] at member
    rcases member with rfl | rfl
    · decide
    · rcases escaped with rfl | rfl | rfl | rfl <;> decide
  · rw [escapeByte_of_plain escaped, List.mem_singleton] at member
    subst member
    exact ⟨fun h => escaped (.inl h), fun h => escaped (.inr (.inl h)),
      fun h => escaped (.inr (.inr (.inl h)))⟩

theorem mem_escape {payload : List Byte} {byte : Byte} (member : byte ∈ escape payload) :
    byte ≠ chr '$' ∧ byte ≠ chr '#' ∧ byte ≠ chr '*' := by
  obtain ⟨ch, -, here⟩ := List.mem_flatMap.mp member
  exact mem_escapeByte here

theorem clean_escape (payload : List Byte) : Clean (escape payload) :=
  fun _ member => ⟨(mem_escape member).1, (mem_escape member).2.1⟩

/-! ## The packet that is sent -/

/-- The digit that `put_packet` sends for a value. -/
def digit (value : Nat) : Byte := hexchars.toList.getD value 0

theorem digit_spec : ∀ value : Fin 16,
    load hexchars value.val = .ok (digit value.val) ∧ HexDigit (digit value.val) value := by
  decide +kernel

theorem load_high (sum : Byte) :
    load hexchars (sum >>> 4).toNat = .ok (digit (sum.toNat / 16)) := by
  rw [BitVec.toNat_ushiftRight, Nat.shiftRight_eq_div_pow]
  exact (digit_spec ⟨sum.toNat / 16, by omega⟩).1

theorem load_low (sum : Byte) :
    load hexchars (sum % 16).toNat = .ok (digit (sum.toNat % 16)) := by
  rw [BitVec.toNat_umod]
  exact (digit_spec ⟨sum.toNat % 16, by omega⟩).1

/-- The frame of a payload. -/
def frameOf (payload : List Byte) : Frame :=
  ⟨escape payload, digit ((checksum (escape payload)).toNat / 16),
    digit ((checksum (escape payload)).toNat % 16)⟩

theorem frameOf_valid (payload : List Byte) : (frameOf payload).Valid := by
  have high := digit_spec ⟨(checksum (escape payload)).toNat / 16, by omega⟩
  have low := digit_spec ⟨(checksum (escape payload)).toNat % 16, by omega⟩
  exact ⟨_, _, high.2, low.2, (Nat.div_add_mod _ _).trans (checksum_toNat _)⟩

/-- The bytes of a frame. -/
def Frame.bytes (frame : Frame) : List Byte :=
  chr '$' :: (frame.body ++ [chr '#', frame.ch₁, frame.ch₂])

/-- The packet under construction holds these bytes. -/
structure Constructed (c : Construction) (bytes : List Byte) : Prop where
  len : c.len = bytes.length
  holds : Holds c.data 0 bytes

theorem Constructed.text {c : Construction} {bytes : List Byte} (built : Constructed c bytes) :
    c.data.toList.take c.len = bytes := by
  rw [built.len]
  exact built.holds.take

theorem Constructed.put {c : Construction} {bytes : List Byte} (built : Constructed c bytes)
    (ch : Byte) (room : bytes.length < gdbBufMax * 2) :
    ∃ c', c.put ch = .ok c' ∧ Constructed c' (bytes ++ [ch]) ∧ c'.checksum = c.checksum := by
  have inside : c.len < gdbBufMax * 2 := built.len.symm ▸ room
  refine ⟨⟨c.data.set c.len ch inside, c.len + 1, c.checksum⟩, ?_, ⟨?_, ?_⟩, rfl⟩
  · rw [Construction.put, store_of_lt inside]
    rfl
  · rw [List.length_append, List.length_singleton, ← built.len]
  · have extended := built.holds.extend (x := ch) (by omega)
    simpa [built.len] using extended

/-- One character of the payload. -/
theorem Constructed.body {buf : RspBuf} {c : Construction} {bytes : List Byte}
    (built : Constructed c bytes) {count : Nat} {ch : Byte} (here : buf.data[count]? = some ch)
    (room : bytes.length + (escapeByte ch).length ≤ gdbBufMax * 2) :
    ∃ c', Construction.body buf c count = .ok c' ∧ Constructed c' (bytes ++ escapeByte ch) ∧
      c'.checksum = (escapeByte ch).foldl (· + ·) c.checksum := by
  have read := load_of_getElem? here
  by_cases escaped : Escaped ch
  · rw [escapeByte_of_escaped escaped] at room ⊢
    rw [List.length_cons, List.length_singleton] at room
    have summed : Constructed { c with checksum := c.checksum + chr '}' } bytes :=
      ⟨built.len, built.holds⟩
    obtain ⟨c₁, first, built₁, sum₁⟩ := summed.put (chr '}') (by omega)
    have summed₁ : Constructed { c₁ with checksum := c₁.checksum + (ch ^^^ 0x20) }
        (bytes ++ [chr '}']) := ⟨built₁.len, built₁.holds⟩
    obtain ⟨c₂, second, built₂, sum₂⟩ := summed₁.put (ch ^^^ 0x20)
      (by rw [List.length_append, List.length_singleton]; omega)
    refine ⟨c₂, ?_, by simpa using built₂, by simp [sum₂, sum₁]⟩
    simp only [Construction.body, read, bind, Except.bind, if_pos escaped, first, second]
  · rw [escapeByte_of_plain escaped] at room ⊢
    rw [List.length_singleton] at room
    have summed : Constructed { c with checksum := c.checksum + ch } bytes :=
      ⟨built.len, built.holds⟩
    obtain ⟨c₁, first, built₁, sum₁⟩ := summed.put ch (by omega)
    refine ⟨c₁, ?_, built₁, by simp [sum₁]⟩
    simp only [Construction.body, read, bind, Except.bind, if_neg escaped, first]

/-- The packet that `put_packet` constructs for a buffer with this payload, if it has room
for it. -/
theorem construct_of_room {buf : RspBuf} {payload : List Byte} (len : buf.len = payload.length)
    (text : buf.text = payload) (room : (escape payload).length + 4 ≤ gdbBufMax * 2)
    (data : Vector Byte (gdbBufMax * 2)) :
    ∃ c, construct buf data = .ok c ∧ c.data.toList.take c.len = (frameOf payload).bytes := by
  have holds : Holds buf.data 0 payload := holds_of_take (by rw [← len]; exact text)
  have empty : Constructed ⟨data, 0, 0⟩ [] := ⟨rfl, Holds.nil data 0⟩
  obtain ⟨c₀, start, built₀, sum₀⟩ := empty.put (chr '$') (by decide)
  -- the loop has taken in the first `count` characters
  obtain ⟨c₁, body, built₁, sum₁⟩ : ∃ c,
      (List.range buf.len).foldlM (Construction.body buf) c₀ = .ok c ∧
        Constructed c (chr '$' :: escape (payload.take buf.len)) ∧
        c.checksum = checksum (escape (payload.take buf.len)) := by
    refine counted_loop (fun count c => Constructed c (chr '$' :: escape (payload.take count)) ∧
      c.checksum = checksum (escape (payload.take count))) buf.len ⟨built₀, sum₀⟩ ?_
    rintro count c inside ⟨built, sum⟩
    have here : payload[count]? = some (payload.get ⟨count, len ▸ inside⟩) := by simp
    have cell : buf.data[count]? = some (payload.get ⟨count, len ▸ inside⟩) := by
      rw [← here, ← holds count (len ▸ inside), Nat.zero_add]
    have bound := escape_take_length_le payload (count + 1)
    rw [escape_take_succ here, List.length_append] at bound
    obtain ⟨c', step, built', sum'⟩ := built.body cell (by rw [List.length_cons]; omega)
    refine ⟨c', step, ?_, ?_⟩
    · rw [escape_take_succ here]
      exact built'
    · rw [escape_take_succ here, sum', sum, checksum, checksum, List.foldl_append]
  rw [len, List.take_length] at built₁ sum₁
  obtain ⟨c₂, close, built₂, sum₂⟩ := built₁.put (chr '#') (by rw [List.length_cons]; omega)
  obtain ⟨c₃, high, built₃, sum₃⟩ :=
    built₂.put (digit ((checksum (escape payload)).toNat / 16)) (by simp; omega)
  obtain ⟨c₄, low, built₄, -⟩ :=
    built₃.put (digit ((checksum (escape payload)).toNat % 16)) (by simp; omega)
  have firstDigit := load_high c₂.checksum
  rw [sum₂, sum₁] at firstDigit
  have secondDigit := load_low c₃.checksum
  rw [sum₃, sum₂, sum₁] at secondDigit
  refine ⟨c₄, ?_, ?_⟩
  · simp only [construct, bind, Except.bind, start, body, close, sum₂, sum₁, firstDigit, high, sum₃,
      secondDigit, low]
  · rw [built₄.text, Frame.bytes, frameOf]
    simp

theorem construct_spec {buf : RspBuf} {payload : List Byte} (len : buf.len = payload.length)
    (text : buf.text = payload) (short : (escape payload).length ≤ maxBody)
    (data : Vector Byte (gdbBufMax * 2)) :
    ∃ c, construct buf data = .ok c ∧ c.data.toList.take c.len = (frameOf payload).bytes := by
  have size : maxBody + 4 ≤ gdbBufMax * 2 := by decide
  exact construct_of_room len text (by omega) data

/-- What a client sees of a call: copies of the packet, at least one. -/
theorem putPacket_spec {buf : RspBuf} {payload : List Byte} (len : buf.len = payload.length)
    (text : buf.text = payload) (short : (escape payload).length ≤ maxBody)
    (data : Vector Byte (gdbBufMax * 2)) (answers : List Byte) :
    ∃ copies unread, putPacket buf data answers =
      .ok ((List.replicate (copies + 1) (frameOf payload).bytes).flatten, unread) := by
  induction answers generalizing data with
  | nil =>
      obtain ⟨c, built, bytes⟩ := construct_spec len text short data
      refine ⟨0, [], ?_⟩
      simp [putPacket, built, bytes, bind, Except.bind, pure, Except.pure]
  | cons ch answers ih =>
      obtain ⟨c, built, bytes⟩ := construct_spec len text short data
      by_cases acknowledged : ch = chr '+'
      · refine ⟨0, answers, ?_⟩
        simp [putPacket, built, bytes, acknowledged, bind, Except.bind, pure, Except.pure]
      · obtain ⟨copies, unread, again⟩ := ih c.data
        refine ⟨copies + 1, unread, ?_⟩
        simp only [putPacket, built, bytes, if_neg acknowledged, again, bind, Except.bind, pure,
          Except.pure]
        rw [List.replicate_succ (n := copies + 1), List.flatten_cons]

/-! ## The conversion back -/

/-- A body that stands for a payload: a `}` announces a byte of which one bit is turned
around, and every other character stands for itself. -/
inductive EscapedForm : List Byte → List Byte → Prop
  | nil : EscapedForm [] []
  | plain {ch : Byte} {payload body : List Byte} (itself : ch ≠ chr '}')
      (rest : EscapedForm payload body) : EscapedForm (ch :: payload) (ch :: body)
  | announced {ch : Byte} {payload body : List Byte} (rest : EscapedForm payload body) :
      EscapedForm (ch :: payload) (chr '}' :: (ch ^^^ 0x20) :: body)

theorem escapedForm_escape (payload : List Byte) : EscapedForm payload (escape payload) := by
  induction payload with
  | nil => exact .nil
  | cons ch payload ih =>
      have split : escape (ch :: payload) = escapeByte ch ++ escape payload := List.flatMap_cons
      rw [split]
      by_cases escaped : Escaped ch
      · rw [escapeByte_of_escaped escaped]
        exact .announced ih
      · rw [escapeByte_of_plain escaped]
        exact .plain (fun mark => escaped (.inr (.inr (.inr mark)))) ih

/-- The payload is not longer than the body. -/
theorem EscapedForm.length_le {payload body : List Byte} (form : EscapedForm payload body) :
    payload.length ≤ body.length := by
  induction form with
  | nil => exact Nat.le_refl 0
  | plain _ _ ih => exact Nat.succ_le_succ ih
  | announced _ ih => exact Nat.le_succ_of_le (Nat.succ_le_succ ih)

/-- The conversion of what is left of an escaped body, with the payload bytes
already converted in front of it in the same array.  The cells behind the payload stay
as they are. -/
theorem rspUnescapeLoop_spec {n : Nat} {payload body done : List Byte} {data : Vector Byte n}
    {fromOff : Nat} (form : EscapedForm payload body) (source : Holds data fromOff body)
    (target : Holds data 0 done) (behind : done.length ≤ fromOff) :
    ∃ data', rspUnescapeLoop (fromOff + body.length) data fromOff done.length =
        .ok (data', (done ++ payload).length) ∧ Holds data' 0 (done ++ payload) ∧
      ∀ j, (done ++ payload).length ≤ j → data'[j]? = data[j]? := by
  induction form generalizing done data fromOff with
  | nil =>
      refine ⟨data, ?_, by simpa using target, fun _ _ => rfl⟩
      rw [rspUnescapeLoop, if_neg (by simp)]
      simp
  | @plain ch payload body itself rest ih =>
      obtain ⟨here, source⟩ := holds_cons.mp source
      have inside : done.length < n := by
        have := (Vector.getElem?_eq_some_iff.mp here).1
        omega
      obtain ⟨data', run, holds, kept⟩ := ih (source.set (x := ch) inside (.inl (by omega)))
        (by simpa using target.extend (x := ch) (by omega))
        (by rw [List.length_append, List.length_singleton]; omega)
      rw [List.append_assoc, List.singleton_append] at run holds kept
      refine ⟨data', ?_, holds, fun j after => ?_⟩
      · rw [rspUnescapeLoop, if_pos (by simp)]
        simp only [load_of_getElem? here, store_of_lt inside, bind, Except.bind, if_neg itself]
        rw [List.length_append, List.length_singleton] at run
        rw [← run, List.length_cons, Nat.add_assoc, Nat.add_comm 1]
      · rw [kept j after, Vector.getElem?_set_ne inside (by simp at after; omega)]
  | @announced ch payload body rest ih =>
      obtain ⟨mark, source⟩ := holds_cons.mp source
      obtain ⟨second, source⟩ := holds_cons.mp source
      have inside : done.length < n := by
        have := (Vector.getElem?_eq_some_iff.mp mark).1
        omega
      have value : ch ^^^ 0x20 ^^^ 0x20 = ch := by
        rw [BitVec.xor_assoc, BitVec.xor_self, BitVec.xor_zero]
      obtain ⟨data', run, holds, kept⟩ := ih (source.set (x := ch) inside (.inl (by omega)))
        (by simpa using target.extend (x := ch) (by omega))
        (by rw [List.length_append, List.length_singleton]; omega)
      rw [List.append_assoc, List.singleton_append] at run holds kept
      refine ⟨data', ?_, holds, fun j after => ?_⟩
      · rw [rspUnescapeLoop, if_pos (by simp)]
        simp only [load_of_getElem? mark, load_of_getElem? second, store_of_lt inside, value, bind,
          Except.bind, if_pos]
        rw [List.length_append, List.length_singleton] at run
        have length : fromOff + (chr '}' :: (ch ^^^ 0x20) :: body).length =
            fromOff + 1 + 1 + body.length := by
          rw [List.length_cons, List.length_cons]
          omega
        rw [← run, length]
      · rw [kept j after, Vector.getElem?_set_ne inside (by simp at after; omega)]

/-- The conversion of a body in place. -/
theorem rspUnescape_form {n : Nat} {payload body : List Byte} {data : Vector Byte n}
    (form : EscapedForm payload body) (source : data.toList.take body.length = body) :
    ∃ data', rspUnescape data body.length = .ok (data', payload.length) ∧
      Holds data' 0 payload ∧ ∀ j, payload.length ≤ j → data'[j]? = data[j]? := by
  have unescaped := rspUnescapeLoop_spec form (holds_of_take source) (Holds.nil data 0)
    (Nat.le_refl 0)
  rwa [Nat.zero_add] at unescaped

theorem rspUnescape_spec {n : Nat} {payload : List Byte} {data : Vector Byte n}
    (source : data.toList.take (escape payload).length = escape payload) :
    ∃ data' len, rspUnescape data (escape payload).length = .ok (data', len) ∧
      data'.toList.take len = payload := by
  obtain ⟨data', run, holds, -⟩ := rspUnescape_form (escapedForm_escape payload) source
  exact ⟨data', payload.length, run, holds.take⟩

/-! ## The round trip -/

theorem frames_junk {junk : List Byte} (outside : chr '$' ∉ junk) (rest : List Byte) :
    frames (junk ++ rest) = frames rest := by
  unfold frames
  induction junk with
  | nil => rfl
  | cons ch junk ih =>
      rw [List.mem_cons, not_or] at outside
      rw [List.cons_append, scan_skip _ (Ne.symm outside.1), ih outside.2]

theorem frames_frameOf {payload : List Byte} (short : (escape payload).length ≤ maxBody)
    (rest : List Byte) :
    frames ((frameOf payload).bytes ++ rest) = frameOf payload :: frames rest := by
  rw [Frame.bytes, List.cons_append, List.append_assoc]
  exact (Frames.frame (clean_escape payload) short (frames_iff.mpr rfl)).eq_frames

/-- **A payload across the connection.**  What `put_packet` transmits for a
payload, behind any bytes but `$` and whatever the client answers, makes
`get_packet` acknowledge a packet from which `rsp_unescape` recovers the payload;
and nothing between the `$` and the `#` of what is transmitted is a delimiter or
the repeat character. -/
theorem payload_roundTrip {payload : List Byte} {p : RspBuf} (len : p.len = payload.length)
    (text : p.text = payload) (short : (escape payload).length ≤ gdbBufMax - 2)
    (data : Vector Byte (gdbBufMax * 2)) (answers : List Byte) {junk : List Byte}
    (outside : chr '$' ∉ junk) (buf : RspBuf) :
    ∃ sent unread, putPacket p data answers = .ok (sent, unread) ∧
      (∃ frame copies, sent = (List.replicate (copies + 1) (Frame.bytes frame)).flatten ∧
        ∀ ch ∈ frame.body, ch ≠ chr '$' ∧ ch ≠ chr '#' ∧ ch ≠ chr '*') ∧
      ∃ received b, getPacket buf (junk ++ sent) = .ok received ∧
        received.packet = some b ∧ received.sent = [chr '+'] ∧
        ∃ data' len', rspUnescape b.data b.len = .ok (data', len') ∧
          data'.toList.take len' = payload := by
  obtain ⟨copies, unread, put⟩ := putPacket_spec len text short data answers
  refine ⟨_, unread, put, ⟨frameOf payload, copies, rfl, fun ch member => mem_escape member⟩, ?_⟩
  rw [List.replicate_succ, List.flatten_cons]
  obtain ⟨received, run, answered⟩ := getPacket_answers buf (junk ++
    ((frameOf payload).bytes ++ (List.replicate copies (frameOf payload).bytes).flatten))
  rw [frames_junk outside, frames_frameOf short] at answered
  have accepted := answered.packet
  rw [List.find?_cons_of_pos (frameOf_valid payload).folds] at accepted
  obtain ⟨b, returned, body⟩ := Option.map_eq_some_iff.mp accepted
  have size : b.len = (escape payload).length := RspBuf.len_of_text body short
  refine ⟨received, b, run, returned, ?_, ?_⟩
  · rw [answered.sent]
    simp [List.findIdx_cons, (frameOf_valid payload).folds]
  · rw [size]
    apply rspUnescape_spec
    rw [← size]
    exact body

/-- A payload of nothing but characters that need care. -/
def delicatePayload : List Byte := [chr '$', chr '#', 0, chr '*', chr '}', 0xFF]

def delicateBuf : RspBuf :=
  ⟨Vector.ofFn fun i => delicatePayload.getD i.val 0, delicatePayload.length⟩

/-- The payload is sent twice, since the first answer is a refusal. -/
theorem payload_roundTrip_delicate :
    delicateBuf.text = delicatePayload ∧
      ∃ sent unread received b data len,
        putPacket delicateBuf (Vector.replicate _ 0) [chr '-', chr '+'] = .ok (sent, unread) ∧
        getPacket ⟨Vector.replicate _ 0, 0⟩ ([chr '+', chr '#'] ++ sent) = .ok received ∧
        received.packet = some b ∧ received.sent = [chr '+'] ∧
        rspUnescape b.data b.len = .ok (data, len) ∧ data.toList.take len = delicatePayload := by
  have text : delicateBuf.text = delicatePayload := by decide +kernel
  obtain ⟨sent, unread, put, -, received, b, run, returned, acknowledged, data, len, back, same⟩ :=
    payload_roundTrip rfl text (by decide) (Vector.replicate _ 0) [chr '-', chr '+']
      (by decide : chr '$' ∉ [chr '+', chr '#']) ⟨Vector.replicate _ 0, 0⟩
  exact ⟨text, sent, unread, received, b, data, len, put, run, returned, acknowledged, back, same⟩

end OrpsocCores.Gdb
