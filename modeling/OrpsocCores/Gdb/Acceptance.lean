import Mathlib.Data.List.Induction
import Mathlib.Data.List.TakeWhile
import OrpsocCores.Gdb.Framing

/-!
# Which packets are accepted

A frame is valid when its last two characters are hexadecimal digits that give
the sum of its body.  `get_packet` is meant to return the body of the first
valid frame and to answer `-` to every complete frame in front of it.  It does
so exactly when no frame in front of the first valid one is misread
(`acceptsGrammar_iff`): a character that is no digit counts as `-1`, and the
three ways in which such a value can come out as the body's sum are listed by
`Misread`.

The second result is about the length of packets.  The server announces the
size of its buffer as the packet size, and the comment at the definition of that
size says that the `G` packet fits.  The fill loop stops two characters short
of it (`returnsBody_iff`), and the `G` packet with all registers is refused.
-/

set_option autoImplicit false

namespace OrpsocCores.Gdb

/-! ## Valid frames -/

def lowerDigits : Vector Char 16 :=
  #v['0', '1', '2', '3', '4', '5', '6', '7', '8', '9', 'a', 'b', 'c', 'd', 'e', 'f']

def upperDigits : Vector Char 16 :=
  #v['0', '1', '2', '3', '4', '5', '6', '7', '8', '9', 'A', 'B', 'C', 'D', 'E', 'F']

/-- The character is a hexadecimal digit of this value. -/
def HexDigit (ch : Byte) (value : Fin 16) : Prop :=
  ch = chr (lowerDigits.get value) ∨ ch = chr (upperDigits.get value)

instance (ch : Byte) (value : Fin 16) : Decidable (HexDigit ch value) :=
  inferInstanceAs (Decidable (_ ∨ _))

def IsHexDigit (ch : Byte) : Prop := ∃ value, HexDigit ch value

instance (ch : Byte) : Decidable (IsHexDigit ch) := inferInstanceAs (Decidable (∃ _, _))

/-- The sum of bytes modulo 256. -/
def byteSum (bytes : List Byte) : Nat := (bytes.map BitVec.toNat).sum % 256

/-- The last two characters are digits and give the sum of the body. -/
def Frame.Valid (frame : Frame) : Prop :=
  ∃ high low : Fin 16, HexDigit frame.ch₁ high ∧ HexDigit frame.ch₂ low ∧
    16 * high.val + low.val = byteSum frame.body

/-- One of the last two characters is no digit, and with `-1` for it the two
still give the sum of the body. -/
def Frame.Misread (frame : Frame) : Prop :=
  ¬ IsHexDigit frame.ch₁ ∧ ¬ IsHexDigit frame.ch₂ ∧ byteSum frame.body = 0xEF ∨
  ¬ IsHexDigit frame.ch₁ ∧ (∃ low, HexDigit frame.ch₂ low ∧ byteSum frame.body = 0xF0 + low.val) ∨
  (∃ high, HexDigit frame.ch₁ high ∧ byteSum frame.body = (16 * high.val + 255) % 256) ∧
    ¬ IsHexDigit frame.ch₂

instance (frame : Frame) : Decidable frame.Valid := inferInstanceAs (Decidable (∃ _, _))

instance (frame : Frame) : Decidable frame.Misread := inferInstanceAs (Decidable (_ ∨ _))

def Frame.valid (frame : Frame) : Bool := decide frame.Valid

/-! ## The value folded out of two characters -/

theorem hex_digits : ∀ value : Fin 16, hex (chr (lowerDigits.get value)) = value.val ∧
    hex (chr (upperDigits.get value)) = value.val := by
  decide +kernel

theorem hex_of_hexDigit (ch : Byte) (value : Fin 16) (digit : HexDigit ch value) :
    hex ch = value.val := by
  rcases digit with rfl | rfl
  · exact (hex_digits value).1
  · exact (hex_digits value).2

theorem isHexDigit_of_hex : ∀ ch : Byte, hex ch ≠ -1 → IsHexDigit ch := by
  decide +kernel

theorem hex_of_not_isHexDigit (ch : Byte) (other : ¬ IsHexDigit ch) : hex ch = -1 := by
  by_contra found
  exact other (isHexDigit_of_hex ch found)

theorem HexDigit.unique {ch : Byte} {v w : Fin 16} (first : HexDigit ch v)
    (second : HexDigit ch w) : v = w := by
  have same : (v.val : Int) = w.val :=
    (hex_of_hexDigit ch v first).symm.trans (hex_of_hexDigit ch w second)
  omega

theorem checksum_toNat (bytes : List Byte) : (checksum bytes).toNat = byteSum bytes := by
  induction bytes using List.reverseRecOn with
  | nil => rfl
  | append_singleton bytes ch ih =>
      rw [checksum_append_singleton, BitVec.toNat_add, ih]
      simp [byteSum]

/-- The value folded out of two numbers from `-1` to fifteen. -/
theorem toNat_fold : ∀ x y : Fin 17,
    (BitVec.ofInt 8 (((x.val : Int) - 1) * 2 ^ 4) + BitVec.ofInt 8 ((y.val : Int) - 1)).toNat =
      (16 * x.val + y.val + 239) % 256 := by
  decide +kernel

theorem hexDigit_hex_succ {ch : Byte} {value : Fin 16} (digit : HexDigit ch value) :
    hex ch = (value.succ.val : Int) - 1 := by
  rw [hex_of_hexDigit ch value digit, Fin.val_succ]
  omega

theorem not_isHexDigit_hex_zero {ch : Byte} (other : ¬ IsHexDigit ch) :
    hex ch = ((0 : Fin 17).val : Int) - 1 :=
  hex_of_not_isHexDigit ch other

theorem xmitcsum_toNat {ch₁ ch₂ : Byte} {x y : Fin 17} (first : hex ch₁ = (x.val : Int) - 1)
    (second : hex ch₂ = (y.val : Int) - 1) :
    (xmitcsum ch₁ ch₂).toNat = (16 * x.val + y.val + 239) % 256 := by
  rw [xmitcsum, first, second, toNat_fold]

theorem Frame.folds_iff_toNat (frame : Frame) :
    frame.folds = true ↔ byteSum frame.body = (xmitcsum frame.ch₁ frame.ch₂).toNat := by
  rw [Frame.folds, decide_eq_true_iff, ← checksum_toNat, BitVec.toNat_inj]

/-- The frames whose checksum `get_packet` takes for right: the valid ones and
the misread ones. -/
theorem Frame.folds_iff (frame : Frame) :
    frame.folds = true ↔ frame.Valid ∨ frame.Misread := by
  rw [frame.folds_iff_toNat]
  by_cases first : IsHexDigit frame.ch₁ <;> by_cases second : IsHexDigit frame.ch₂
  · obtain ⟨high, isHigh⟩ := first
    obtain ⟨low, isLow⟩ := second
    rw [xmitcsum_toNat (hexDigit_hex_succ isHigh) (hexDigit_hex_succ isLow)]
    simp only [Fin.val_succ]
    constructor
    · intro sum
      exact .inl ⟨high, low, isHigh, isLow, by omega⟩
    · rintro (⟨high', low', isHigh', isLow', sum⟩ | (⟨no, -⟩ | ⟨no, -⟩ | ⟨-, no⟩))
      · obtain rfl := isHigh.unique isHigh'
        obtain rfl := isLow.unique isLow'
        omega
      · exact absurd ⟨high, isHigh⟩ no
      · exact absurd ⟨high, isHigh⟩ no
      · exact absurd ⟨low, isLow⟩ no
  · obtain ⟨high, isHigh⟩ := first
    rw [xmitcsum_toNat (hexDigit_hex_succ isHigh) (not_isHexDigit_hex_zero second)]
    simp only [Fin.val_succ, Fin.val_zero]
    constructor
    · intro sum
      exact .inr (.inr (.inr ⟨⟨high, isHigh, by omega⟩, second⟩))
    · rintro (⟨-, low, -, isLow, -⟩ | (⟨no, -⟩ | ⟨no, -⟩ | ⟨⟨high', isHigh', sum⟩, -⟩))
      · exact absurd ⟨low, isLow⟩ second
      · exact absurd ⟨high, isHigh⟩ no
      · exact absurd ⟨high, isHigh⟩ no
      · obtain rfl := isHigh.unique isHigh'
        omega
  · obtain ⟨low, isLow⟩ := second
    rw [xmitcsum_toNat (not_isHexDigit_hex_zero first) (hexDigit_hex_succ isLow)]
    simp only [Fin.val_succ, Fin.val_zero]
    constructor
    · intro sum
      exact .inr (.inr (.inl ⟨first, low, isLow, by omega⟩))
    · rintro (⟨high, -, isHigh, -, -⟩ | (⟨-, no, -⟩ | ⟨-, low', isLow', sum⟩ | ⟨⟨high, isHigh, -⟩, -⟩))
      · exact absurd ⟨high, isHigh⟩ first
      · exact absurd ⟨low, isLow⟩ no
      · obtain rfl := isLow.unique isLow'
        omega
      · exact absurd ⟨high, isHigh⟩ first
  · rw [xmitcsum_toNat (not_isHexDigit_hex_zero first) (not_isHexDigit_hex_zero second)]
    simp only [Fin.val_zero]
    constructor
    · intro sum
      exact .inr (.inl ⟨first, second, by omega⟩)
    · rintro (⟨high, -, isHigh, -, -⟩ | (⟨-, -, sum⟩ | ⟨-, low, isLow, -⟩ | ⟨⟨high, isHigh, -⟩, -⟩))
      · exact absurd ⟨high, isHigh⟩ first
      · omega
      · exact absurd ⟨low, isLow⟩ second
      · exact absurd ⟨high, isHigh⟩ first

theorem Frame.Valid.folds {frame : Frame} (valid : frame.Valid) : frame.folds = true :=
  frame.folds_iff.mpr (.inl valid)

/-! ## The first valid frame -/

/-- What `get_packet` is meant to do with a stream: the frames of the grammar are
answered, and the first valid one is accepted. -/
def AcceptsGrammar (buf : RspBuf) (stream : List Byte) : Prop :=
  ∃ found received, Frames stream found ∧ getPacket buf stream = .ok received ∧
    Answered Frame.valid found received

/-- The frames in front of the first valid one. -/
def invalidBefore (found : List Frame) : List Frame := found.takeWhile fun frame => !frame.valid

/-- Where no frame in front of the first valid one folds, the two ways of
accepting give the same answers. -/
theorem answered_folds_iff {found : List Frame} {received : Received}
    (unmistaken : ∀ frame ∈ invalidBefore found, frame.folds = false) :
    Answered Frame.folds found received ↔ Answered Frame.valid found received := by
  have same : found.find? Frame.folds = found.find? Frame.valid ∧
      found.findIdx Frame.folds = found.findIdx Frame.valid ∧
      found.any Frame.folds = found.any Frame.valid := by
    induction found with
    | nil => exact ⟨rfl, rfl, rfl⟩
    | cons frame found ih =>
        by_cases valid : frame.Valid
        · have isValid : frame.valid = true := decide_eq_true valid
          simp [List.findIdx_cons, isValid, valid.folds]
        · have isInvalid : frame.valid = false := decide_eq_false valid
          rw [invalidBefore, List.takeWhile_cons_of_pos (by rw [isInvalid]; rfl)] at unmistaken
          have rejected := unmistaken frame List.mem_cons_self
          obtain ⟨first, index, any⟩ :=
            ih fun later member => unmistaken later (List.mem_cons_of_mem _ member)
          simp [List.findIdx_cons, isInvalid, rejected, first, index, any]
  constructor
  · rintro ⟨packet, sent⟩
    exact ⟨by rw [packet, same.1], by rw [sent, same.2.1, same.2.2]⟩
  · rintro ⟨packet, sent⟩
    exact ⟨by rw [packet, same.1], by rw [sent, same.2.1, same.2.2]⟩

/-- The answers tell which frame has been accepted. -/
theorem not_folds_of_answered {found : List Frame} {received : Received}
    (byCode : Answered Frame.folds found received)
    (byGrammar : Answered Frame.valid found received) :
    ∀ frame ∈ invalidBefore found, frame.folds = false := by
  have sent := byCode.sent.symm.trans byGrammar.sent
  clear byCode byGrammar
  induction found with
  | nil => exact fun _ member => absurd member List.not_mem_nil
  | cons frame found ih =>
      by_cases valid : frame.Valid
      · have isValid : frame.valid = true := decide_eq_true valid
        rw [invalidBefore, List.takeWhile_cons_of_neg (by rw [isValid]; decide)]
        exact fun _ member => absurd member List.not_mem_nil
      · have isInvalid : frame.valid = false := decide_eq_false valid
        rcases Bool.eq_false_or_eq_true frame.folds with folds | rejected
        · simp [List.findIdx_cons, isInvalid, folds, List.replicate_succ, chr] at sent
        · rw [invalidBefore, List.takeWhile_cons_of_pos (by rw [isInvalid]; rfl)]
          have later := ih (by
            simpa [List.findIdx_cons, isInvalid, rejected, List.replicate_succ] using sent)
          intro candidate member
          rcases List.mem_cons.mp member with rfl | inTail
          · exact rejected
          · exact later candidate inTail

/-- In front of the first valid frame, a frame folds when it is misread. -/
theorem folds_iff_misread {found : List Frame} {frame : Frame}
    (before : frame ∈ invalidBefore found) : frame.folds = true ↔ frame.Misread := by
  have invalid : ¬ frame.Valid := by
    have := List.mem_takeWhile_imp before
    simpa [Frame.valid] using this
  rw [frame.folds_iff]
  exact or_iff_right invalid

/-- **The packets `get_packet` accepts.**  It follows the grammar, on a stream
and from any contents of its buffer, exactly when no frame in front of the first
valid one is misread. -/
theorem acceptsGrammar_iff (buf : RspBuf) (stream : List Byte) :
    AcceptsGrammar buf stream ↔
      ∀ found, Frames stream found → ∀ frame ∈ invalidBefore found, ¬ frame.Misread := by
  obtain ⟨received, run, answered⟩ := getPacket_answers buf stream
  constructor
  · rintro ⟨found, received', reading, run', byGrammar⟩ found' reading' frame before misread
    obtain rfl : received = received' := Except.ok.inj (run.symm.trans run')
    obtain rfl := reading.eq_frames
    obtain rfl := reading'.eq_frames
    have rejected := not_folds_of_answered answered byGrammar frame before
    rw [(folds_iff_misread before).mpr misread] at rejected
    exact Bool.noConfusion rejected
  · intro unmistaken
    have reading : Frames stream (frames stream) := frames_iff.mpr rfl
    refine ⟨frames stream, received, reading, run, (answered_folds_iff ?_).mp answered⟩
    intro frame before
    rw [Bool.eq_false_iff]
    intro folds
    exact unmistaken _ reading frame before ((folds_iff_misread before).mp folds)

/-- A body with the sum `0xEF`. -/
def misreadBody : List Byte := [0xEF]

/-- A frame whose checksum is given by two letters that are no digits. -/
def misreadStream : List Byte := chr '$' :: (misreadBody ++ [chr '#', chr 'z', chr 'z'])

/-- The frame with the malformed checksum is accepted, although the stream holds
no valid frame. -/
theorem misread_frame_accepted :
    ¬ AcceptsGrammar ⟨Vector.replicate gdbBufMax 0, 0⟩ misreadStream := by
  rintro ⟨found, received, reading, run, byGrammar⟩
  have only : found = [⟨misreadBody, chr 'z', chr 'z'⟩] := reading.eq_frames.symm.trans (by decide)
  have sent : received.sent = [chr '+'] := by
    obtain ⟨received', run', answered⟩ :=
      getPacket_answers ⟨Vector.replicate gdbBufMax 0, 0⟩ misreadStream
    obtain rfl : received = received' := Except.ok.inj (run.symm.trans run')
    rw [answered.sent]
    decide
  rw [byGrammar.sent, only] at sent
  exact absurd sent (by decide)

/-! ## The length of packets -/

/-- The packet size that the reply to `qSupported` announces. -/
def packetSize : Nat := gdbBufMax

/-- A frame with this body, at the head of the client's stream, is accepted: the
call returns exactly the body and never leaves its buffer. -/
def ReturnsBody (buf : RspBuf) (frame : Frame) (rest : List Byte) : Prop :=
  ∃ received packet,
    getPacket buf (chr '$' :: (frame.body ++ chr '#' :: frame.ch₁ :: frame.ch₂ :: rest)) =
      .ok received ∧
    received.packet = some packet ∧ packet.text = frame.body ∧ packet.len = frame.body.length

theorem RspBuf.len_of_text {buf : RspBuf} {body : List Byte} (text : buf.text = body)
    (short : body.length ≤ maxBody) : buf.len = body.length := by
  have length : min buf.len gdbBufMax = body.length := by
    rw [← text, RspBuf.text, List.length_take, Vector.length_toList]
  have bound : maxBody < gdbBufMax := by decide
  omega

/-- A packet that is returned is one of the frames, and no longer than the
grammar allows. -/
theorem getPacket_short {buf : RspBuf} {stream : List Byte} {received : Received}
    {packet : RspBuf} (run : getPacket buf stream = .ok received)
    (returned : received.packet = some packet) : packet.text.length ≤ maxBody := by
  obtain ⟨received', run', answered⟩ := getPacket_answers buf stream
  obtain rfl : received = received' := Except.ok.inj (run.symm.trans run')
  have accepted := answered.packet
  rw [returned, Option.map_some, eq_comm, Option.map_eq_some_iff] at accepted
  obtain ⟨frame, first, body⟩ := accepted
  rw [← body]
  exact (frames_iff.mpr rfl).short frame (List.mem_of_find?_eq_some first)

/-- **The length of packets.**  Whatever follows it, a frame with a right
checksum is accepted exactly when its body is two characters shorter than the
buffer, or less. -/
theorem returnsBody_iff (buf : RspBuf) {frame : Frame} (rest : List Byte)
    (clean : Clean frame.body) (valid : frame.Valid) :
    ReturnsBody buf frame rest ↔ frame.body.length ≤ gdbBufMax - 2 := by
  constructor
  · rintro ⟨received, packet, run, returned, text, -⟩
    rw [← text]
    exact getPacket_short run returned
  · intro short
    obtain ⟨received, run, answered⟩ := getPacket_answers buf
      (chr '$' :: (frame.body ++ chr '#' :: frame.ch₁ :: frame.ch₂ :: rest))
    have reading : frames (chr '$' :: (frame.body ++ chr '#' :: frame.ch₁ :: frame.ch₂ :: rest)) =
        frame :: frames rest := (Frames.frame clean short (frames_iff.mpr rfl)).eq_frames
    have accepted := answered.packet
    rw [reading, List.find?_cons_of_pos valid.folds] at accepted
    obtain ⟨packet, returned, text⟩ := Option.map_eq_some_iff.mp accepted
    exact ⟨received, packet, run, returned, text, RspBuf.len_of_text text short⟩

/-- The request `g`, with its checksum. -/
def readAllRegs : Frame := ⟨[chr 'g'], chr '6', chr '7'⟩

theorem returnsBody_iff_readAllRegs :
    readAllRegs.Valid ∧ ReturnsBody ⟨Vector.replicate gdbBufMax 0, 0⟩ readAllRegs [] := by
  have clean : Clean readAllRegs.body := by
    intro ch member
    rw [List.mem_singleton.mp member]
    decide
  have valid : readAllRegs.Valid := by decide
  exact ⟨valid, (returnsBody_iff _ [] clean valid).mpr (by decide)⟩

/-- The request `G` that writes zero to every register. -/
def writeAllRegs : Frame :=
  ⟨chr 'G' :: List.replicate (numRegs * 8) (chr '0'), chr 'c', chr '7'⟩

/-- The request with the values of all registers is as long as the announced
packet size allows, and it is refused. -/
theorem writeAllRegs_refused :
    Clean writeAllRegs.body ∧ writeAllRegs.Valid ∧ writeAllRegs.body.length ≤ packetSize ∧
      ¬ ReturnsBody ⟨Vector.replicate gdbBufMax 0, 0⟩ writeAllRegs [] := by
  refine ⟨?_, by decide +kernel, by decide +kernel, ?_⟩
  · intro ch member
    rcases List.mem_cons.mp member with rfl | zero
    · decide
    · rw [(List.mem_replicate.mp zero).2]
      decide
  · rintro ⟨received, packet, run, returned, text, -⟩
    have short := getPacket_short run returned
    rw [text] at short
    exact absurd short (by decide +kernel)

end OrpsocCores.Gdb
