import OrpsocCores.Gdb.Packet

/-!
# The frames of a client's stream

What a client sends is cut into frames `$` body `#` and two characters.  The
grammar `Frames` says which complete frames a stream holds: bytes outside a
frame are skipped, a `$` inside a body restarts the frame, and a body that has
become too long for the buffer is given up, the scan going on with the next
byte.  `frames` reads them off, and it is the only reading
(`frames_iff`).

`get_packet` answers the frames of the grammar one by one
(`getPacket_answers`): it takes the first one whose body sums up to the value it
folds out of the two characters.  That value is the one the characters stand
for when both are hexadecimal digits.  For any other character `hex` returns
`-1`, which is folded in like a digit, so that some frames with a malformed
checksum are taken too (`folds_iff`).
-/

set_option autoImplicit false

namespace OrpsocCores.Gdb

open FixedBuffer

/-! ## The grammar -/

/-- A complete frame: its body and the two characters that follow the `#`. -/
structure Frame where
  body : List Byte
  ch₁ : Byte
  ch₂ : Byte
  deriving DecidableEq

/-- The longest body: the buffer keeps a cell for the end of the string, and its
fill loop ends with the cell before that one. -/
def maxBody : Nat := gdbBufMax - 2

/-- Bytes that can stand in a body. -/
def Clean (bytes : List Byte) : Prop := ∀ ch ∈ bytes, ch ≠ chr '$' ∧ ch ≠ chr '#'

/-- The complete frames of a stream that ends with its last byte. -/
inductive Frames : List Byte → List Frame → Prop
  | ended : Frames [] []
  | skip {ch : Byte} {rest : List Byte} {found : List Frame} (other : ch ≠ chr '$')
      (tail : Frames rest found) : Frames (ch :: rest) found
  | cutInBody {body : List Byte} (clean : Clean body) (short : body.length ≤ maxBody) :
      Frames (chr '$' :: body) []
  | cutInDigits {body digits : List Byte} (clean : Clean body) (short : body.length ≤ maxBody)
      (few : digits.length < 2) : Frames (chr '$' :: (body ++ chr '#' :: digits)) []
  | restart {body rest : List Byte} {found : List Frame} (clean : Clean body)
      (short : body.length ≤ maxBody) (tail : Frames (chr '$' :: rest) found) :
      Frames (chr '$' :: (body ++ chr '$' :: rest)) found
  | overlong {body rest : List Byte} {found : List Frame} (clean : Clean body)
      (long : body.length = maxBody + 1) (tail : Frames rest found) :
      Frames (chr '$' :: (body ++ rest)) found
  | frame {body rest : List Byte} {ch₁ ch₂ : Byte} {found : List Frame} (clean : Clean body)
      (short : body.length ≤ maxBody) (tail : Frames rest found) :
      Frames (chr '$' :: (body ++ chr '#' :: ch₁ :: ch₂ :: rest)) (⟨body, ch₁, ch₂⟩ :: found)

/-- The reader of the grammar, outside a frame or with the part of a body it has
read. -/
def scan : Option (List Byte) → List Byte → List Frame
  | _, [] => []
  | none, ch :: rest => if ch = chr '$' then scan (some []) rest else scan none rest
  | some body, ch :: rest =>
      if ch = chr '$' then scan (some []) rest
      else if ch = chr '#' then
        match rest with
        | ch₁ :: ch₂ :: rest => ⟨body, ch₁, ch₂⟩ :: scan none rest
        | _ => []
      else if body.length = maxBody then scan none rest
      else scan (some (body ++ [ch])) rest

/-- The complete frames of a stream. -/
def frames (stream : List Byte) : List Frame := scan none stream

theorem Clean.append_singleton {body : List Byte} {ch : Byte} (clean : Clean body)
    (start : ch ≠ chr '$') (finish : ch ≠ chr '#') : Clean (body ++ [ch]) := by
  intro byte member
  rcases List.mem_append.mp member with earlier | last
  · exact clean byte earlier
  · rw [List.mem_singleton.mp last]
    exact ⟨start, finish⟩

theorem Clean.head {body : List Byte} {ch : Byte} (clean : Clean (ch :: body)) :
    ch ≠ chr '$' ∧ ch ≠ chr '#' :=
  clean ch List.mem_cons_self

theorem Clean.tail {body : List Byte} {ch : Byte} (clean : Clean (ch :: body)) : Clean body :=
  fun byte member => clean byte (List.mem_cons_of_mem ch member)

/-! The reader, byte by byte. -/

theorem scan_none (ch : Byte) (rest : List Byte) :
    scan none (ch :: rest) = if ch = chr '$' then scan (some []) rest else scan none rest :=
  rfl

theorem scan_some (body : List Byte) (ch : Byte) (rest : List Byte) :
    scan (some body) (ch :: rest) =
      if ch = chr '$' then scan (some []) rest
      else if ch = chr '#' then
        match rest with
        | ch₁ :: ch₂ :: rest => ⟨body, ch₁, ch₂⟩ :: scan none rest
        | _ => []
      else if body.length = maxBody then scan none rest
      else scan (some (body ++ [ch])) rest :=
  scan.eq_def (some body) (ch :: rest)

theorem scan_skip {ch : Byte} (rest : List Byte) (other : ch ≠ chr '$') :
    scan none (ch :: rest) = scan none rest := by
  rw [scan_none]
  exact if_neg other

theorem scan_start (inside : Option (List Byte)) (rest : List Byte) :
    scan inside (chr '$' :: rest) = scan (some []) rest := by
  cases inside with
  | none =>
      rw [scan_none]
      exact if_pos rfl
  | some body =>
      rw [scan_some]
      exact if_pos rfl

theorem scan_close (body : List Byte) (ch₁ ch₂ : Byte) (rest : List Byte) :
    scan (some body) (chr '#' :: ch₁ :: ch₂ :: rest) = ⟨body, ch₁, ch₂⟩ :: scan none rest := by
  rw [scan_some]
  exact (if_neg (by decide)).trans (if_pos rfl)

theorem scan_cut (body : List Byte) {digits : List Byte} (few : digits.length < 2) :
    scan (some body) (chr '#' :: digits) = [] := by
  rw [scan_some]
  refine (if_neg (by decide)).trans ((if_pos rfl).trans ?_)
  match digits, few with
  | [], _ => rfl
  | [_], _ => rfl

theorem scan_full {body : List Byte} {ch : Byte} (rest : List Byte) (start : ch ≠ chr '$')
    (finish : ch ≠ chr '#') (full : body.length = maxBody) :
    scan (some body) (ch :: rest) = scan none rest := by
  rw [scan_some]
  exact (if_neg start).trans ((if_neg finish).trans (if_pos full))

theorem scan_byte {body : List Byte} {ch : Byte} (rest : List Byte) (start : ch ≠ chr '$')
    (finish : ch ≠ chr '#') (room : body.length ≠ maxBody) :
    scan (some body) (ch :: rest) = scan (some (body ++ [ch])) rest := by
  rw [scan_some]
  exact (if_neg start).trans ((if_neg finish).trans (if_neg room))

/-- The reader takes in the bytes of a body. -/
theorem scan_body {body before rest : List Byte} (clean : Clean body)
    (short : before.length + body.length ≤ maxBody) :
    scan (some before) (body ++ rest) = scan (some (before ++ body)) rest := by
  induction body generalizing before with
  | nil => rw [List.nil_append, List.append_nil]
  | cons ch body ih =>
      rw [List.length_cons] at short
      rw [List.cons_append, scan_byte _ clean.head.1 clean.head.2 (by omega),
        ih clean.tail (by rw [List.length_append, List.length_singleton]; omega),
        List.append_assoc, List.singleton_append]

/-- A body from its first byte on. -/
theorem scan_whole_body {body : List Byte} (rest : List Byte) (clean : Clean body)
    (short : body.length ≤ maxBody) :
    scan none (chr '$' :: (body ++ rest)) = scan (some body) rest := by
  rw [scan_start, scan_body clean (by rw [List.length_nil]; omega), List.nil_append]

/-- The reader gives up a body of one byte too many. -/
theorem scan_overlong {body : List Byte} (rest : List Byte) (clean : Clean body)
    (long : body.length = maxBody + 1) :
    scan none (chr '$' :: (body ++ rest)) = scan none rest := by
  obtain ⟨first, last, rfl⟩ : ∃ first last, body = first ++ [last] :=
    ⟨_, _, (List.dropLast_append_getLast (List.ne_nil_of_length_eq_add_one long)).symm⟩
  rw [List.length_append, List.length_singleton] at long
  have head : Clean first := fun ch member => clean ch (List.mem_append_left _ member)
  have ending := clean last (List.mem_append_right _ List.mem_cons_self)
  rw [List.append_assoc, scan_whole_body _ head (by omega), List.singleton_append,
    scan_full _ ending.1 ending.2 (by omega)]

theorem Frames.eq_frames {stream : List Byte} {found : List Frame} (h : Frames stream found) :
    frames stream = found := by
  unfold frames
  induction h with
  | ended => rfl
  | skip other _ ih => rw [scan_skip _ other, ih]
  | @cutInBody body clean short =>
      rw [← List.append_nil body, scan_whole_body _ clean short]
      rfl
  | cutInDigits clean short few => rw [scan_whole_body _ clean short, scan_cut _ few]
  | restart clean short _ ih =>
      rw [scan_whole_body _ clean short, scan_start, ← scan_start none, ih]
  | overlong clean long _ ih => rw [scan_overlong _ clean long, ih]
  | frame clean short _ ih => rw [scan_whole_body _ clean short, scan_close, ih]

/-- The reader follows the grammar, outside a frame and behind the first bytes
of a body. -/
theorem frames_scan (inside : Option (List Byte)) (stream : List Byte) :
    match inside with
    | none => Frames stream (scan none stream)
    | some body => Clean body → body.length ≤ maxBody →
        Frames (chr '$' :: (body ++ stream)) (scan (some body) stream) := by
  have empty : Clean [] := fun _ member => absurd member List.not_mem_nil
  fun_induction scan inside stream with
  | case1 inside =>
      match inside with
      | none => exact .ended
      | some body =>
          intro clean short
          rw [List.append_nil]
          exact .cutInBody clean short
  | case2 rest ih =>
      show Frames _ (scan none (chr '$' :: rest))
      rw [scan_start]
      exact ih empty (Nat.zero_le _)
  | case3 ch rest other ih =>
      show Frames _ (scan none (ch :: rest))
      rw [scan_skip _ other]
      exact .skip other ih
  | case4 body rest ih =>
      intro clean short
      rw [scan_start]
      exact .restart clean short (ih empty (Nat.zero_le _))
  | case5 body ch₁ ch₂ rest start ih =>
      intro clean short
      rw [scan_close]
      exact .frame clean short ih
  | case6 body rest few start =>
      intro clean short
      have short_digits : rest.length < 2 := by
        match rest with
        | [] => decide
        | [_] => exact Nat.one_lt_two
        | ch₁ :: ch₂ :: rest => exact absurd rfl (few ch₁ ch₂ rest)
      rw [scan_cut _ short_digits]
      exact .cutInDigits clean short short_digits
  | case7 body ch rest start finish full ih =>
      intro clean short
      have step := Frames.overlong (clean.append_singleton start finish)
        (by rw [List.length_append, full]; rfl) ih
      rw [List.append_assoc] at step
      rw [scan_full _ start finish full]
      exact step
  | case8 body ch rest start finish room ih =>
      intro clean short
      have step := ih (clean.append_singleton start finish)
        (by rw [List.length_append, List.length_singleton]; omega)
      rw [List.append_assoc] at step
      rw [scan_byte _ start finish room]
      exact step

/-- Every stream has exactly one reading. -/
theorem frames_iff {stream : List Byte} {found : List Frame} :
    Frames stream found ↔ frames stream = found := by
  constructor
  · exact Frames.eq_frames
  · rintro rfl
    exact frames_scan none stream

theorem Frames.short {stream : List Byte} {found : List Frame} (h : Frames stream found) :
    ∀ frame ∈ found, frame.body.length ≤ maxBody := by
  induction h with
  | ended | cutInBody | cutInDigits => exact fun _ member => absurd member List.not_mem_nil
  | skip _ _ ih | restart _ _ _ ih | overlong _ _ _ ih => exact ih
  | frame _ short _ ih =>
      intro frame member
      rcases List.mem_cons.mp member with rfl | later
      · exact short
      · exact ih frame later

/-! ## The fill loop -/

/-- The sum of bytes that `get_packet` keeps, modulo 256. -/
def checksum (bytes : List Byte) : Byte := bytes.foldl (· + ·) 0

theorem checksum_append_singleton (bytes : List Byte) (ch : Byte) :
    checksum (bytes ++ [ch]) = checksum bytes + ch := by
  rw [checksum, List.foldl_append]
  rfl

/-- A character of the body, when there is room for it. -/
theorem fill_cons (data : Vector Byte gdbBufMax) (checksum : Byte) {count : Nat} (ch next : Byte)
    (rest : List Byte) (room : count < gdbBufMax - 1) :
    fill data checksum count ch (next :: rest) =
      if next = chr '$' then fill data 0 0 next rest
      else if next = chr '#' then .ok (some ⟨data, checksum, count, next, rest⟩)
      else
        match store data count next with
        | .error fault => .error fault
        | .ok data => fill data (checksum + next) (count + 1) next rest :=
  (fill.eq_def data checksum count ch (next :: rest)).trans (if_pos room)

/-- The fill loop takes in the bytes of a body. -/
theorem fill_body {body before : List Byte} {data : Vector Byte gdbBufMax} {ch : Byte}
    (rest : List Byte) (clean : Clean body) (room : before.length + body.length < gdbBufMax)
    (holds : Holds data 0 before) (inBody : ch ≠ chr '#') :
    ∃ data' ch', fill data (checksum before) before.length ch (body ++ rest) =
        fill data' (checksum (before ++ body)) (before ++ body).length ch' rest ∧
      Holds data' 0 (before ++ body) ∧ ch' ≠ chr '#' := by
  induction body generalizing before data ch with
  | nil => exact ⟨data, ch, by simp, by simpa using holds, inBody⟩
  | cons next body ih =>
      rw [List.length_cons] at room
      have inside : before.length < gdbBufMax := by omega
      have extended : Holds (data.set before.length next inside) 0 (before ++ [next]) := by
        simpa using holds.extend (x := next) (by omega)
      obtain ⟨data', ch', filled, holds', inBody'⟩ := ih clean.tail
        (by rw [List.length_append, List.length_singleton]; omega) extended clean.head.2
      rw [checksum_append_singleton, List.length_append, List.length_singleton] at filled
      rw [List.append_assoc, List.singleton_append] at filled holds'
      refine ⟨data', ch', ?_, holds', inBody'⟩
      rw [List.cons_append, fill_cons _ _ _ _ _ (by omega)]
      simp only [if_neg clean.head.1, if_neg clean.head.2, store_of_lt inside]
      exact filled

/-- The fill loop from the start character on. -/
theorem fill_whole_body {body : List Byte} (data : Vector Byte gdbBufMax) (rest : List Byte)
    (clean : Clean body) (room : body.length < gdbBufMax) :
    ∃ data' ch', fill data 0 0 (chr '$') (body ++ rest) =
        fill data' (checksum body) body.length ch' rest ∧
      Holds data' 0 body ∧ ch' ≠ chr '#' :=
  fill_body rest clean (by rw [List.length_nil]; omega) (Holds.nil data 0) (by decide)

/-! ## One round of the outer loop -/

theorem getPacketLoop_skip (rounds : Nat) (buf : RspBuf) {ch : Byte} (rest : List Byte)
    (other : ch ≠ chr '$') :
    getPacketLoop (rounds + 1) buf (ch :: rest) = getPacketLoop (rounds + 1) buf rest := by
  rw [getPacketLoop, waitStart, if_neg other, getPacketLoop]

/-- A round from its start character on. -/
theorem getPacketLoop_start (rounds : Nat) (buf : RspBuf) (stream : List Byte) :
    getPacketLoop (rounds + 1) buf (chr '$' :: stream) =
      match fill buf.data 0 0 (chr '$') stream with
      | .error fault => .error fault
      | .ok none => .ok ⟨none, [], []⟩
      | .ok (some filled) =>
          match store filled.data filled.count 0 with
          | .error fault => .error fault
          | .ok data =>
              if filled.ch = chr '#' then
                match filled.rest with
                | ch₁ :: ch₂ :: rest =>
                    if filled.checksum ≠ xmitcsum ch₁ ch₂ then
                      (getPacketLoop rounds ⟨data, filled.count⟩ rest).map fun received =>
                        { received with sent := chr '-' :: received.sent }
                    else .ok ⟨some ⟨data, filled.count⟩, [chr '+'], rest⟩
                | _ => .ok ⟨none, [], []⟩
              else getPacketLoop rounds ⟨data, filled.count⟩ filled.rest := by
  have start : waitStart (chr '$' :: stream) = some stream := if_pos rfl
  have round := getPacketLoop.eq_def (rounds + 1) buf (chr '$' :: stream)
  simp only [start] at round
  exact round

theorem getPacketLoop_cutInBody (rounds : Nat) (buf : RspBuf) {body : List Byte}
    (clean : Clean body) (short : body.length ≤ maxBody) :
    getPacketLoop (rounds + 1) buf (chr '$' :: body) = .ok ⟨none, [], []⟩ := by
  have room : body.length < gdbBufMax - 1 := Nat.lt_of_le_of_lt short (by decide)
  obtain ⟨data, ch, filled, -, -⟩ := fill_whole_body buf.data [] clean (by omega)
  rw [List.append_nil, fill, if_pos room] at filled
  simp only [getPacketLoop_start, filled]

theorem getPacketLoop_restart (rounds : Nat) (buf : RspBuf) {body : List Byte} (rest : List Byte)
    (clean : Clean body) (short : body.length ≤ maxBody) :
    ∃ buf', getPacketLoop (rounds + 1) buf (chr '$' :: (body ++ chr '$' :: rest)) =
      getPacketLoop (rounds + 1) buf' (chr '$' :: rest) := by
  have room : body.length < gdbBufMax - 1 := Nat.lt_of_le_of_lt short (by decide)
  obtain ⟨data, ch, filled, -, -⟩ := fill_whole_body buf.data (chr '$' :: rest) clean (by omega)
  rw [fill_cons _ _ _ _ _ room] at filled
  simp only [if_pos] at filled
  refine ⟨⟨data, 0⟩, ?_⟩
  simp only [getPacketLoop_start, filled]

theorem getPacketLoop_overlong (rounds : Nat) (buf : RspBuf) {body : List Byte} (rest : List Byte)
    (clean : Clean body) (long : body.length = maxBody + 1) :
    ∃ buf', getPacketLoop (rounds + 1) buf (chr '$' :: (body ++ rest)) =
      getPacketLoop rounds buf' rest := by
  have full : body.length = gdbBufMax - 1 := long
  have inside : body.length < gdbBufMax := by rw [full]; decide
  obtain ⟨data, ch, filled, -, inBody⟩ := fill_whole_body buf.data rest clean inside
  rw [fill.eq_def data, if_neg (by omega)] at filled
  refine ⟨⟨data.set body.length 0 inside, body.length⟩, ?_⟩
  simp only [getPacketLoop_start, filled, store_of_lt inside, if_neg inBody]

/-- The round in which a body has been closed. -/
theorem getPacketLoop_closed (rounds : Nat) (buf : RspBuf) {body : List Byte} (rest : List Byte)
    (clean : Clean body) (short : body.length ≤ maxBody) :
    ∃ buf' : RspBuf, buf'.text = body ∧
      getPacketLoop (rounds + 1) buf (chr '$' :: (body ++ chr '#' :: rest)) =
        match rest with
        | ch₁ :: ch₂ :: rest =>
            if checksum body ≠ xmitcsum ch₁ ch₂ then
              (getPacketLoop rounds buf' rest).map fun received =>
                { received with sent := chr '-' :: received.sent }
            else .ok ⟨some buf', [chr '+'], rest⟩
        | _ => .ok ⟨none, [], []⟩ := by
  have room : body.length < gdbBufMax - 1 := Nat.lt_of_le_of_lt short (by decide)
  have inside : body.length < gdbBufMax := by omega
  obtain ⟨data, ch, filled, holds, -⟩ :=
    fill_whole_body buf.data (chr '#' :: rest) clean inside
  rw [fill_cons _ _ _ _ _ room] at filled
  simp only [if_neg (show chr '#' ≠ chr '$' by decide), if_pos] at filled
  refine ⟨⟨data.set body.length 0 inside, body.length⟩, ?_, ?_⟩
  · exact (holds.set inside (.inr (by omega))).take
  · rcases rest with _ | ⟨ch₁, _ | ⟨ch₂, rest⟩⟩
    · simp only [getPacketLoop_start, if_pos, filled, store_of_lt inside]
    · simp only [getPacketLoop_start, if_pos, filled, store_of_lt inside]
    · simp only [getPacketLoop_start, if_pos, filled, store_of_lt inside]

/-! ## The answers to the frames of a stream -/

/-- The value folded out of a frame's last two characters is the sum of its
body. -/
def Frame.folds (frame : Frame) : Bool := checksum frame.body = xmitcsum frame.ch₁ frame.ch₂

/-- The frames of a stream answered one by one: `-` for each one in front of the
first that is accepted, `+` for that one, whose body is returned. -/
structure Answered (accepts : Frame → Bool) (found : List Frame) (received : Received) :
    Prop where
  packet : received.packet.map RspBuf.text = (found.find? accepts).map Frame.body
  sent : received.sent = List.replicate (found.findIdx accepts) (chr '-') ++
    if found.any accepts then [chr '+'] else []

theorem Answered.nil (accepts : Frame → Bool) : Answered accepts [] ⟨none, [], []⟩ :=
  ⟨rfl, rfl⟩

theorem Answered.accept {accepts : Frame → Bool} {frame : Frame} {buf : RspBuf}
    (found : List Frame) (unread : List Byte) (accepted : accepts frame = true)
    (text : buf.text = frame.body) :
    Answered accepts (frame :: found) ⟨some buf, [chr '+'], unread⟩ where
  packet := by simp [accepted, text]
  sent := by simp [List.findIdx_cons, accepted]

theorem Answered.reject {accepts : Frame → Bool} {frame : Frame} {found : List Frame}
    {received : Received} (rejected : accepts frame = false)
    (answered : Answered accepts found received) :
    Answered accepts (frame :: found)
      { received with sent := chr '-' :: received.sent } where
  packet := by simp [rejected, answered.packet]
  sent := by simp [List.findIdx_cons, rejected, answered.sent, List.replicate_succ]

/-- The outer loop answers the frames of its stream, given as many rounds as the
stream has bytes. -/
theorem getPacketLoop_answers {stream : List Byte} {found : List Frame}
    (reading : Frames stream found) {rounds : Nat} (enough : stream.length < rounds)
    (buf : RspBuf) :
    ∃ received, getPacketLoop rounds buf stream = .ok received ∧
      Answered Frame.folds found received := by
  -- the grammar's constructors are the ways a round can go
  induction reading generalizing rounds buf with
  | ended =>
      obtain ⟨rounds, rfl⟩ := Nat.exists_eq_add_one_of_ne_zero (Nat.ne_zero_of_lt enough)
      exact ⟨_, rfl, Answered.nil _⟩
  | skip other _ ih =>
      obtain ⟨rounds, rfl⟩ := Nat.exists_eq_add_one_of_ne_zero (Nat.ne_zero_of_lt enough)
      rw [getPacketLoop_skip rounds buf _ other]
      exact ih (Nat.lt_of_succ_lt enough) buf
  | cutInBody clean short =>
      obtain ⟨rounds, rfl⟩ := Nat.exists_eq_add_one_of_ne_zero (Nat.ne_zero_of_lt enough)
      exact ⟨_, getPacketLoop_cutInBody rounds buf clean short, Answered.nil _⟩
  | @cutInDigits body digits clean short few =>
      obtain ⟨rounds, rfl⟩ := Nat.exists_eq_add_one_of_ne_zero (Nat.ne_zero_of_lt enough)
      obtain ⟨buf', -, closed⟩ := getPacketLoop_closed rounds buf digits clean short
      rw [closed]
      match digits, few with
      | [], _ => exact ⟨_, rfl, Answered.nil _⟩
      | [_], _ => exact ⟨_, rfl, Answered.nil _⟩
  | @restart body rest found clean short _ ih =>
      obtain ⟨rounds, rfl⟩ := Nat.exists_eq_add_one_of_ne_zero (Nat.ne_zero_of_lt enough)
      obtain ⟨buf', restarted⟩ := getPacketLoop_restart rounds buf rest clean short
      rw [restarted]
      refine ih ?_ buf'
      simp only [List.length_cons, List.length_append] at enough ⊢
      omega
  | @overlong body rest found clean long _ ih =>
      obtain ⟨rounds, rfl⟩ := Nat.exists_eq_add_one_of_ne_zero (Nat.ne_zero_of_lt enough)
      obtain ⟨buf', given_up⟩ := getPacketLoop_overlong rounds buf rest clean long
      rw [given_up]
      refine ih ?_ buf'
      simp only [List.length_cons, List.length_append] at enough
      omega
  | @frame body rest ch₁ ch₂ found clean short _ ih =>
      obtain ⟨rounds, rfl⟩ := Nat.exists_eq_add_one_of_ne_zero (Nat.ne_zero_of_lt enough)
      obtain ⟨buf', text, closed⟩ :=
        getPacketLoop_closed rounds buf (ch₁ :: ch₂ :: rest) clean short
      rw [closed]
      by_cases folded : checksum body = xmitcsum ch₁ ch₂
      · refine ⟨_, if_neg (not_not.mpr folded), Answered.accept found rest ?_ text⟩
        exact decide_eq_true folded
      · have fewer : rest.length < rounds := by
          simp only [List.length_cons, List.length_append] at enough
          omega
        obtain ⟨received, run, answered⟩ := ih fewer buf'
        refine ⟨{ received with sent := chr '-' :: received.sent }, ?_,
          Answered.reject (decide_eq_false folded) answered⟩
        simp only [if_pos folded, run]
        rfl

/-- **`get_packet` answers the frames of its stream.**  Whatever the static
buffer holds, the call ends without an access outside its buffer. -/
theorem getPacket_answers (buf : RspBuf) (stream : List Byte) :
    ∃ received, getPacket buf stream = .ok received ∧
      Answered Frame.folds (frames stream) received :=
  getPacketLoop_answers (frames_iff.mpr rfl) (Nat.lt_succ_self _) buf

end OrpsocCores.Gdb
