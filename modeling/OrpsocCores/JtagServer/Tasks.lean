import OrpsocCores.JtagServer.Clock

/-!
# The tasks

What a task has to do is a list of sessions of the clock generator, each with the values
that the pins have at its rising edges (`Work`).  A call of a task goes on with the
first session, or takes it off the list, or passes from one byte to the next.  Whatever
it does, the edges that it makes and those still to come are the edges that were to come
before (`Advanced`).
-/

set_option autoImplicit false

namespace OrpsocCores.JtagServer

/-! ## Sessions -/

/-- What the simulated design samples at a rising edge. -/
structure Edge where
  tms : Bool
  tdi : Bool
  deriving DecidableEq, Repr

/-- So many clock periods with these values. -/
abbrev Session := Nat × Edge

/-- What a task has to do: sessions of the clock generator, and bytes to pass. -/
structure Work where
  sessions : List Session
  bytes : Nat

/-- The rising edges of sessions. -/
def script (tckPeriod : Nat) (sessions : List Session) : List Edge :=
  sessions.flatMap fun session => List.replicate (clocks tckPeriod session.1) session.2

/-- The rising edges to come, when the first session has begun. -/
def rest (tckPeriod : Nat) (clk : ClockGen) : List Session → List Edge
  | [] => []
  | session :: more =>
      List.replicate (left tckPeriod session.1 clk) session.2 ++ script tckPeriod more

/-- A bound on the calls for a session that has not begun. -/
def fullPatience (tckPeriod nbPeriod : Nat) : Nat :=
  nbPeriod * tckPeriod * (tckPeriod + 3) + 1 + (tckPeriod + 2)

/-- A bound on the calls to come. -/
def calls (tckPeriod : Nat) (clk : ClockGen) (t : Nat) (work : Work) : Nat :=
  work.bytes +
    match work.sessions with
    | [] => 0
    | session :: more =>
        patience tckPeriod session.1 clk t +
          (more.map fun session => fullPatience tckPeriod session.1).sum

/-- The clock generator in front of a call that goes on with the sessions. -/
def Ready (tckPeriod : Nat) (clk : ClockGen) (tck : Bool) (t : Nat) : List Session → Prop
  | [] => Resting clk tck t
  | _ :: _ => InPhase tckPeriod clk tck t

/-- The rising edge of a call, if it makes one. -/
def emitted (pins pins' : Pins) : List Edge :=
  if pins.tck = false ∧ pins'.tck = true then [⟨pins'.tms, pins'.tdi⟩] else []

variable {tckPeriod t : Nat} {s : Server}

theorem rest_restart (clk : ClockGen) (sessions : List Session) :
    rest tckPeriod (genClkRestart clk) sessions = script tckPeriod sessions := by
  cases sessions with
  | nil => rfl
  | cons session more => rw [rest, left_restart, script, script, List.flatMap_cons]

theorem rest_of_resting {clk : ClockGen} {tck : Bool} (resting : Resting clk tck t)
    (sessions : List Session) : rest tckPeriod clk sessions = script tckPeriod sessions := by
  cases sessions with
  | nil => rfl
  | cons session more => rw [rest, resting.left_eq, script, script, List.flatMap_cons]

theorem Ready.restart (clk : ClockGen) (tck : Bool) (t : Nat) (sessions : List Session) :
    Ready tckPeriod (genClkRestart clk) tck t sessions := by
  cases sessions with
  | nil => exact Resting.restart clk tck t
  | cons session more => exact InPhase.restart tckPeriod clk tck t

theorem calls_restart (clk : ClockGen) (t : Nat) (work : Work) :
    calls tckPeriod (genClkRestart clk) t work =
      work.bytes + (work.sessions.map fun session => fullPatience tckPeriod session.1).sum := by
  unfold calls
  cases work.sessions with
  | nil => rfl
  | cons session more => rfl

/-- A call does a part of the work. -/
structure Advanced (tckPeriod t : Nat) (work work' : Work) (s s' : Server) : Prop where
  edges : emitted s.pins s'.pins ++ rest tckPeriod s'.clk work'.sessions =
    rest tckPeriod s.clk work.sessions
  ready : Ready tckPeriod s'.clk s'.pins.tck (t + 1) work'.sessions
  sooner : calls tckPeriod s'.clk (t + 1) work' < calls tckPeriod s.clk t work

/-- **A call of the clock generator for the first session.** -/
theorem session_call {nbPeriod : Nat} {edge : Edge} {more : List Session} (bytes : Nat)
    (ready : Ready tckPeriod s.clk s.pins.tck t ((nbPeriod, edge) :: more))
    (tdo capturedTdo : Byte) (getTdo : Bool) :
    (∃ tick, genClk tckPeriod t nbPeriod s.pins.tck tdo capturedTdo getTdo s.clk = tick ∧
      tick.status = .inProgress ∧
      ∀ s' : Server, s'.clk = tick.clk → s'.pins = ⟨edge.tms, edge.tdi, tick.tck⟩ →
        Advanced tckPeriod t ⟨(nbPeriod, edge) :: more, bytes⟩ ⟨(nbPeriod, edge) :: more, bytes⟩
          s s') ∨
    (∃ clk', genClk tckPeriod t nbPeriod s.pins.tck tdo capturedTdo getTdo s.clk =
        ⟨.done, clk', s.pins.tck, capturedTdo⟩ ∧
      ∀ s' : Server, s'.clk = genClkRestart clk' → s'.pins.tck = s.pins.tck →
        Advanced tckPeriod t ⟨(nbPeriod, edge) :: more, bytes⟩ ⟨more, bytes⟩ s s') := by
  rcases Nat.lt_or_ge s.clk.curPeriod (nbPeriod * tckPeriod) with more' | enough
  · left
    have ticked := genClk_inProgress ready more' tdo capturedTdo getTdo
    refine ⟨_, rfl, ticked.status, ?_⟩
    intro s' clk pins
    refine ⟨?_, ?_, ?_⟩
    · rw [emitted, rest, rest, clk, pins, ticked.left, ← List.replicate_append_replicate,
        List.append_assoc]
      dsimp only
      split
      · rfl
      · rfl
    · rw [clk, pins]
      exact ticked.inPhase
    · rw [clk]
      have sooner := ticked.patience
      simp only [calls]
      omega
  · right
    have done : ∃ clk', genClk tckPeriod t nbPeriod s.pins.tck tdo capturedTdo getTdo s.clk =
        ⟨.done, clk', s.pins.tck, capturedTdo⟩ := genClk_done enough tdo capturedTdo getTdo
    obtain ⟨clk', done⟩ := done
    refine ⟨clk', done, ?_⟩
    intro s' clk pins
    refine ⟨?_, ?_, ?_⟩
    · have still : emitted s.pins s'.pins = [] := by
        rw [emitted, pins]
        simp
      rw [still, clk, rest_restart, rest, left_done enough]
      rfl
    · rw [clk]
      exact Ready.restart clk' _ _ more
    · rw [clk, calls_restart, calls]
      dsimp only
      have some : 0 < patience tckPeriod nbPeriod s.clk t := by
        unfold patience
        omega
      omega

/-- A call that only passes to the next byte. -/
theorem byte_call {sessions : List Session} (bytes : Nat)
    (ready : Ready tckPeriod s.clk s.pins.tck t sessions)
    (between : sessions = [] ∨ s.clk.genClkBegin = true) (s' : Server) (clk : s'.clk = s.clk)
    (pins : s'.pins = s.pins) :
    Advanced tckPeriod t ⟨sessions, bytes + 1⟩ ⟨sessions, bytes⟩ s s' := by
  refine ⟨?_, ?_, ?_⟩
  · rw [emitted, clk, pins]
    simp
  · rw [clk, pins]
    cases sessions with
    | nil => exact Resting.later ready
    | cons session more =>
        have begins := between.resolve_left (by simp)
        cases ready with
        | fresh begins low none => exact .fresh begins low none
        | low begun _ _ _ => simp [begins] at begun
        | high begun _ _ _ => simp [begins] at begun
  · rw [clk]
    cases sessions with
    | nil => exact Nat.lt_succ_self bytes
    | cons session more =>
        have begins := between.resolve_left (by simp)
        simp only [calls, patience, begins, if_true]
        omega

/-! ## Bits -/

section Bits

variable {count : Nat → Nat} {edge : Nat → Nat → Edge} {length i j : Nat}

/-- The bits from one on as sessions: those of its byte, and those of the bytes behind. -/
def bits (count : Nat → Nat) (edge : Nat → Nat → Edge) (length i j : Nat) : List Session :=
  if i < length then
    (List.range' j (count i - j)).map (fun k => (1, edge i k)) ++
      (List.range' (i + 1) (length - (i + 1))).flatMap
        fun i => (List.range' 0 (count i)).map fun k => (1, edge i k)
  else []

theorem bits_end (outside : length ≤ i) : bits count edge length i j = [] :=
  if_neg (Nat.not_lt.mpr outside)

/-- A bit. -/
theorem bits_bit (inside : i < length) (inByte : j < count i) :
    bits count edge length i j = (1, edge i j) :: bits count edge length i (j + 1) := by
  have more : count i - j = count i - (j + 1) + 1 := by omega
  rw [bits, if_pos inside, bits, if_pos inside, more, List.range'_succ, List.map_cons,
    List.cons_append]

/-- A byte. -/
theorem bits_byte (inside : i < length) (behind : count i ≤ j) :
    bits count edge length i j = bits count edge length (i + 1) 0 := by
  rw [bits, if_pos inside, Nat.sub_eq_zero_of_le behind]
  rcases Nat.lt_or_ge (i + 1) length with more | last
  · have longer : length - (i + 1) = length - (i + 1 + 1) + 1 := by omega
    rw [bits, if_pos more, longer, List.range'_succ, List.flatMap_cons, Nat.sub_zero]
    rfl
  · rw [bits_end last, Nat.sub_eq_zero_of_le last]
    rfl

/-- Nothing is left behind an empty last byte. -/
theorem bits_none (empty : count i ≤ j) (last : length ≤ i + 1) :
    bits count edge length i j = [] := by
  rcases Nat.lt_or_ge i length with inside | outside
  · rw [bits_byte inside empty, bits_end last]
  · exact bits_end outside

/-- The work from a bit on, with the bytes that are still to be passed. -/
theorem work_bit (inside : i < length) (inByte : j < count i) :
    (⟨bits count edge length i j, length - i⟩ : Work) =
      ⟨(1, edge i j) :: bits count edge length i (j + 1), length - i⟩ := by
  rw [bits_bit inside inByte]

/-- The work behind a byte. -/
theorem work_byte (inside : i < length) (behind : count i ≤ j) :
    (⟨bits count edge length i j, length - i⟩ : Work) =
      ⟨bits count edge length (i + 1) 0, length - (i + 1) + 1⟩ := by
  rw [bits_byte inside behind]
  congr 1
  omega

end Bits

/-- The bit that a task looks at. -/
theorem decide_and_one (byte : Byte) (j : Nat) :
    decide (byte >>> j &&& 1 = 1) = byte.getLsbD j := by
  have bit : (byte >>> j).getLsbD 0 = byte.getLsbD j := by
    rw [BitVec.getLsbD_ushiftRight, Nat.add_zero]
  rw [← bit]
  generalize byte >>> j = byte
  revert byte
  decide

/-- A task between two calls, in the bytes that it shifts. -/
structure Shifting (buffer : Vector Byte xfertMaxSize) (count : Nat → Nat)
    (sessions : List Session) (clk : ClockGen) (i j : Nat) (start : Bool) (data : Byte) : Prop where
  first : start = true → j = 0
  loaded : start = false → data = buffer.getD i 0 >>> j
  between : count i ≤ j → sessions = [] ∨ clk.genClkBegin = true

namespace Shifting

variable {buffer : Vector Byte xfertMaxSize} {count : Nat → Nat} {i j : Nat}

/-- Within a bit. -/
theorem within (inByte : j < count i) (sessions : List Session) (clk : ClockGen) :
    Shifting buffer count sessions clk i j false (buffer.getD i 0 >>> j) where
  first start := nomatch start
  loaded _ := rfl
  between behind := absurd inByte (Nat.not_lt.mpr behind)

/-- Behind a bit. -/
theorem behindBit (count : Nat → Nat) (sessions : List Session) (clk : ClockGen) (i j : Nat) :
    Shifting buffer count sessions (genClkRestart clk) i (j + 1) false
      (buffer.getD i 0 >>> j >>> 1) where
  first start := nomatch start
  loaded _ := (BitVec.shiftRight_add _ _ _).symm
  between _ := .inr rfl

/-- Behind a byte, unless nothing is left. -/
theorem behindByte {sessions : List Session} (empty : count i ≤ 0 → sessions = [])
    (clk : ClockGen) (data : Byte) : Shifting buffer count sessions clk i 0 true data where
  first _ := rfl
  loaded start := nomatch start
  between none := .inl (empty none)

end Shifting

/-! ## `do_tms_seq` -/

section TmsSeq

variable {length nbBits : Int} {buffer : Vector Byte xfertMaxSize}

def tmsCount (length nbBits : Int) (i : Nat) : Nat := (Server.tmsBitsInByte length nbBits i).toNat

def tmsEdge (buffer : Vector Byte xfertMaxSize) (i j : Nat) : Edge :=
  ⟨(buffer.getD i 0).getLsbD j, false⟩

/-- What `do_tms_seq` has to do from a bit on. -/
def tmsWork (length nbBits : Int) (buffer : Vector Byte xfertMaxSize) (i j : Nat) : Work :=
  ⟨bits (tmsCount length nbBits) (tmsEdge buffer) length.toNat i j, length.toNat - i⟩

/-- `do_tms_seq` between two calls. -/
structure TmsShifting (tckPeriod t : Nat) (length nbBits : Int)
    (buffer : Vector Byte xfertMaxSize) (s : Server) : Prop where
  ready : Ready tckPeriod s.clk s.pins.tck t (tmsWork length nbBits buffer s.seq.i s.seq.j).sessions
  shifting : Shifting buffer (tmsCount length nbBits)
    (tmsWork length nbBits buffer s.seq.i s.seq.j).sessions s.clk s.seq.i s.seq.j s.seq.start
    s.seq.data
  tdi : s.pins.tdi = false

/-- Only the last byte can be empty. -/
theorem tmsWork_empty {i : Nat} (empty : tmsCount length nbBits i ≤ 0) :
    (tmsWork length nbBits buffer i 0).sessions = [] := by
  have last : length.toNat ≤ i + 1 := by
    unfold tmsCount Server.tmsBitsInByte at empty
    split at empty
    · omega
    · simp at empty
  exact bits_none empty last

/-- **A call of `do_tms_seq` with bytes to pass.** -/
theorem doTmsSeq_call (state : TmsShifting tckPeriod t length nbBits buffer s)
    (inside : s.seq.i < length.toNat) :
    ∃ seq clk tms tck,
      s.doTmsSeq tckPeriod t length nbBits buffer =
        (.inProgress, { s with seq := seq, clk := clk, pins := ⟨tms, false, tck⟩ }) ∧
      Advanced tckPeriod t (tmsWork length nbBits buffer s.seq.i s.seq.j)
        (tmsWork length nbBits buffer seq.i seq.j) s
        { s with seq := seq, clk := clk, pins := ⟨tms, false, tck⟩ } ∧
      TmsShifting tckPeriod (t + 1) length nbBits buffer
        { s with seq := seq, clk := clk, pins := ⟨tms, false, tck⟩ } := by
  obtain ⟨ready, shifting, tdi⟩ := state
  have inside' : (s.seq.i : Int) < length := by omega
  have loaded : (if s.seq.start then { s.seq with data := buffer.getD s.seq.i 0, start := false }
      else s.seq) = ⟨s.seq.i, s.seq.j, buffer.getD s.seq.i 0 >>> s.seq.j, false⟩ := by
    cases start : s.seq.start with
    | true => simp [shifting.first start]
    | false =>
        rw [if_neg (by simp), ← shifting.loaded start, ← start]
  unfold Server.doTmsSeq
  rw [if_pos inside', loaded]
  dsimp only
  by_cases inByte : s.seq.j < tmsCount length nbBits s.seq.i
  · have inByte' : (s.seq.j : Int) < Server.tmsBitsInByte length nbBits s.seq.i := by
      unfold tmsCount at inByte
      omega
    rw [if_pos inByte', decide_and_one, tdi]
    have head : tmsWork length nbBits buffer s.seq.i s.seq.j =
        ⟨(1, tmsEdge buffer s.seq.i s.seq.j) ::
          (tmsWork length nbBits buffer s.seq.i (s.seq.j + 1)).sessions,
          length.toNat - s.seq.i⟩ :=
      work_bit inside inByte
    rw [head] at ready
    rcases session_call (length.toNat - s.seq.i) ready 0 0 false with
      ⟨tick, call, status, goesOn⟩ | ⟨clk, call, ends⟩
    · rw [call, status]
      have advanced := goesOn
        { s with
          seq := ⟨s.seq.i, s.seq.j, buffer.getD s.seq.i 0 >>> s.seq.j, false⟩
          clk := tick.clk
          pins := ⟨(buffer.getD s.seq.i 0).getLsbD s.seq.j, false, tick.tck⟩ } rfl rfl
      rw [← head] at advanced
      exact ⟨_, _, _, _, rfl, advanced, advanced.ready, Shifting.within inByte _ _, rfl⟩
    · rw [call]
      have advanced := ends
        { s with
          seq := ⟨s.seq.i, s.seq.j + 1, buffer.getD s.seq.i 0 >>> s.seq.j >>> 1, false⟩
          clk := genClkRestart clk
          pins := ⟨(buffer.getD s.seq.i 0).getLsbD s.seq.j, false, s.pins.tck⟩ } rfl rfl
      rw [← head] at advanced
      exact ⟨_, _, _, _, rfl, advanced, advanced.ready, Shifting.behindBit _ _ _ _ _, rfl⟩
  · have behind : ¬ (s.seq.j : Int) < Server.tmsBitsInByte length nbBits s.seq.i := by
      unfold tmsCount at inByte
      omega
    rw [if_neg behind]
    have next : tmsWork length nbBits buffer s.seq.i s.seq.j =
        ⟨(tmsWork length nbBits buffer (s.seq.i + 1) 0).sessions,
          length.toNat - (s.seq.i + 1) + 1⟩ :=
      work_byte inside (Nat.not_lt.mp inByte)
    have between := shifting.between (Nat.not_lt.mp inByte)
    let s' : Server :=
      { s with
        seq := ⟨s.seq.i + 1, 0, buffer.getD s.seq.i 0 >>> s.seq.j, true⟩
        pins := ⟨s.pins.tms, false, s.pins.tck⟩ }
    have pins : (⟨s.pins.tms, false, s.pins.tck⟩ : Pins) = s.pins := by rw [← tdi]
    have advanced : Advanced tckPeriod t (tmsWork length nbBits buffer s.seq.i s.seq.j)
        (tmsWork length nbBits buffer s'.seq.i s'.seq.j) s s' := by
      rw [next] at ready between ⊢
      exact byte_call _ ready between s' rfl pins
    refine ⟨s'.seq, s.clk, s.pins.tms, s.pins.tck, ?_, advanced, advanced.ready,
      Shifting.behindByte tmsWork_empty _ _, rfl⟩
    rw [pins]

/-- Behind the last byte `do_tms_seq` is done. -/
theorem doTmsSeq_end (outside : length.toNat ≤ s.seq.i) :
    s.doTmsSeq tckPeriod t length nbBits buffer =
      (.done, { s with
        pins := { s.pins with tms := false }
        seq := { s.seq with i := 0, j := 0, start := true } }) :=
  if_neg (by omega)

end TmsSeq

/-! ## `do_scan_chain` -/

section ScanChain

variable {length nbBits : Int} {buffer : Vector Byte xfertMaxSize} {flipTms : Bool}

def scanCount (length nbBits : Int) (i : Nat) : Nat := (Server.scanBitsInByte length nbBits i).toNat

def scanEdge (length nbBits : Int) (buffer : Vector Byte xfertMaxSize) (flipTms : Bool)
    (i j : Nat) : Edge :=
  ⟨decide ((j : Int) = Server.scanBitsInByte length nbBits i - 1 ∧ (i : Int) = length - 1) &&
    flipTms, (buffer.getD i 0).getLsbD j⟩

/-- What `do_scan_chain` has to do from a bit on. -/
def scanWork (length nbBits : Int) (buffer : Vector Byte xfertMaxSize) (flipTms : Bool)
    (i j : Nat) : Work :=
  ⟨bits (scanCount length nbBits) (scanEdge length nbBits buffer flipTms) length.toNat i j,
    length.toNat - i⟩

/-- `do_scan_chain` between two calls. -/
structure ScanShifting (tckPeriod t : Nat) (length nbBits : Int)
    (buffer : Vector Byte xfertMaxSize) (flipTms : Bool) (s : Server) : Prop where
  ready : Ready tckPeriod s.clk s.pins.tck t
    (scanWork length nbBits buffer flipTms s.chain.i s.chain.j).sessions
  shifting : Shifting buffer (scanCount length nbBits)
    (scanWork length nbBits buffer flipTms s.chain.i s.chain.j).sessions s.clk s.chain.i s.chain.j
    s.chain.start s.chain.data

/-- Only the last byte can be empty. -/
theorem scanWork_empty {i : Nat} (empty : scanCount length nbBits i ≤ 0) :
    (scanWork length nbBits buffer flipTms i 0).sessions = [] := by
  have last : length.toNat ≤ i + 1 := by
    unfold scanCount Server.scanBitsInByte at empty
    split at empty
    · omega
    · simp at empty
  exact bits_none empty last

/-- The result with the byte at hand, which is cleared before its first bit. -/
def scanResult (s : Server) : Vector Byte xfertMaxSize :=
  if s.chain.start then s.packet.bufferIn.setIfInBounds s.chain.i 0 else s.packet.bufferIn

/-- A call of `do_scan_chain` in a byte, in terms of what is shifted. -/
theorem doScanChain_eq (inside : (s.chain.i : Int) < length)
    (first : s.chain.start = true → s.chain.j = 0)
    (loaded : s.chain.start = false → s.chain.data = buffer.getD s.chain.i 0 >>> s.chain.j)
    (tdo : Byte) :
    s.doScanChain tckPeriod t length nbBits buffer tdo flipTms =
      let bits := Server.scanBitsInByte length nbBits s.chain.i
      let data := buffer.getD s.chain.i 0 >>> s.chain.j
      if (s.chain.j : Int) < bits then
        let last := decide ((s.chain.j : Int) = bits - 1 ∧ (s.chain.i : Int) = length - 1)
        let tick := genClk tckPeriod t 1 s.pins.tck tdo s.chain.capturedTdo true s.clk
        let pins : Pins :=
          ⟨if last && flipTms then true else s.pins.tms,
            (buffer.getD s.chain.i 0).getLsbD s.chain.j, tick.tck⟩
        match tick.status with
        | .done =>
            let byte := (scanResult s).getD s.chain.i 0
            let bit : Byte := 1 <<< s.chain.j
            (.inProgress, { s with
              chain := ⟨s.chain.i, s.chain.j + 1, false, data >>> 1, tick.capturedTdo⟩
              packet := { s.packet with
                bufferIn := (scanResult s).setIfInBounds s.chain.i
                  (if tick.capturedTdo ≠ 0 then byte ||| bit else byte &&& ~~~bit) }
              clk := genClkRestart tick.clk
              pins := pins })
        | .inProgress =>
            (.inProgress, { s with
              chain := ⟨s.chain.i, s.chain.j, false, data, tick.capturedTdo⟩
              packet := { s.packet with bufferIn := scanResult s }
              clk := tick.clk
              pins := pins })
      else
        (.inProgress, { s with
          chain := ⟨s.chain.i + 1, 0, true, data, s.chain.capturedTdo⟩
          packet := { s.packet with bufferIn := scanResult s } }) := by
  have byte : (if s.chain.start then
        ({ s.chain with data := buffer.getD s.chain.i 0, start := false },
          s.packet.bufferIn.setIfInBounds s.chain.i 0)
      else (s.chain, s.packet.bufferIn)) =
        (⟨s.chain.i, s.chain.j, false, buffer.getD s.chain.i 0 >>> s.chain.j,
          s.chain.capturedTdo⟩, scanResult s) := by
    unfold scanResult
    cases start : s.chain.start with
    | true => simp [first start]
    | false => rw [if_neg (by simp), if_neg (by simp), ← loaded start, ← start]
  rw [← decide_and_one]
  unfold Server.doScanChain
  rw [if_pos inside]
  exact byte ▸ rfl

/-- **A call of `do_scan_chain` with bytes to pass.** -/
theorem doScanChain_call (state : ScanShifting tckPeriod t length nbBits buffer flipTms s)
    (low : s.pins.tms = false) (inside : s.chain.i < length.toNat) (tdo : Byte) :
    ∃ chain clk pins bufferIn,
      s.doScanChain tckPeriod t length nbBits buffer tdo flipTms =
        (.inProgress, { s with
          chain := chain
          clk := clk
          pins := pins
          packet := { s.packet with bufferIn := bufferIn } }) ∧
      Advanced tckPeriod t (scanWork length nbBits buffer flipTms s.chain.i s.chain.j)
        (scanWork length nbBits buffer flipTms chain.i chain.j) s
        { s with
          chain := chain
          clk := clk
          pins := pins
          packet := { s.packet with bufferIn := bufferIn } } ∧
      ScanShifting tckPeriod (t + 1) length nbBits buffer flipTms
        { s with
          chain := chain
          clk := clk
          pins := pins
          packet := { s.packet with bufferIn := bufferIn } } := by
  obtain ⟨ready, shifting⟩ := state
  have inside' : (s.chain.i : Int) < length := by omega
  rw [doScanChain_eq inside' shifting.first shifting.loaded]
  dsimp only
  by_cases inByte : s.chain.j < scanCount length nbBits s.chain.i
  · have inByte' : (s.chain.j : Int) < Server.scanBitsInByte length nbBits s.chain.i := by
      unfold scanCount at inByte
      omega
    rw [if_pos inByte', low]
    have head : scanWork length nbBits buffer flipTms s.chain.i s.chain.j =
        ⟨(1, scanEdge length nbBits buffer flipTms s.chain.i s.chain.j) ::
          (scanWork length nbBits buffer flipTms s.chain.i (s.chain.j + 1)).sessions,
          length.toNat - s.chain.i⟩ :=
      work_bit inside inByte
    have flips : ∀ last : Bool, (if (last && flipTms) = true then true else false) =
        (last && flipTms) := by
      intro last
      cases last && flipTms <;> rfl
    rw [flips]
    rw [head] at ready
    rcases session_call (length.toNat - s.chain.i) ready tdo s.chain.capturedTdo true with
      ⟨tick, call, status, goesOn⟩ | ⟨clk, call, ends⟩
    · rw [call, status]
      refine ⟨_, _, _, _, rfl, ?_⟩
      have advanced := goesOn
        { s with
          chain := ⟨s.chain.i, s.chain.j, false, buffer.getD s.chain.i 0 >>> s.chain.j,
            tick.capturedTdo⟩
          clk := tick.clk
          pins := ⟨_, _, tick.tck⟩
          packet := { s.packet with bufferIn := scanResult s } } rfl rfl
      rw [← head] at advanced
      exact ⟨advanced, advanced.ready, Shifting.within inByte _ _⟩
    · rw [call]
      refine ⟨_, _, _, _, rfl, ?_, Ready.restart clk _ _ _, Shifting.behindBit _ _ _ _ _⟩
      rw [head]
      exact ends _ rfl rfl
  · have behind : ¬ (s.chain.j : Int) < Server.scanBitsInByte length nbBits s.chain.i := by
      unfold scanCount at inByte
      omega
    rw [if_neg behind]
    have next : scanWork length nbBits buffer flipTms s.chain.i s.chain.j =
        ⟨(scanWork length nbBits buffer flipTms (s.chain.i + 1) 0).sessions,
          length.toNat - (s.chain.i + 1) + 1⟩ :=
      work_byte inside (Nat.not_lt.mp inByte)
    have between := shifting.between (Nat.not_lt.mp inByte)
    let s' : Server :=
      { s with
        chain := ⟨s.chain.i + 1, 0, true, buffer.getD s.chain.i 0 >>> s.chain.j,
          s.chain.capturedTdo⟩
        packet := { s.packet with bufferIn := scanResult s } }
    have advanced : Advanced tckPeriod t
        (scanWork length nbBits buffer flipTms s.chain.i s.chain.j)
        (scanWork length nbBits buffer flipTms s'.chain.i s'.chain.j) s s' := by
      rw [next] at ready between ⊢
      exact byte_call _ ready between s' rfl rfl
    exact ⟨s'.chain, s.clk, s.pins, scanResult s, rfl, advanced, advanced.ready,
      Shifting.behindByte scanWork_empty _ _⟩

/-- Behind the last byte `do_scan_chain` is done. -/
theorem doScanChain_end (outside : length.toNat ≤ s.chain.i) (tdo : Byte) :
    s.doScanChain tckPeriod t length nbBits buffer tdo flipTms =
      (.done, { s with
        pins := { s.pins with tdi := false, tms := false }
        chain := { s.chain with i := 0, j := 0, start := true } }) :=
  if_neg (by omega)

end ScanChain

end OrpsocCores.JtagServer
