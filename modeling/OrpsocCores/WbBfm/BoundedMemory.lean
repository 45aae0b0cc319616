import OrpsocCores.Foundation.Trace
import OrpsocCores.WbBfm.Bursts

/-!
# The memory as a bounded memory

Here the memory is alone on a bus that does what it likes.  A journal beside it follows the
accesses by the bus: where each of them starts, which address comes next, and which bytes the
beats below `mem_size_bytes` have written.  `Refines` says what the memory has to do in each
state of such a run, by the journal.

The range check lets one word too many pass: with `address[31:2]` equal to `mem_words` the
memory acknowledges a beat behind its end, whether an access starts there or a burst steps on
to it.  In the runs without such a beat the memory does what it has to (`refines_iff`).
-/

set_option autoImplicit false

namespace OrpsocCores.WbBfm

open Wishbone

variable {aw : Nat}

/-! ## The memory on a bus -/

/-- An edge of the clock, or new signals on the bus between two edges; `delay` is what
`$dist_uniform` returns if it is called then. -/
inductive Event (aw : Nat) where
  | edge (delay : Nat)
  | drive (bus : Bus aw) (delay : Nat)

/-- The memory and what is on its bus. -/
structure Slot (aw : Nat) where
  memory : BfmMemory aw
  bus : Bus aw

def Slot.step (memWords : Nat) (s : Slot aw) : Event aw → Slot aw
  | .edge delay => ⟨s.memory.edge memWords s.bus delay, s.bus⟩
  | .drive bus delay => ⟨s.memory.settle memWords s.bus bus delay, bus⟩

/-- No access is going on. -/
structure Quiet (m : BfmMemory aw) (phase : MemoryPhase) : Prop where
  phase : m.phase = phase
  ack : m.bfm0.wbAckO = false
  errO : m.bfm0.wbErrO = false
  err : m.bfm0.err = false

/-! ## The journal -/

/-- An access, and the address of its next beat. -/
structure Access (aw : Nat) where
  op : Bool
  address : BitVec aw
  mask : BitVec 4
  cycleType : CycleType
  burstType : BurstType

namespace Access

/-- The access that these signals start. -/
def ofBus (bus : Bus aw) : Access aw where
  op := bus.we
  address := bus.adr
  mask := bus.sel
  cycleType := if bus.cti = .classic then .classic else .burst
  burstType := if bus.cti = .incBurst then .ofBte bus.bte else .linear

/-- The beat behind this one. -/
def onward (a : Access aw) : Access aw :=
  { a with address := if a.cycleType = .burst then nextAddr a.address a.burstType else a.address }

end Access

/-- Where the bus is: no cycle, a cycle that no edge has seen yet, or an access. -/
inductive Turn (aw : Nat) where
  | resting
  | opening
  | serving (a : Access aw)

/-- `store` has the bytes that the beats in the memory have left. -/
structure Journal (aw : Nat) where
  turn : Turn aw
  store : ByteStore (BitVec 30)

namespace Journal

/-- A beat ends.  Outside the memory it changes nothing, and the access ends with it. -/
def ended (memSizeBytes : Nat) (j : Journal aw) (a : Access aw) (bus : Bus aw) : Journal aw where
  turn :=
    if a.address.toNat < memSizeBytes ∧ bus.cti.isLast = false then .serving a.onward
    else .resting
  store :=
    if a.address.toNat < memSizeBytes ∧ a.op = true then
      j.store.write (wordOf a.address) a.mask bus.dat
    else j.store

/-- A beat of a burst ends at an edge with an answer, that of a classic cycle when `stb` is
taken back. -/
def record (memSizeBytes : Nat) (s : Slot aw) (event : Event aw) (j : Journal aw) : Journal aw :=
  let answered := s.memory.bfm0.wbAckO || s.memory.bfm0.wbErrO
  match j.turn, event with
  | .resting, .drive bus _ => if !s.bus.cyc && bus.cyc then { j with turn := .opening } else j
  | .opening, .edge _ => if s.bus.cyc then { j with turn := .serving (.ofBus s.bus) } else j
  | .serving a, .edge _ =>
      if a.cycleType = .burst ∧ answered = true then j.ended memSizeBytes a s.bus else j
  | .serving a, .drive bus _ =>
      if a.cycleType = .classic ∧ answered = true ∧ s.bus.stb = true ∧ bus.stb = false then
        j.ended memSizeBytes a bus
      else j
  | _, _ => j

end Journal

/-! ## What the memory has to do -/

/-- The beat is acknowledged after so many edges, and before them nothing that happens on the
bus matters. -/
def AckedAfter (memWords : Nat) : Nat → BfmMemory aw → Prop
  | 0, m => m.bfm0.wbAckO = true
  | edges + 1, m =>
      (∀ before bus delay, m.settle memWords before bus delay = m) ∧
        ∀ bus delay, AckedAfter memWords edges (m.edge memWords bus delay)

/-- A beat in the memory. -/
structure Granted (memWords : Nat) (m : BfmMemory aw) (a : Access aw)
    (store : ByteStore (BitVec 30)) : Prop where
  errO : m.bfm0.wbErrO = false
  acked : ∃ edges, AckedAfter memWords edges m
  /-- The selected bytes of the word, and zero in the others. -/
  read : a.op = false → m.bfm0.wbAckO = true →
    ∀ b, lane m.bfm0.wbDatO b = if a.mask.getLsbD b then store (wordOf a.address) b else 0

/-- A beat outside the memory. -/
structure Refused (m : BfmMemory aw) : Prop where
  ack : m.bfm0.wbAckO = false
  errO : m.bfm0.wbErrO = true

/-- What the memory does in a state, by the journal. -/
structure Refines (memSizeBytes : Nat) (x : Slot aw × Journal aw) : Prop where
  memory : ByteStore.Represents x.1.memory.mem x.2.store
  resting : x.2.turn = .resting → Quiet x.1.memory .catching
  opening : x.2.turn = .opening → Quiet x.1.memory .caught
  granted : ∀ a, x.2.turn = .serving a → a.address.toNat < memSizeBytes →
    Granted (memSizeBytes / 4) x.1.memory a x.2.store
  refused : ∀ a, x.2.turn = .serving a → memSizeBytes ≤ a.address.toNat → Refused x.1.memory
  /-- Where `mem[address[31:2]]` is used, this is a word of `mem` and that of the beat. -/
  index : ∀ a, x.2.turn = .serving a → Inside (memSizeBytes / 4) x.1.memory.address →
    (wordOf x.1.memory.address).toNat = a.address.toNat / 4 ∧
      a.address.toNat / 4 < memSizeBytes / 4

/-- The check is right for an address. -/
def Clear (memSizeBytes : Nat) (address : BitVec aw) : Prop :=
  Inside (memSizeBytes / 4) address → address.toNat < memSizeBytes ∧ address.toNat < 2 ^ 32

/-! ## Addresses -/

theorem toNat_wordOf (address : BitVec aw) :
    (wordOf address).toNat = address.toNat / 4 % 2 ^ 30 := by
  rw [wordOf, BitVec.extractLsb'_toNat, Nat.shiftRight_eq_div_pow]

/-- With 32 bits of address, the check is wrong for one word. -/
theorem clear_iff {memSizeBytes : Nat} (words : memSizeBytes % 4 = 0) (address : BitVec 32) :
    Clear memSizeBytes address ↔ (wordOf address).toNat ≠ memSizeBytes / 4 := by
  have bound := address.isLt
  have word : (wordOf address).toNat = address.toNat / 4 := by
    rw [toNat_wordOf, Nat.mod_eq_of_lt (by omega)]
  rw [Clear, Inside, word]
  omega

variable {memWords : Nat} {m : BfmMemory aw} {a : Access aw}

/-! ## What the memory does -/

/-- The memory has the beat of an access before it. -/
structure Beats (m : BfmMemory aw) (a : Access aw) : Prop where
  address : m.address = a.address
  op : m.bfm0.op = a.op
  mask : m.bfm0.mask = a.mask
  cycleType : m.bfm0.cycleType = a.cycleType
  burstType : a.cycleType = .burst → m.bfm0.burstType = a.burstType

/-- How the memory deals with the beat, by its own check. -/
inductive Answer (memWords : Nat) (m : BfmMemory aw) : Prop where
  | err (outside : ¬ Inside memWords m.address) (phase : m.phase = .answering)
      (err : m.bfm0.err = true) (ack : m.bfm0.wbAckO = false) (errO : m.bfm0.wbErrO = true)
  | ack (inside : Inside memWords m.address) (phase : m.phase = .answering)
      (err : m.bfm0.err = false) (ack : m.bfm0.wbAckO = true) (errO : m.bfm0.wbErrO = false)
      (datO : m.bfm0.op = false →
        m.bfm0.wbDatO = merge m.bfm0.mask (m.mem (wordOf m.address)) 0)
  | delay (edges : Nat) (inside : Inside memWords m.address) (phase : m.phase = .delaying edges)
      (err : m.bfm0.err = false) (ack : m.bfm0.wbAckO = false) (errO : m.bfm0.wbErrO = false)
      (op : m.bfm0.op = false)
      (data : m.data = merge m.bfm0.mask (m.mem (wordOf m.address)) 0)

/-- The memory in the turn of the bus. -/
def Takes (memWords : Nat) (m : BfmMemory aw) : Turn aw → Prop
  | .resting => Quiet m .catching
  | .opening => Quiet m .caught
  | .serving a => Beats m a ∧ Answer memWords m

/-- The memory follows the journal. -/
structure Follows (memWords : Nat) (x : Slot aw × Journal aw) : Prop where
  memory : ByteStore.Represents x.1.memory.mem x.2.store
  takes : Takes memWords x.1.memory x.2.turn

theorem Follows.serving {x : Slot aw × Journal aw} (follows : Follows memWords x)
    (turn : x.2.turn = .serving a) : Beats x.1.memory a ∧ Answer memWords x.1.memory := by
  have takes := follows.takes
  rwa [turn] at takes

/-- The head of the loop with a beat to answer. -/
theorem answer_loop (hasNext : m.bfm0.hasNext = true) (ack : m.bfm0.wbAckO = false)
    (errO : m.bfm0.wbErrO = false) (err : m.bfm0.err = false) (delay : Nat) :
    Answer memWords (m.loop memWords delay) := by
  rw [BfmMemory.loop, if_pos hasNext]
  split
  case isTrue inside =>
    split
    case isTrue op =>
      refine .ack inside rfl err ?_ err fun reads => ?_
      · show (!m.bfm0.err) = true
        rw [err]
        rfl
      · exact absurd (op.symm.trans reads) (by decide)
    case isFalse op =>
      have reads : m.bfm0.op = false := Bool.eq_false_of_not_eq_true op
      cases delay with
      | zero =>
          refine .ack inside rfl err ?_ err fun _ => ?_
          · show (!m.bfm0.err) = true
            rw [err]
            rfl
          · show (if !m.bfm0.err && !m.bfm0.op then _ else 0) = _
            rw [err, reads]
            rfl
      | succ edges => exact .delay edges inside rfl err ack errO reads rfl
  case isFalse outside => exact .err outside rfl rfl rfl rfl

/-- What the loop does not touch. -/
theorem loop_keeps (memWords : Nat) (m : BfmMemory aw) (delay : Nat) :
    (m.loop memWords delay).mem = m.mem ∧ (m.loop memWords delay).address = m.address ∧
      (m.loop memWords delay).bfm0.op = m.bfm0.op ∧
      (m.loop memWords delay).bfm0.mask = m.bfm0.mask ∧
      (m.loop memWords delay).bfm0.cycleType = m.bfm0.cycleType ∧
      (m.loop memWords delay).bfm0.burstType = m.bfm0.burstType := by
  rw [BfmMemory.loop]
  split
  case isTrue =>
    split
    case isTrue =>
      split
      case isTrue => exact ⟨rfl, rfl, rfl, rfl, rfl, rfl⟩
      case isFalse =>
        cases delay with
        | zero => exact ⟨rfl, rfl, rfl, rfl, rfl, rfl⟩
        | succ edges => exact ⟨rfl, rfl, rfl, rfl, rfl, rfl⟩
    case isFalse => exact ⟨rfl, rfl, rfl, rfl, rfl, rfl⟩
  case isFalse => exact ⟨rfl, rfl, rfl, rfl, rfl, rfl⟩

theorem mem_loop (m : BfmMemory aw) (delay : Nat) : (m.loop memWords delay).mem = m.mem :=
  (loop_keeps memWords m delay).1

theorem Beats.loop (beats : Beats m a) (delay : Nat) : Beats (m.loop memWords delay) a := by
  obtain ⟨-, address, op, mask, cycleType, burstType⟩ := loop_keeps memWords m delay
  exact ⟨address.trans beats.address, op.trans beats.op, mask.trans beats.mask,
    cycleType.trans beats.cycleType, fun burst => burstType.trans (beats.burstType burst)⟩

/-- With no beat to answer the memory waits for the next cycle. -/
theorem quiet_loop (hasNext : m.bfm0.hasNext = false) (err : m.bfm0.err = false) (delay : Nat) :
    Quiet (m.loop memWords delay) .catching := by
  rw [BfmMemory.loop, if_neg (by rw [hasNext]; exact Bool.false_ne_true)]
  exact ⟨rfl, rfl, rfl, err⟩

/-! ## The end of a beat -/

variable {memSizeBytes : Nat} {j : Journal aw}

/-- What is in the memory passes the check. -/
theorem inside_of_lt {address : BitVec aw} (below : address.toNat < memSizeBytes) :
    Inside (memSizeBytes / 4) address := by
  rw [Inside, toNat_wordOf]
  omega

theorem Answer.err_iff (answer : Answer memWords m) (answering : m.phase = .answering) :
    m.bfm0.err = true ↔ ¬ Inside memWords m.address := by
  cases answer with
  | err outside _ err => exact iff_of_true err outside
  | ack inside _ err => exact iff_of_false (Bool.eq_false_iff.1 err) (not_not_intro inside)
  | delay edges _ phase => exact absurd (answering.symm.trans phase) MemoryPhase.noConfusion

/-- Where the check is right, the error is, too. -/
theorem err_iff (beats : Beats m a) (answer : Answer (memSizeBytes / 4) m)
    (answering : m.phase = .answering) (clear : Clear memSizeBytes a.address) :
    m.bfm0.err = true ↔ ¬ a.address.toNat < memSizeBytes := by
  rw [answer.err_iff answering, beats.address]
  exact not_congr ⟨fun inside => (clear inside).1, inside_of_lt⟩

/-- The access goes on. -/
theorem Beats.beatDone (beats : Beats m a) (bus : Bus aw) :
    Beats (m.beatDone memWords bus) a.onward where
  address := by
    show (if m.bfm0.cycleType = .burst then nextAddr m.address m.bfm0.burstType else m.address) =
      if a.cycleType = .burst then nextAddr a.address a.burstType else a.address
    rw [beats.cycleType, beats.address]
    split
    case isTrue burst => rw [beats.burstType burst]
    case isFalse => rfl
  op := beats.op
  mask := beats.mask
  cycleType := beats.cycleType
  burstType := beats.burstType

/-- The memory after a beat has the bytes that the journal has. -/
theorem represents_beatDone (words : memSizeBytes % 4 = 0)
    (represents : ByteStore.Represents m.mem j.store) (beats : Beats m a)
    (answer : Answer (memSizeBytes / 4) m) (answering : m.phase = .answering)
    (clear : Clear memSizeBytes a.address) (bus : Bus aw) :
    ByteStore.Represents (m.beatDone (memSizeBytes / 4) bus).mem
      (j.ended memSizeBytes a bus).store := by
  show ByteStore.Represents
    (if (m.bfm0.op && !m.bfm0.err) = true then m.written (memSizeBytes / 4) bus.dat else m.mem)
    (if a.address.toNat < memSizeBytes ∧ a.op = true then
      j.store.write (wordOf a.address) a.mask bus.dat else j.store)
  have writes : (m.bfm0.op && !m.bfm0.err) = true ↔
      a.address.toNat < memSizeBytes ∧ a.op = true := by
    rw [Bool.and_eq_true, Bool.not_eq_true', ← Bool.not_eq_true,
      err_iff beats answer answering clear, not_not, beats.op, and_comm]
  by_cases written : a.address.toNat < memSizeBytes ∧ a.op = true
  case neg =>
    rw [if_neg written, if_neg (mt writes.1 written)]
    exact represents
  case pos =>
    rw [if_pos written, if_pos (writes.2 written)]
    have word : (wordOf m.address).toNat < memSizeBytes / 4 := by
      have below := written.1
      rw [beats.address, toNat_wordOf]
      omega
    rw [BfmMemory.written, if_pos word, beats.mask, ← beats.address]
    exact represents.update _ _ _

/-- **A beat ends as the journal has it.** -/
theorem Follows.ended {s : Slot aw} (words : memSizeBytes % 4 = 0)
    (follows : Follows (memSizeBytes / 4) (s, j)) (turn : j.turn = .serving a)
    (answering : s.memory.phase = .answering) (clear : Clear memSizeBytes a.address)
    (bus bus' : Bus aw) (delay : Nat) :
    Follows (memSizeBytes / 4)
      (⟨(s.memory.beatDone (memSizeBytes / 4) bus).loop (memSizeBytes / 4) delay, bus'⟩,
        j.ended memSizeBytes a bus) := by
  obtain ⟨beats, answer⟩ := follows.serving turn
  have error := err_iff beats answer answering clear
  have hasNext : (s.memory.beatDone (memSizeBytes / 4) bus).bfm0.hasNext =
      (!isLast bus.cti && !s.memory.bfm0.err) := rfl
  constructor
  · show ByteStore.Represents
      ((s.memory.beatDone (memSizeBytes / 4) bus).loop (memSizeBytes / 4) delay).mem _
    rw [mem_loop]
    exact represents_beatDone words follows.memory beats answer answering clear bus
  · show Takes (memSizeBytes / 4) _
      (if a.address.toNat < memSizeBytes ∧ bus.cti.isLast = false then .serving a.onward
        else .resting)
    split
    case isTrue more =>
      have noError : s.memory.bfm0.err = false :=
        Bool.eq_false_of_not_eq_true fun err => error.1 err more.1
      rw [isLast_eq_isLast, more.2, noError] at hasNext
      exact ⟨(beats.beatDone bus).loop delay, answer_loop hasNext rfl rfl rfl delay⟩
    case isFalse done =>
      refine quiet_loop ?_ rfl delay
      rw [hasNext, isLast_eq_isLast]
      by_cases below : a.address.toNat < memSizeBytes
      · have last : bus.cti.isLast = true := by
          rw [← Bool.not_eq_false]
          exact fun more => done ⟨below, more⟩
        rw [last]
        rfl
      · rw [error.2 below]
        exact Bool.and_false _

/-! ## A step -/

/-- An access starts. -/
theorem takes_decode (quiet : Quiet m .caught) (bus : Bus aw) (delay : Nat) :
    Takes memWords
      ({ m with bfm0 := m.bfm0.decode bus, address := (m.bfm0.decode bus).address }.loop
        memWords delay)
      (.serving (.ofBus bus)) := by
  let opened : BfmMemory aw :=
    { m with bfm0 := m.bfm0.decode bus, address := (m.bfm0.decode bus).address }
  have beats : Beats opened (.ofBus bus) := ⟨rfl, rfl, rfl, rfl, fun burst => if_pos burst⟩
  have answer : Answer memWords (opened.loop memWords delay) :=
    answer_loop (m := opened) rfl quiet.ack quiet.errO quiet.err delay
  exact ⟨beats.loop delay, answer⟩

/-- While it waits, an edge brings the memory nearer to its answer. -/
theorem takes_edge_delaying (beats : Beats m a) (answer : Answer memWords m) {edges : Nat}
    (delaying : m.phase = .delaying edges) (bus : Bus aw) (delay : Nat) :
    (m.edge memWords bus delay).mem = m.mem ∧
      Takes memWords (m.edge memWords bus delay) (.serving a) := by
  cases answer with
  | err _ phase => exact absurd (delaying.symm.trans phase) MemoryPhase.noConfusion
  | ack _ phase => exact absurd (delaying.symm.trans phase) MemoryPhase.noConfusion
  | delay _ inside _ err ack errO op data =>
      obtain ⟨address, sameOp, mask, cycleType, burstType⟩ := beats
      rw [BfmMemory.edge, delaying]
      cases edges with
      | zero =>
          refine ⟨rfl, ⟨address, sameOp, mask, cycleType, burstType⟩,
            .ack inside rfl err ?_ err fun _ => ?_⟩
          · show (!m.bfm0.err) = true
            rw [err]
            rfl
          · show (if !m.bfm0.err && !m.bfm0.op then m.data else 0) = _
            rw [err, op]
            exact data
      | succ edges =>
          exact ⟨rfl, ⟨address, sameOp, mask, cycleType, burstType⟩,
            .delay edges inside rfl err ack errO op data⟩

/-- The bus has an answer when the memory waits for the end of the beat. -/
theorem Answer.answered_iff (answer : Answer memWords m) :
    (m.bfm0.wbAckO || m.bfm0.wbErrO) = true ↔ m.phase = .answering := by
  cases answer with
  | err _ phase _ ack errO => simp [phase, ack, errO]
  | ack _ phase _ ack errO => simp [phase, ack]
  | delay edges _ phase _ ack errO => simp [phase, ack, errO]

theorem Answer.delaying (answer : Answer memWords m) (waiting : m.phase ≠ .answering) :
    ∃ edges, m.phase = .delaying edges := by
  cases answer with
  | err _ phase => exact absurd phase waiting
  | ack _ phase => exact absurd phase waiting
  | delay edges _ phase => exact ⟨edges, phase⟩

/-- While it waits, the memory does not look at the bus. -/
theorem Answer.settle_delaying (answer : Answer memWords m) (waiting : m.phase ≠ .answering)
    (before bus : Bus aw) (delay : Nat) : m.settle memWords before bus delay = m := by
  cases answer with
  | err _ phase => exact absurd phase waiting
  | ack _ phase => exact absurd phase waiting
  | delay edges _ phase => rw [BfmMemory.settle, phase]

/-- An edge keeps the memory behind the journal. -/
theorem Follows.edge {s : Slot aw} (words : memSizeBytes % 4 = 0)
    (follows : Follows (memSizeBytes / 4) (s, j))
    (clear : ∀ a, j.turn = .serving a → Clear memSizeBytes a.address) (delay : Nat) :
    Follows (memSizeBytes / 4)
      (⟨s.memory.edge (memSizeBytes / 4) s.bus delay, s.bus⟩,
        j.record memSizeBytes s (.edge delay)) := by
  have memory : ByteStore.Represents s.memory.mem j.store := follows.memory
  have takes : Takes (memSizeBytes / 4) s.memory j.turn := follows.takes
  cases turn : j.turn with
  | resting =>
      rw [turn] at takes
      have same : s.memory.edge (memSizeBytes / 4) s.bus delay = s.memory := by
        simp only [BfmMemory.edge, takes.phase]
      have kept : j.record memSizeBytes s (.edge delay) = j := by
        simp only [Journal.record, turn]
      rw [same, kept]
      exact follows
  | opening =>
      rw [turn] at takes
      by_cases cyc : s.bus.cyc = true
      · simp only [BfmMemory.edge, takes.phase, Journal.record, turn, cyc, if_true]
        refine ⟨?_, takes_decode takes s.bus delay⟩
        show ByteStore.Represents (BfmMemory.loop _ _ _).mem _
        rw [mem_loop]
        exact memory
      · simp only [BfmMemory.edge, takes.phase, Journal.record, turn, cyc]
        exact follows
  | serving a =>
      obtain ⟨beats, answer⟩ : Beats s.memory a ∧ Answer _ s.memory := follows.serving turn
      by_cases answering : s.memory.phase = .answering
      · have answered := answer.answered_iff.2 answering
        by_cases burst : a.cycleType = .burst
        · simp only [BfmMemory.edge, answering, Journal.record, turn, beats.cycleType, burst,
            answered, and_self, if_true]
          exact follows.ended words turn answering (clear a turn) s.bus s.bus delay
        · simp only [BfmMemory.edge, answering, Journal.record, turn, beats.cycleType, burst,
            false_and, if_false]
          exact follows
      · have kept : j.record memSizeBytes s (.edge delay) = j := by
          simp only [Journal.record, turn]
          exact if_neg fun both => answering (answer.answered_iff.1 both.2)
        obtain ⟨edges, delaying⟩ := answer.delaying answering
        obtain ⟨mem, waits⟩ := takes_edge_delaying beats answer delaying s.bus delay
        rw [kept]
        constructor
        · show ByteStore.Represents (s.memory.edge (memSizeBytes / 4) s.bus delay).mem j.store
          rw [mem]
          exact memory
        · show Takes _ _ j.turn
          rw [turn]
          exact waits

/-- And so do new signals on the bus. -/
theorem Follows.drive {s : Slot aw} (words : memSizeBytes % 4 = 0)
    (follows : Follows (memSizeBytes / 4) (s, j))
    (clear : ∀ a, j.turn = .serving a → Clear memSizeBytes a.address) (bus : Bus aw)
    (delay : Nat) :
    Follows (memSizeBytes / 4)
      (⟨s.memory.settle (memSizeBytes / 4) s.bus bus delay, bus⟩,
        j.record memSizeBytes s (.drive bus delay)) := by
  have takes : Takes (memSizeBytes / 4) s.memory j.turn := follows.takes
  have still : Follows (memSizeBytes / 4) (⟨s.memory, bus⟩, j) := ⟨follows.memory, takes⟩
  cases turn : j.turn with
  | resting =>
      have quiet : Quiet s.memory .catching := by rwa [turn] at takes
      by_cases rises : (!s.bus.cyc && bus.cyc) = true
      · simp only [BfmMemory.settle, quiet.phase, Journal.record, turn, rises, if_true]
        exact ⟨follows.memory, rfl, quiet.ack, quiet.errO, quiet.err⟩
      · simp only [BfmMemory.settle, quiet.phase, Journal.record, turn, rises]
        exact still
  | opening =>
      have quiet : Quiet s.memory .caught := by rwa [turn] at takes
      simp only [BfmMemory.settle, quiet.phase, Journal.record, turn]
      exact still
  | serving a =>
      obtain ⟨beats, answer⟩ : Beats s.memory a ∧ Answer _ s.memory := follows.serving turn
      by_cases answering : s.memory.phase = .answering
      · have answered := answer.answered_iff.2 answering
        by_cases falls : a.cycleType = .classic ∧ s.bus.stb = true ∧ bus.stb = false
        · simp only [BfmMemory.settle, answering, Journal.record, turn, beats.cycleType, falls,
            answered, and_self, if_true]
          exact follows.ended words turn answering (clear a turn) bus bus delay
        · simp only [BfmMemory.settle, answering, Journal.record, turn, beats.cycleType, falls,
            answered, true_and, if_false]
          exact still
      · have kept : j.record memSizeBytes s (.drive bus delay) = j := by
          simp only [Journal.record, turn]
          exact if_neg fun both => answering (answer.answered_iff.1 both.2.1)
        rw [answer.settle_delaying answering, kept]
        exact still

/-! ## What it has to do -/

theorem ackedAfter_delaying {edges : Nat} (delaying : m.phase = .delaying edges)
    (err : m.bfm0.err = false) : AckedAfter memWords (edges + 1) m := by
  induction edges generalizing m with
  | zero =>
      refine ⟨fun before bus delay => ?_, fun bus delay => ?_⟩
      · simp only [BfmMemory.settle, delaying]
      · show (m.edge memWords bus delay).bfm0.wbAckO = true
        simp only [BfmMemory.edge, delaying]
        show (!m.bfm0.err) = true
        rw [err]
        rfl
  | succ edges ih =>
      refine ⟨fun before bus delay => ?_, fun bus delay => ?_⟩
      · simp only [BfmMemory.settle, delaying]
      · simp only [BfmMemory.edge, delaying]
        exact ih rfl err

/-- The selected bytes of a word that is read. -/
theorem lane_read {mask : BitVec 4} {mem : BitVec 30 → BitVec 32} {store : ByteStore (BitVec 30)}
    (represents : ByteStore.Represents mem store) (word : BitVec 30) (b : Fin 4) :
    lane (merge mask (mem word) 0) b = if mask.getLsbD b then store word b else 0 := by
  have zero : lane 0 b = 0 := by
    revert b
    decide
  rw [lane_merge, mergeLane, represents, zero]

/-- A beat that passes the check. -/
theorem Answer.granted (answer : Answer memWords m) (inside : Inside memWords m.address)
    (beats : Beats m a) {store : ByteStore (BitVec 30)}
    (represents : ByteStore.Represents m.mem store) : Granted memWords m a store := by
  cases answer with
  | err outside => exact absurd inside outside
  | ack _ _ _ ack errO datO =>
      refine ⟨errO, ⟨0, ack⟩, fun reads _ b => ?_⟩
      rw [datO (beats.op.trans reads), lane_read represents, beats.mask, beats.address]
  | delay edges _ phase err ack errO =>
      refine ⟨errO, ⟨edges + 1, ackedAfter_delaying phase err⟩, fun _ acked => ?_⟩
      exact absurd (ack.symm.trans acked) (by decide)

theorem Answer.refused (answer : Answer memWords m) (outside : ¬ Inside memWords m.address) :
    Refused m := by
  cases answer with
  | err _ _ _ ack errO => exact ⟨ack, errO⟩
  | ack inside => exact absurd inside outside
  | delay _ inside => exact absurd inside outside

/-- **A memory that follows the journal does what it has to, where its check is right.** -/
theorem Follows.refines {x : Slot aw × Journal aw} (words : memSizeBytes % 4 = 0)
    (follows : Follows (memSizeBytes / 4) x)
    (clear : ∀ a, x.2.turn = .serving a → Clear memSizeBytes a.address) :
    Refines memSizeBytes x where
  memory := follows.memory
  resting := by
    intro turn
    have takes := follows.takes
    rwa [turn] at takes
  opening := by
    intro turn
    have takes := follows.takes
    rwa [turn] at takes
  granted := by
    intro a turn below
    obtain ⟨beats, answer⟩ := follows.serving turn
    refine answer.granted ?_ beats follows.memory
    rw [beats.address]
    exact inside_of_lt below
  refused := by
    intro a turn above
    obtain ⟨beats, answer⟩ := follows.serving turn
    refine answer.refused fun inside => ?_
    rw [beats.address] at inside
    exact absurd (clear a turn inside).1 (Nat.not_lt.2 above)
  index := by
    intro a turn inside
    obtain ⟨beats, -⟩ := follows.serving turn
    rw [beats.address] at inside ⊢
    obtain ⟨below, small⟩ := clear a turn inside
    rw [toNat_wordOf, Nat.mod_eq_of_lt (by omega)]
    exact ⟨rfl, by omega⟩

/-- Where it is wrong, a word is used that is not that of the beat in the memory. -/
theorem Follows.clear_of_refines {x : Slot aw × Journal aw} (words : memSizeBytes % 4 = 0)
    (follows : Follows (memSizeBytes / 4) x) (refines : Refines memSizeBytes x)
    (turn : x.2.turn = .serving a) : Clear memSizeBytes a.address := by
  intro inside
  obtain ⟨beats, -⟩ := follows.serving turn
  rw [← beats.address] at inside
  obtain ⟨word, below⟩ := refines.index a turn inside
  have bound := (wordOf x.1.memory.address).isLt
  omega

/-- The memory, resting on a bus, and the journal of its bytes. -/
def start (m : BfmMemory aw) (bus : Bus aw) : Slot aw × Journal aw :=
  (⟨m, bus⟩, ⟨.resting, .ofWords m.mem⟩)

/-- **The memory is a bounded memory in all runs that do not come upon an address for which
its check is wrong, and in no others.** -/
theorem refines_iff (words : memSizeBytes % 4 = 0) (quiet : Quiet m .catching) (bus : Bus aw)
    (events : List (Event aw)) :
    Trace.Always (Trace.monitored (Slot.step (memSizeBytes / 4)) (Journal.record memSizeBytes))
        (fun x _ => Refines memSizeBytes x) (start m bus) events ↔
      Trace.Always (Trace.monitored (Slot.step (memSizeBytes / 4)) (Journal.record memSizeBytes))
        (fun x _ => ∀ a, x.2.turn = .serving a → Clear memSizeBytes a.address)
        (start m bus) events := by
  refine Trace.Always.iff_of_invariant (Follows (memSizeBytes / 4)) ?_ ?_ ?_
    (Trace.always_true _ _ events)
  · rintro ⟨s, j⟩ event follows - clear
    cases event with
    | edge delay => exact follows.edge words clear delay
    | drive bus delay => exact follows.drive words clear bus delay
  · intro x event follows _
    exact ⟨fun refines a turn => follows.clear_of_refines words refines turn,
      follows.refines words⟩
  · exact ⟨ByteStore.represents_ofWords m.mem, quiet⟩

/-- A word is read. -/
def readCycle (address : BitVec 32) : Bus 32 :=
  { (Pins.idle : Bus 32) with adr := address, sel := 0xf, cyc := true, stb := true }

/-- A cycle far behind the memory. -/
theorem refines_beyond :
    Trace.Always (Trace.monitored (Slot.step (0x8000 / 4)) (Journal.record 0x8000))
      (fun x _ => Refines 0x8000 x) (start atRest.memory Pins.idle)
      [.drive (readCycle 0x9000) 0, .edge 0, .edge 0] := by
  refine (refines_iff (by decide : 0x8000 % 4 = 0) ⟨rfl, rfl, rfl, rfl⟩ Pins.idle _).2
    ⟨fun a turn => ?_, fun a turn => ?_, fun a turn => ?_, trivial⟩
  · have resting : Turn.resting = Turn.serving a := turn
    cases resting
  · have opening : Turn.opening = Turn.serving a := turn
    cases opening
  · have serving : Turn.serving (.ofBus (readCycle 0x9000)) = Turn.serving a := turn
    cases serving
    exact (clear_iff (by decide) _).2 (by decide)

/-- The memory acknowledges a read of the word behind it. -/
theorem behind_acknowledged :
    ¬ Trace.Always (Trace.monitored (Slot.step (0x8000 / 4)) (Journal.record 0x8000))
      (fun x _ => Refines 0x8000 x) (start atRest.memory Pins.idle)
      [.drive (readCycle 0x8000) 0, .edge 0, .edge 0] := by
  rintro ⟨-, -, refines, -⟩
  have refused := refines.refused (.ofBus (readCycle 0x8000)) rfl (by decide)
  exact absurd refused.ack (by decide)

end OrpsocCores.WbBfm
