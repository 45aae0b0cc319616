import OrpsocCores.DualClockFifo.Model
import Mathlib.Data.List.TakeDrop

/-!
# Safety of the dual-clock FIFO

The pointers have no wrap bit and the flags are computed from copies of the
foreign pointer that are two edges old.  The invariant (`Tracks`) therefore
speaks about counts: how many words have been written and read, and for every
copy of a pointer the count it stands for.  The copies are ordered by age, and
the comparisons of the flags are exact because the counts are never a full turn
apart.

* `Tracks.step` is what one instant does to the counts.
* `Tracks.log_step` adds the words: what is still in the memory is what was
  written and not yet read.
* `delivered_prefix_written` is the law of the FIFO over every run.

`emptyO` behaves as a third synchroniser stage: it is set exactly when everything
the stage stands for (`writtenShown`) has been read.
-/

set_option autoImplicit false

namespace OrpsocCores.DualClockFifo

open GrayCode

variable {aw dw : Nat}

/-! ## The conversion -/

/-- The concatenation of `gray_conv` is the Gray code. -/
theorem grayConv_eq_gray (positive : 1 ≤ aw) (x : BitVec aw) : grayConv x = gray x := by
  apply BitVec.eq_of_getLsbD_eq
  intro i inside
  rw [grayConv, gray_getLsbD, BitVec.getLsbD_setWidth, BitVec.getLsbD_append]
  by_cases low : i < aw - 1
  · simp [low, inside, Nat.add_comm 1 i]
  · have top : i = aw - 1 := by omega
    subst top
    simp [inside, BitVec.getLsbD_of_ge x (aw - 1 + 1) (by omega)]

theorem grayConv_ofNat (positive : 1 ≤ aw) (n : Nat) :
    grayConv (BitVec.ofNat aw n) = pointer aw n := grayConv_eq_gray positive _

/-- **`gray_conv` is injective, and the codes of a value and of its successor, which for the
largest value is zero, differ in exactly one bit.** -/
theorem grayConv_code (wide : 2 ≤ aw) :
    Function.Injective (grayConv : BitVec aw → BitVec aw) ∧
      ∀ x : BitVec aw,
        ∃! i, i < aw ∧ (grayConv x).getLsbD i ≠ (grayConv (x + 1)).getLsbD i := by
  have code (x : BitVec aw) : grayConv x = gray x := grayConv_eq_gray (by omega) x
  constructor
  · intro x y same
    rw [code, code] at same
    exact gray_injective same
  · intro x
    obtain ⟨p, inside, differs⟩ := gray_succ_differs x (by omega)
    rw [code, code]
    refine ⟨p, ⟨inside, (differs p).mpr rfl⟩, ?_⟩
    rintro i ⟨-, differ⟩
    exact (differs i).mp differ

theorem grayConv_code_largest :
    ∃! i, i < 4 ∧ (grayConv 15#4).getLsbD i ≠ (grayConv (15#4 + 1)).getLsbD i :=
  (grayConv_code (by decide)).2 15#4

/-! ## Counts -/

/-- The counts the registers stand for. -/
structure Counts where
  /-- Words written. -/
  written : Nat
  /-- Words read. -/
  read : Nat
  /-- The read count in the first and the second stage of the write domain. -/
  readSeen : Nat
  readSync : Nat
  /-- The write count in the first and the second stage of the read domain, and
  the one `empty_o` was last computed from. -/
  writtenSeen : Nat
  writtenSync : Nat
  writtenShown : Nat

/-- The registers stand for the counts, the copies are ordered by age, and there
is room for what the flags allow. -/
structure Tracks (s : State aw dw) (c : Counts) : Prop where
  wrAddr : s.wr.wrAddr = BitVec.ofNat aw c.written
  wrAddrGray : s.wr.wrAddrGray = pointer aw c.written
  rdAddrGrayWr : s.wr.rdAddrGrayWr = pointer aw c.readSeen
  rdAddrGrayWrR : s.wr.rdAddrGrayWrR = pointer aw c.readSync
  rdAddr : s.rd.rdAddr = BitVec.ofNat aw c.read
  rdAddrGray : s.rd.rdAddrGray = pointer aw c.read
  wrAddrGrayRd : s.rd.wrAddrGrayRd = pointer aw c.writtenSeen
  wrAddrGrayRdR : s.rd.wrAddrGrayRdR = pointer aw c.writtenSync
  readOrder : c.readSync ≤ c.readSeen ∧ c.readSeen ≤ c.read
  writtenOrder : c.read ≤ c.writtenShown ∧ c.writtenShown ≤ c.writtenSync ∧
    c.writtenSync ≤ c.writtenSeen ∧ c.writtenSeen ≤ c.written
  room : c.written + 1 ≤ c.readSync + 2 ^ aw
  fullO : s.wr.fullO = false → c.written + 2 ≤ c.readSync + 2 ^ aw
  emptyO : s.rd.emptyO = true ↔ c.read = c.writtenShown

/-- What an instant does to the counts. -/
structure Moves (e : Instant aw dw) (c c' : Counts) : Prop where
  written : c'.written = c.written + e.pushes.toNat
  read : c'.read = c.read + e.pops.toNat
  shown : c'.writtenShown = if e.rd.isSome then c.writtenSync else c.writtenShown
  sync : c'.writtenSync = if e.rd.isSome then c.writtenSeen else c.writtenSync
  seen : e.rdCatch = 0 → c'.writtenSeen = if e.rd.isSome then c.written else c.writtenSeen

/-- The reset counts. -/
def Counts.zero : Counts := ⟨0, 0, 0, 0, 0, 0, 0⟩

theorem pointer_zero : pointer aw 0 = 0 := by simp [pointer, gray]

theorem Settled.tracks {s : State aw dw} (positive : 1 ≤ aw) (settled : Settled s) :
    Tracks s Counts.zero := by
  have two : 2 ≤ 2 ^ aw := Nat.le_self_pow (by omega) 2
  refine ⟨settled.wrAddr, ?_, ?_, ?_, settled.rdAddr, ?_, ?_, ?_, ⟨le_rfl, le_rfl⟩,
    ⟨le_rfl, le_rfl, le_rfl, le_rfl⟩, ?_, fun _ => ?_, ?_⟩
  · exact settled.wrAddrGray.trans pointer_zero.symm
  · exact settled.rdAddrGrayWr.trans pointer_zero.symm
  · exact settled.rdAddrGrayWrR.trans pointer_zero.symm
  · exact settled.rdAddrGray.trans pointer_zero.symm
  · exact settled.wrAddrGrayRd.trans pointer_zero.symm
  · exact settled.wrAddrGrayRdR.trans pointer_zero.symm
  · simp only [Counts.zero]
    omega
  · simp only [Counts.zero]
    omega
  · simp [settled.emptyO, Counts.zero]

/-! ## The pointers -/

theorem ofNat_succ (n : Nat) : BitVec.ofNat aw n + 1 = BitVec.ofNat aw (n + 1) := by
  rw [BitVec.ofNat_add]
  rfl

theorem ofNat_add_two (n : Nat) : BitVec.ofNat aw n + 2 = BitVec.ofNat aw (n + 2) := by
  rw [BitVec.ofNat_add]
  rfl

variable {s : State aw dw} {e : Instant aw dw} {c : Counts}

/-- The write pointer's code after an instant stands for the new count. -/
theorem Tracks.wrGrayAfter (positive : 1 ≤ aw) (tracks : Tracks s c) (permitted : Permitted s e) :
    s.wrGrayAfter e = pointer aw (c.written + e.pushes.toNat) := by
  unfold State.wrGrayAfter
  cases edge : e.wr with
  | none => simp [tracks.wrAddrGray, Instant.pushes, edge]
  | some pins =>
      have running : pins.wrRstI = false := (permitted.1 pins (by simp [edge])).1
      cases enabled : pins.wrEnI with
      | false =>
          simp [WrSide.nextAddrGray, running, enabled, tracks.wrAddrGray, Instant.pushes, edge]
      | true =>
          simp only [WrSide.nextAddrGray, running, enabled, tracks.wrAddr, ofNat_succ,
            grayConv_ofNat positive]
          simp [Instant.pushes, edge, enabled]

/-- The read pointer's code after an instant stands for the new count. -/
theorem Tracks.rdGrayAfter (positive : 1 ≤ aw) (tracks : Tracks s c) (permitted : Permitted s e) :
    s.rdGrayAfter e = pointer aw (c.read + e.pops.toNat) := by
  unfold State.rdGrayAfter
  cases edge : e.rd with
  | none => simp [tracks.rdAddrGray, Instant.pops, edge]
  | some pins =>
      have running : pins.rdRstI = false := (permitted.2 pins (by simp [edge])).1
      cases enabled : pins.rdEnI with
      | false =>
          simp [RdSide.nextAddrGray, running, enabled, tracks.rdAddrGray, Instant.pops, edge]
      | true =>
          simp only [RdSide.nextAddrGray, running, enabled, tracks.rdAddr, ofNat_succ,
            grayConv_ofNat positive]
          simp [Instant.pops, edge, enabled]

theorem Tracks.wrAddr_step (tracks : Tracks s c) (permitted : Permitted s e) :
    (step s e).wr.wrAddr = BitVec.ofNat aw (c.written + e.pushes.toNat) := by
  cases edge : e.wr with
  | none => simp [step, edge, tracks.wrAddr, Instant.pushes]
  | some pins =>
      have running : pins.wrRstI = false := (permitted.1 pins (by simp [edge])).1
      cases enabled : pins.wrEnI with
      | false => simp [step, edge, WrSide.edge, running, enabled, tracks.wrAddr, Instant.pushes]
      | true =>
          simp only [step, edge, WrSide.edge, running, enabled, tracks.wrAddr, ofNat_succ]
          simp [Instant.pushes, edge, enabled]

theorem Tracks.rdAddr_step (tracks : Tracks s c) (permitted : Permitted s e) :
    (step s e).rd.rdAddr = BitVec.ofNat aw (c.read + e.pops.toNat) := by
  cases edge : e.rd with
  | none => simp [step, edge, tracks.rdAddr, Instant.pops]
  | some pins =>
      have running : pins.rdRstI = false := (permitted.2 pins (by simp [edge])).1
      cases enabled : pins.rdEnI with
      | false => simp [step, edge, RdSide.edge, running, enabled, tracks.rdAddr, Instant.pops]
      | true =>
          simp only [step, edge, RdSide.edge, running, enabled, tracks.rdAddr, ofNat_succ]
          simp [Instant.pops, edge, enabled]

/-! ## The flags -/

/-- A word is written only while there is room for it. -/
theorem Tracks.room_step (tracks : Tracks s c) (permitted : Permitted s e) :
    c.written + e.pushes.toNat + 1 ≤ c.readSync + 2 ^ aw := by
  cases edge : e.wr with
  | none => simpa [Instant.pushes, edge] using tracks.room
  | some pins =>
      cases enabled : pins.wrEnI with
      | false => simpa [Instant.pushes, edge, enabled] using tracks.room
      | true =>
          have room := tracks.fullO ((permitted.1 pins (by simp [edge])).2 enabled)
          simp only [Instant.pushes, edge, enabled, Option.map_some, Option.getD_some,
            Bool.toNat_true]
          omega

/-- A cleared `full_o` leaves room for one more word. -/
theorem Tracks.fullO_step (positive : 1 ≤ aw) (tracks : Tracks s c) (permitted : Permitted s e)
    (cleared : (step s e).wr.fullO = false) :
    c.written + e.pushes.toNat + 2 ≤ c.readSync + 2 ^ aw := by
  have order := tracks.readOrder
  have order' := tracks.writtenOrder
  cases edge : e.wr with
  | none =>
      simp only [step, edge] at cleared
      simpa [Instant.pushes, edge] using tracks.fullO cleared
  | some pins =>
      have running : pins.wrRstI = false := (permitted.1 pins (by simp [edge])).1
      cases enabled : pins.wrEnI with
      | false =>
          -- Either the flag was clear already, or the copy has moved on.
          have room := tracks.room
          simp only [step, edge, WrSide.edge, running, enabled, tracks.wrAddr, ofNat_succ,
            grayConv_ofNat positive, tracks.rdAddrGrayWrR, Bool.false_eq_true, if_false,
            Bool.and_eq_false_iff, beq_eq_false_iff_ne] at cleared
          simp only [Instant.pushes, edge, enabled, Option.map_some, Option.getD_some,
            Bool.toNat_false]
          rcases cleared with clear | moved
          · have := tracks.fullO clear
            omega
          · have apart : c.written + 1 ≠ c.readSync + 2 ^ aw :=
              fun turn => moved ((pointer_eq_iff_of_le (by omega) room).mpr turn)
            omega
      | true =>
          have room := tracks.fullO ((permitted.1 pins (by simp [edge])).2 enabled)
          simp only [step, edge, WrSide.edge, running, enabled, tracks.wrAddr, ofNat_add_two,
            grayConv_ofNat positive, tracks.rdAddrGrayWrR, Bool.false_eq_true, if_false, if_true,
            beq_eq_false_iff_ne] at cleared
          have apart : c.written + 2 ≠ c.readSync + 2 ^ aw :=
            fun turn => cleared ((pointer_eq_iff_of_le (by omega) room).mpr turn)
          simp only [Instant.pushes, edge, enabled, Option.map_some, Option.getD_some,
            Bool.toNat_true]
          omega

/-- A word is read only when the copy of the write pointer is ahead. -/
theorem Tracks.read_step (tracks : Tracks s c) (permitted : Permitted s e) :
    c.read + e.pops.toNat ≤ c.writtenShown := by
  have order := tracks.writtenOrder
  cases edge : e.rd with
  | none => simpa [Instant.pops, edge] using order.1
  | some pins =>
      cases enabled : pins.rdEnI with
      | false => simpa [Instant.pops, edge, enabled] using order.1
      | true =>
          have shown : s.rd.emptyO = false := (permitted.2 pins (by simp [edge])).2 enabled
          have ahead : c.read ≠ c.writtenShown := fun same => by
            rw [tracks.emptyO.mpr same] at shown
            cases shown
          simp only [Instant.pops, edge, enabled, Option.map_some, Option.getD_some,
            Bool.toNat_true]
          omega

/-- `empty_o` is set exactly when everything it was computed from has been read. -/
theorem Tracks.emptyO_step (positive : 1 ≤ aw) (tracks : Tracks s c) (permitted : Permitted s e) :
    (step s e).rd.emptyO = true ↔
      c.read + e.pops.toNat = if e.rd.isSome then c.writtenSync else c.writtenShown := by
  have order := tracks.writtenOrder
  have order' := tracks.readOrder
  have room := tracks.room
  have ahead := tracks.read_step permitted
  cases edge : e.rd with
  | none => simpa [step, edge, Instant.pops] using tracks.emptyO
  | some pins =>
      have running : pins.rdRstI = false := (permitted.2 pins (by simp [edge])).1
      cases enabled : pins.rdEnI with
      | false =>
          simp only [step, edge, RdSide.edge, running, enabled, tracks.rdAddr,
            grayConv_ofNat positive, tracks.wrAddrGrayRdR, Bool.false_eq_true, if_false,
            Bool.and_eq_true, beq_iff_eq, tracks.emptyO, Instant.pops, Option.map_some,
            Option.getD_some, Bool.toNat_false, Option.isSome_some, if_true, Nat.add_zero]
          rw [eq_comm (a := pointer aw c.read),
            pointer_eq_iff_of_lt (by omega : c.read ≤ c.writtenSync) (by omega)]
          omega
      | true =>
          simp only [Instant.pops, edge, enabled, Option.map_some, Option.getD_some,
            Bool.toNat_true] at ahead
          simp only [step, edge, RdSide.edge, running, enabled, tracks.rdAddr, ofNat_succ,
            grayConv_ofNat positive, tracks.wrAddrGrayRdR, Bool.false_eq_true, if_false, if_true,
            beq_iff_eq, Instant.pops, Option.map_some, Option.getD_some, Bool.toNat_true,
            Option.isSome_some]
          rw [eq_comm (a := pointer aw (c.read + 1)),
            pointer_eq_iff_of_lt (by omega : c.read + 1 ≤ c.writtenSync) (by omega)]
          exact eq_comm

/-! ## One instant -/

/-- **One instant keeps the registers in step with the counts.** -/
theorem Tracks.step (positive : 1 ≤ aw) (tracks : Tracks s c) (permitted : Permitted s e) :
    ∃ c', Tracks (step s e) c' ∧ Moves e c c' := by
  obtain ⟨r, readLow, readHigh, -, readCaught⟩ := capture_pointer e.wrCatch c.read e.pops
  obtain ⟨w, writtenLow, writtenHigh, writtenOld, writtenCaught⟩ :=
    capture_pointer e.rdCatch c.written e.pushes
  have readOrder := tracks.readOrder
  have writtenOrder := tracks.writtenOrder
  have room := tracks.room_step permitted
  have ahead := tracks.read_step permitted
  refine ⟨{ written := c.written + e.pushes.toNat
            read := c.read + e.pops.toNat
            readSeen := if e.wr.isSome then r else c.readSeen
            readSync := if e.wr.isSome then c.readSeen else c.readSync
            writtenSeen := if e.rd.isSome then w else c.writtenSeen
            writtenSync := if e.rd.isSome then c.writtenSeen else c.writtenSync
            writtenShown := if e.rd.isSome then c.writtenSync else c.writtenShown }, ?_, ?_⟩
  · constructor
    case wrAddr => exact tracks.wrAddr_step permitted
    case wrAddrGray =>
      rw [← tracks.wrGrayAfter positive permitted]
      cases edge : e.wr <;> simp [DualClockFifo.step, State.wrGrayAfter, WrSide.edge, edge]
    case rdAddrGrayWr =>
      cases edge : e.wr with
      | none => simpa [DualClockFifo.step, edge] using tracks.rdAddrGrayWr
      | some pins =>
          simp only [DualClockFifo.step, edge, WrSide.edge, tracks.rdAddrGray,
            tracks.rdGrayAfter positive permitted, Option.isSome_some, if_true, readCaught]
    case rdAddrGrayWrR =>
      cases edge : e.wr with
      | none => simpa [DualClockFifo.step, edge] using tracks.rdAddrGrayWrR
      | some pins => simpa [DualClockFifo.step, edge, WrSide.edge] using tracks.rdAddrGrayWr
    case rdAddr => exact tracks.rdAddr_step permitted
    case rdAddrGray =>
      rw [← tracks.rdGrayAfter positive permitted]
      cases edge : e.rd <;> simp [DualClockFifo.step, State.rdGrayAfter, RdSide.edge, edge]
    case wrAddrGrayRd =>
      cases edge : e.rd with
      | none => simpa [DualClockFifo.step, edge] using tracks.wrAddrGrayRd
      | some pins =>
          simp only [DualClockFifo.step, edge, RdSide.edge, tracks.wrAddrGray,
            tracks.wrGrayAfter positive permitted, Option.isSome_some, if_true, writtenCaught]
    case wrAddrGrayRdR =>
      cases edge : e.rd with
      | none => simpa [DualClockFifo.step, edge] using tracks.wrAddrGrayRdR
      | some pins => simpa [DualClockFifo.step, edge, RdSide.edge] using tracks.wrAddrGrayRd
    case readOrder => cases e.wr <;> simp <;> omega
    case writtenOrder => cases e.rd <;> simp <;> omega
    case room => cases e.wr <;> simp <;> omega
    case fullO =>
      intro cleared
      have := tracks.fullO_step positive permitted cleared
      cases e.wr <;> simp <;> omega
    case emptyO => exact tracks.emptyO_step positive permitted
  · refine ⟨rfl, rfl, rfl, rfl, fun old => ?_⟩
    simp only [writtenOld old]

/-! ## The words -/

/-- The words an instant writes. -/
def Instant.words (e : Instant aw dw) : List (BitVec dw) :=
  (e.wr.toList.filter WrPins.wrEnI).map WrPins.wrDataI

theorem Instant.length_words (e : Instant aw dw) : e.words.length = e.pushes.toNat := by
  cases edge : e.wr with
  | none => simp [words, pushes, edge]
  | some pins => cases enabled : pins.wrEnI <;> simp [words, pushes, edge, enabled]

/-- The log agrees with the counts, and every word that is still to be read is in
the memory. -/
structure Holds (s : State aw dw) (c : Counts) (log : Log dw) : Prop where
  tracks : Tracks s c
  written : log.written.length = c.written
  delivered : log.delivered = log.written.take c.read
  mem : ∀ i word, log.written[i]? = some word → c.read ≤ i → s.wr.mem (BitVec.ofNat aw i) = word

/-- Two words that are unread at the same time are stored at different addresses. -/
theorem Tracks.ofNat_ne (tracks : Tracks s c) {i : Nat} (unread : c.read ≤ i)
    (stored : i < c.written) : BitVec.ofNat aw i ≠ BitVec.ofNat aw c.written := by
  have order := tracks.readOrder
  have room := tracks.room
  intro same
  have codes : pointer aw c.written = pointer aw i := congrArg gray same.symm
  rw [pointer_eq_iff_of_lt stored.le (by omega)] at codes
  omega

variable {log : Log dw}

/-- The memory after an instant holds every unread word, the new one included. -/
theorem Holds.mem_step (holds : Holds s c log) {i : Nat} {word : BitVec dw}
    (found : (log.written ++ e.words)[i]? = some word) (unread : c.read ≤ i) :
    (DualClockFifo.step s e).wr.mem (BitVec.ofNat aw i) = word := by
  rcases Nat.lt_or_ge i log.written.length with old | new
  · rw [List.getElem?_append_left old] at found
    have stored := holds.mem i word found unread
    rw [holds.written] at old
    have away := holds.tracks.ofNat_ne unread old
    cases edge : e.wr with
    | none => simpa [DualClockFifo.step, edge] using stored
    | some pins =>
        cases enabled : pins.wrEnI with
        | false => simpa [DualClockFifo.step, edge, WrSide.edge, enabled] using stored
        | true =>
            simpa [DualClockFifo.step, edge, WrSide.edge, enabled, holds.tracks.wrAddr,
              Function.update_of_ne away] using stored
  · rw [List.getElem?_append_right new] at found
    cases edge : e.wr with
    | none => simp [Instant.words, edge] at found
    | some pins =>
        cases enabled : pins.wrEnI with
        | false => simp [Instant.words, edge, enabled] at found
        | true =>
            simp only [Instant.words, edge, Option.toList_some, enabled, List.filter_cons_of_pos,
              List.filter_nil, List.map_cons, List.map_nil] at found
            obtain ⟨here, same⟩ := List.getElem?_eq_some_iff.mp found
            have first : i = c.written := by
              rw [← holds.written]
              simp only [List.length_singleton] at here
              omega
            subst first
            simp only [DualClockFifo.step, edge, WrSide.edge, enabled, if_true,
              holds.tracks.wrAddr, Function.update_self]
            simpa [holds.written] using same

/-- The words delivered after an instant are those written first. -/
theorem Holds.delivered_step (holds : Holds s c log) (permitted : Permitted s e) :
    (record s e log).delivered = (record s e log).written.take (c.read + e.pops.toNat) := by
  have ahead := holds.tracks.read_step permitted
  have order := holds.tracks.writtenOrder
  have within : c.read + e.pops.toNat ≤ log.written.length := by
    rw [holds.written]
    omega
  show log.delivered ++ (if e.pops then _ else []) =
    (log.written ++ e.words).take (c.read + e.pops.toNat)
  rw [List.take_append_of_le_length within, holds.delivered]
  cases pops : e.pops with
  | false => simp
  | true =>
      rw [pops] at within
      obtain ⟨pins, edge, enabled⟩ : ∃ pins, e.rd = some pins ∧ pins.rdEnI = true := by
        cases edge : e.rd with
        | none => simp [Instant.pops, edge] at pops
        | some pins => exact ⟨pins, rfl, by simpa [Instant.pops, edge] using pops⟩
      have inside : c.read < log.written.length := within
      have word := holds.mem c.read log.written[c.read] (List.getElem?_eq_getElem inside) le_rfl
      simp only [DualClockFifo.step, edge, RdSide.edge, enabled, if_true, holds.tracks.rdAddr,
        word, Bool.toNat_true]
      exact List.take_concat_get' _ _ inside

/-- **One instant keeps the log and the memory in step.** -/
theorem Holds.step (positive : 1 ≤ aw) (holds : Holds s c log) (permitted : Permitted s e) :
    ∃ c', Holds (DualClockFifo.step s e) c' (record s e log) := by
  obtain ⟨c', tracks, moves⟩ := holds.tracks.step positive permitted
  refine ⟨c', tracks, ?_, ?_, ?_⟩
  · show (log.written ++ e.words).length = c'.written
    rw [List.length_append, holds.written, e.length_words, moves.written]
  · rw [moves.read]
    exact holds.delivered_step permitted
  · intro i word found unread
    refine holds.mem_step found (le_trans ?_ unread)
    rw [moves.read]
    exact Nat.le_add_right _ _

/-! ## Every run -/

/-- Nothing has been written or delivered. -/
def Log.empty : Log dw := ⟨[], []⟩

theorem Settled.holds (positive : 1 ≤ aw) (settled : Settled s) :
    Holds s Counts.zero (Log.empty : Log dw) where
  tracks := settled.tracks positive
  written := rfl
  delivered := rfl
  mem := fun i word found => by simp [Log.empty] at found

/-- **What is delivered is a prefix of what was written, and at most
`2 ^ aw - 1` written words are unread**, at every moment of every run. -/
theorem delivered_prefix_written (wide : 2 ≤ aw) (settled : Settled s)
    (instants : List (Instant aw dw)) (permitted : Trace.Always DualClockFifo.step Permitted s instants) :
    let log := (Trace.after (Trace.monitored DualClockFifo.step record) (s, Log.empty) instants).2
    log.delivered <+: log.written ∧
      log.written.length - log.delivered.length ≤ 2 ^ aw - 1 := by
  have positive : 1 ≤ aw := by omega
  obtain ⟨c, holds⟩ := Trace.Always.invariant
    (fun x : State aw dw × Log dw => ∃ c, Holds x.1 c x.2)
    (fun x e ⟨c, holds⟩ allowed => holds.step positive allowed)
    ⟨Counts.zero, settled.holds positive⟩ (permitted.monitored record Log.empty)
  have read := holds.tracks.readOrder
  have written := holds.tracks.writtenOrder
  have room := holds.tracks.room
  refine ⟨holds.delivered ▸ List.take_prefix _ _, ?_⟩
  rw [holds.delivered, List.length_take, holds.written]
  omega

/-- A four-word FIFO at power-up. -/
def powerUp : State 2 8 where
  wr := ⟨1, 2, 3, 1, true, fun _ => 0⟩
  rd := ⟨3, 1, 2, 0, false, 0⟩

/-- Two words are written, the second at an instant at which the read clock
samples the moving pointer, and the first is read back. -/
def writeWriteRead : List (Instant 2 8) :=
  [⟨some ⟨false, true, 5⟩, none, 0, 0⟩,
    ⟨some ⟨false, true, 7⟩, some ⟨false, false⟩, 1, 3⟩,
    ⟨none, some ⟨false, false⟩, 0, 0⟩,
    ⟨none, some ⟨false, false⟩, 0, 0⟩,
    ⟨some ⟨false, false, 0⟩, some ⟨false, true⟩, 2, 0⟩]

theorem delivered_prefix_written_writeWriteRead :
    let start := Trace.after step powerUp [resetInstant, resetInstant, resetInstant]
    let log := (Trace.after (Trace.monitored step record) (start, Log.empty) writeWriteRead).2
    Trace.Always step Permitted start writeWriteRead ∧
      log = ⟨[5, 7], [5]⟩ ∧ log.delivered <+: log.written ∧
        log.written.length - log.delivered.length ≤ 2 ^ 2 - 1 := by
  have permitted : Trace.Always step Permitted
      (Trace.after step powerUp [resetInstant, resetInstant, resetInstant]) writeWriteRead := by
    decide
  exact ⟨permitted, rfl, delivered_prefix_written (by decide) (settled_of_reset powerUp)
    writeWriteRead permitted⟩

end OrpsocCores.DualClockFifo
