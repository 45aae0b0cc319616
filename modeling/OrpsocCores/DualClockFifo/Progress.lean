import OrpsocCores.DualClockFifo.Safety

/-!
# Progress through the dual-clock FIFO

`Safety` bounds what the flags allow.  This module bounds how long they hold a
side back, in edges of that side's own clock.  The other clock may run at any
rate, or stand still.

A copy of a foreign pointer is one stage younger after every edge of the sampling
clock, and an edge that catches the pointer in motion catches the old value or
the new one, never an older (`Tracks.seen_step`, `Tracks.readSeen_step`).  Three
edges therefore bring a count into the flag (`Visible`, `Released`).

* `flags_current`: `empty_o` hides no word older than three edges of the read
  clock, and `full_o` ignores no read older than three edges of the write clock.
* `delivered_in_time`: a reader that reads whenever `empty_o` is clear has every
  written word within `2 ^ aw + 2` edges of its own clock.
-/

set_option autoImplicit false

namespace OrpsocCores.DualClockFifo

open GrayCode

variable {aw dw : Nat} {s : State aw dw} {e : Instant aw dw} {c c' : Counts}

/-! ## Ageing of the copies -/

/-- Two counts less than a turn apart have one code only if they are equal. -/
theorem pointer_inj {m n low : Nat} (fromM : low ≤ m) (fromN : low ≤ n) (m_lt : m < low + 2 ^ aw)
    (n_lt : n < low + 2 ^ aw) (same : pointer aw m = pointer aw n) : m = n := by
  rcases Nat.le_total m n with below | above
  · exact ((pointer_eq_iff_of_lt below (by omega)).mp same.symm).symm
  · exact (pointer_eq_iff_of_lt above (by omega)).mp same

/-- An edge of the read clock catches at least the write count before it. -/
theorem Tracks.seen_step (positive : 1 ≤ aw) (tracks : Tracks s c) (permitted : Permitted s e)
    (tracks' : Tracks (DualClockFifo.step s e) c') (moves : Moves e c c') :
    (if e.rd.isSome then c.written else c.writtenSeen) ≤ c'.writtenSeen := by
  have order := tracks.writtenOrder
  have order' := tracks'.writtenOrder
  have readOrder' := tracks'.readOrder
  have room' := tracks'.room
  have ahead := tracks.read_step permitted
  have read := moves.read
  have written := moves.written
  cases edge : e.rd with
  | none =>
      have kept : pointer aw c'.writtenSeen = pointer aw c.writtenSeen := by
        rw [← tracks'.wrAddrGrayRd, ← tracks.wrAddrGrayRd]
        simp only [DualClockFifo.step, edge]
      have same : c'.writtenSeen = c.writtenSeen :=
        pointer_inj (by omega : c'.read ≤ _) (by omega) (by omega) (by omega) kept
      simp [same]
  | some pins =>
      obtain ⟨w, low, high, -, caught⟩ := capture_pointer e.rdCatch c.written e.pushes
      have sampled : pointer aw c'.writtenSeen = pointer aw w := by
        rw [← tracks'.wrAddrGrayRd, ← caught]
        simp only [DualClockFifo.step, edge, RdSide.edge, tracks.wrAddrGray,
          tracks.wrGrayAfter positive permitted]
      have same : c'.writtenSeen = w :=
        pointer_inj (by omega : c'.read ≤ _) (by omega) (by omega) (by omega) sampled
      simpa [same] using low

/-- An edge of the write clock moves the copies of the read pointer up a stage. -/
theorem Tracks.readSeen_step (positive : 1 ≤ aw) (tracks : Tracks s c) (permitted : Permitted s e)
    (tracks' : Tracks (DualClockFifo.step s e) c') (moves : Moves e c c') :
    c'.readSync = (if e.wr.isSome then c.readSeen else c.readSync) ∧
      (if e.wr.isSome then c.read else c.readSeen) ≤ c'.readSeen := by
  have readOrder := tracks.readOrder
  have readOrder' := tracks'.readOrder
  have order := tracks.writtenOrder
  have order' := tracks'.writtenOrder
  have room := tracks.room_step permitted
  have room' := tracks'.room
  have read := moves.read
  have written := moves.written
  -- The turn of counts the write domain can tell apart after the instant.
  have turn {m n : Nat} (m_low : c'.written + 1 ≤ m + 2 ^ aw) (n_low : c'.written + 1 ≤ n + 2 ^ aw)
      (m_high : m ≤ c'.read) (n_high : n ≤ c'.read) (same : pointer aw m = pointer aw n) : m = n :=
    pointer_inj (show c'.written + 1 - 2 ^ aw ≤ m by omega) (by omega) (by omega) (by omega) same
  cases edge : e.wr with
  | none =>
      have sync : c'.readSync = c.readSync := by
        refine turn room' (by omega) (by omega) (by omega) ?_
        rw [← tracks'.rdAddrGrayWrR, ← tracks.rdAddrGrayWrR]
        simp only [DualClockFifo.step, edge]
      have seen : c'.readSeen = c.readSeen := by
        refine turn (by omega) (by omega) (by omega) (by omega) ?_
        rw [← tracks'.rdAddrGrayWr, ← tracks.rdAddrGrayWr]
        simp only [DualClockFifo.step, edge]
      simp [sync, seen]
  | some pins =>
      obtain ⟨r, low, high, -, caught⟩ := capture_pointer e.wrCatch c.read e.pops
      have sync : c'.readSync = c.readSeen := by
        refine turn room' (by omega) (by omega) (by omega) ?_
        rw [← tracks'.rdAddrGrayWrR, ← tracks.rdAddrGrayWr]
        simp only [DualClockFifo.step, edge, WrSide.edge]
      have seen : c'.readSeen = r := by
        refine turn (by omega) (by omega) (by omega) (by omega) ?_
        rw [← tracks'.rdAddrGrayWr, ← caught]
        simp only [DualClockFifo.step, edge, WrSide.edge, tracks.rdAddrGray,
          tracks.rdGrayAfter positive permitted]
      exact ⟨sync, by simpa [seen] using low⟩

/-- A set `full_o` was computed from the second stage as it was at the last edge of
the write clock. -/
theorem Tracks.full_step (positive : 1 ≤ aw) (tracks : Tracks s c) (permitted : Permitted s e)
    (edge : e.wr.isSome = true) (full : (DualClockFifo.step s e).wr.fullO = true) :
    c.written + e.pushes.toNat + 1 = c.readSync + 2 ^ aw := by
  obtain ⟨pins, edge⟩ := Option.isSome_iff_exists.mp edge
  have running : pins.wrRstI = false := (permitted.1 pins (by simp [edge])).1
  have order := tracks.readOrder
  have order' := tracks.writtenOrder
  cases enabled : pins.wrEnI with
  | false =>
      simp only [DualClockFifo.step, edge, WrSide.edge, running, enabled, tracks.wrAddr, ofNat_succ,
        grayConv_ofNat positive, tracks.rdAddrGrayWrR, Bool.false_eq_true, if_false,
        Bool.and_eq_true, beq_iff_eq] at full
      simp only [Instant.pushes, edge, enabled, Option.map_some, Option.getD_some, Bool.toNat_false]
      exact (pointer_eq_iff_of_le (by omega) tracks.room).mp full.2
  | true =>
      have room := tracks.fullO ((permitted.1 pins (by simp [edge])).2 enabled)
      simp only [DualClockFifo.step, edge, WrSide.edge, running, enabled, tracks.wrAddr,
        ofNat_add_two, grayConv_ofNat positive, tracks.rdAddrGrayWrR, Bool.false_eq_true, if_false,
        if_true, beq_iff_eq] at full
      simp only [Instant.pushes, edge, enabled, Option.map_some, Option.getD_some, Bool.toNat_true]
      exact (pointer_eq_iff_of_le (by omega) room).mp full

/-! ## What an edge makes known to the other side -/

/-- How far `edges` edges of the read clock have brought the first `old` written words. -/
structure Visible (old edges : Nat) (c : Counts) : Prop where
  written : old ≤ c.written
  seen : 1 ≤ edges → old ≤ c.writtenSeen
  sync : 2 ≤ edges → old ≤ c.writtenSync
  shown : 3 ≤ edges → old ≤ c.writtenShown

/-- How far `edges` edges of the write clock have brought the first `old` reads, when
`full_o` was last computed from `count` of them. -/
structure Released (old edges count : Nat) (s : State aw dw) (c : Counts) : Prop where
  read : old ≤ c.read
  seen : 1 ≤ edges → old ≤ c.readSeen
  sync : 2 ≤ edges → old ≤ c.readSync
  shown : 3 ≤ edges → old ≤ count
  fullO : s.wr.fullO = true → c.written + 1 = count + 2 ^ aw

theorem Visible.step {old edges : Nat} (positive : 1 ≤ aw) (tracks : Tracks s c)
    (permitted : Permitted s e) (tracks' : Tracks (DualClockFifo.step s e) c')
    (moves : Moves e c c') (visible : Visible old edges c) :
    Visible old (edges + e.rd.isSome.toNat) c' := by
  obtain ⟨written, seen, sync, shown⟩ := visible
  have grown : c.written ≤ c'.written := moves.written ▸ Nat.le_add_right _ _
  have caught := tracks.seen_step positive permitted tracks' moves
  have sync' := moves.sync
  have shown' := moves.shown
  cases edge : e.rd.isSome with
  | false =>
      simp only [edge, Bool.false_eq_true, if_false] at caught sync' shown'
      exact ⟨by omega, fun past => (seen past).trans caught, fun past => sync' ▸ sync past,
        fun past => shown' ▸ shown past⟩
  | true =>
      simp only [edge, if_true] at caught sync' shown'
      simp only [Bool.toNat_true]
      exact ⟨by omega, fun _ => written.trans caught, fun past => sync' ▸ seen (by omega),
        fun past => shown' ▸ sync (by omega)⟩

theorem Released.step {old edges count : Nat} (positive : 1 ≤ aw) (tracks : Tracks s c)
    (permitted : Permitted s e) (tracks' : Tracks (DualClockFifo.step s e) c')
    (moves : Moves e c c') (released : Released old edges count s c) :
    ∃ count', Released old (edges + e.wr.isSome.toNat) count' (DualClockFifo.step s e) c' := by
  obtain ⟨read, seen, sync, shown, fullO⟩ := released
  have grown : c.read ≤ c'.read := moves.read ▸ Nat.le_add_right _ _
  obtain ⟨sync', caught⟩ := tracks.readSeen_step positive permitted tracks' moves
  cases edge : e.wr.isSome with
  | false =>
      have quiet : e.wr = none := Option.isNone_iff_eq_none.mp (by simp [← Option.not_isSome, edge])
      have kept : c'.written = c.written := by simp [moves.written, Instant.pushes, quiet]
      simp only [edge, Bool.false_eq_true, if_false] at caught sync'
      refine ⟨count, by omega, fun past => (seen past).trans caught, fun past => sync' ▸ sync past,
        shown, fun full => ?_⟩
      rw [kept]
      exact fullO (by simpa [DualClockFifo.step, quiet] using full)
  | true =>
      simp only [edge, if_true] at caught sync'
      simp only [Bool.toNat_true]
      refine ⟨c.readSync, by omega, fun _ => read.trans caught, fun past => sync' ▸ seen (by omega),
        fun past => sync (by omega), fun full => ?_⟩
      rw [moves.written]
      exact tracks.full_step positive permitted edge full

/-! ## Counting the words -/

/-- The log is as long as the counts say. -/
structure Counted (s : State aw dw) (log : Log dw) (c : Counts) : Prop where
  tracks : Tracks s c
  written : log.written.length = c.written
  delivered : log.delivered.length = c.read

theorem Counted.step {log : Log dw} (positive : 1 ≤ aw) (counted : Counted s log c)
    (permitted : Permitted s e) :
    ∃ c', Counted (DualClockFifo.step s e) (record s e log) c' ∧ Moves e c c' := by
  obtain ⟨c', tracks', moves⟩ := counted.tracks.step positive permitted
  refine ⟨c', ⟨tracks', ?_, ?_⟩, moves⟩
  · show (log.written ++ e.words).length = c'.written
    rw [List.length_append, counted.written, e.length_words, moves.written]
  · rw [moves.read, ← counted.delivered]
    cases pops : e.pops <;> simp [record, pops]

theorem Settled.counted (positive : 1 ≤ aw) (settled : Settled s) :
    Counted s (Log.empty : Log dw) Counts.zero where
  tracks := settled.tracks positive
  written := rfl
  delivered := rfl

/-- The edges of the read clock in a run. -/
def rdEdges (instants : List (Instant aw dw)) : Nat := instants.countP fun e => e.rd.isSome

/-- The edges of the write clock in a run. -/
def wrEdges (instants : List (Instant aw dw)) : Nat := instants.countP fun e => e.wr.isSome

/-- An invariant that counts the edges of both clocks, along a run. -/
theorem invariant_edges {condition : State aw dw → Instant aw dw → Prop}
    (inv : Nat → Nat → State aw dw × Log dw → Prop)
    (preserved : ∀ r w s log e, inv r w (s, log) → condition s e →
      inv (r + e.rd.isSome.toNat) (w + e.wr.isSome.toNat) (DualClockFifo.step s e, record s e log))
    {log : Log dw} {r w : Nat} {instants : List (Instant aw dw)} (initially : inv r w (s, log))
    (permitted : Trace.Always DualClockFifo.step condition s instants) :
    inv (r + rdEdges instants) (w + wrEdges instants)
      (Trace.after (Trace.monitored DualClockFifo.step record) (s, log) instants) := by
  induction instants generalizing s log r w with
  | nil => exact initially
  | cons e instants ih =>
      have next := ih (preserved r w s log e initially permitted.1) permitted.2
      have reads : rdEdges (e :: instants) = e.rd.isSome.toNat + rdEdges instants := by
        cases edge : e.rd.isSome <;> simp [rdEdges, edge, Nat.add_comm]
      have writes : wrEdges (e :: instants) = e.wr.isSome.toNat + wrEdges instants := by
        cases edge : e.wr.isSome <;> simp [wrEdges, edge, Nat.add_comm]
      rw [reads, writes, ← Nat.add_assoc, ← Nat.add_assoc]
      exact next

/-- What holds `r` edges of the read clock and `w` of the write clock after a moment at
which `old` words were written and `oldReads` read. -/
def Aged (old oldReads r w : Nat) (x : State aw dw × Log dw) : Prop :=
  ∃ c count, Counted x.1 x.2 c ∧ Visible old r c ∧ Released oldReads w count x.1 c

theorem Aged.run (positive : 1 ≤ aw) {old oldReads r w : Nat} {log : Log dw}
    {instants : List (Instant aw dw)} (aged : Aged old oldReads r w (s, log))
    (permitted : Trace.Always DualClockFifo.step Permitted s instants) :
    Aged old oldReads (r + rdEdges instants) (w + wrEdges instants)
      (Trace.after (Trace.monitored DualClockFifo.step record) (s, log) instants) := by
  refine invariant_edges (Aged old oldReads) ?_ aged permitted
  rintro r w s log e ⟨c, count, counted, visible, released⟩ allowed
  obtain ⟨c', counted', moves⟩ := counted.step positive allowed
  obtain ⟨count', released'⟩ :=
    released.step positive counted.tracks allowed counted'.tracks moves
  exact ⟨c', count', counted',
    visible.step positive counted.tracks allowed counted'.tracks moves, released'⟩

/-- At any moment the words written and read so far start to age. -/
theorem Aged.restart {old oldReads r w : Nat} {x : State aw dw × Log dw}
    (aged : Aged old oldReads r w x) : Aged x.2.written.length x.2.delivered.length 0 0 x := by
  obtain ⟨c, count, counted, visible, released⟩ := aged
  refine ⟨c, count, counted, ⟨counted.written.le, ?_, ?_, ?_⟩,
    ⟨counted.delivered.le, ?_, ?_, ?_, released.fullO⟩⟩ <;> intro past <;> omega

theorem Settled.aged (positive : 1 ≤ aw) (settled : Settled s) :
    Aged 0 0 0 0 (s, (Log.empty : Log dw)) := by
  refine ⟨Counts.zero, 0, settled.counted positive, ⟨?_, ?_, ?_, ?_⟩, ⟨?_, ?_, ?_, ?_, ?_⟩⟩
  case refine_9 =>
    intro full
    rw [settled.fullO] at full
    cases full
  all_goals simp [Counts.zero]

/-- **`empty_o` hides no word that is older than three edges of the read clock, and
`full_o` keeps no place taken that was read three edges of the write clock ago.** -/
theorem flags_current (wide : 2 ≤ aw) (settled : Settled s) (before after : List (Instant aw dw))
    (permitted : Trace.Always DualClockFifo.step Permitted s (before ++ after)) :
    let past := (Trace.after (Trace.monitored DualClockFifo.step record) (s, Log.empty) before).2
    let now := Trace.after (Trace.monitored DualClockFifo.step record) (s, Log.empty)
      (before ++ after)
    (3 ≤ rdEdges after → now.1.rd.emptyO = true →
        past.written.length ≤ now.2.delivered.length) ∧
      (3 ≤ wrEdges after → now.1.wr.fullO = true →
        past.delivered.length + (2 ^ aw - 1) ≤ now.2.written.length) := by
  have positive : 1 ≤ aw := by omega
  obtain ⟨first, second⟩ := Trace.Always.append_iff.mp permitted
  rw [← Trace.after_monitored_fst DualClockFifo.step record (s, Log.empty)] at second
  intro past now
  have aged : Aged past.written.length past.delivered.length (0 + rdEdges after)
      (0 + wrEdges after) now := by
    show Aged _ _ _ _ (Trace.after _ _ (before ++ after))
    rw [Trace.after_append]
    exact ((settled.aged positive).run positive first).restart.run positive second
  obtain ⟨c, count, counted, visible, released⟩ := aged
  constructor
  · intro edges empty
    have all : c.read = c.writtenShown := counted.tracks.emptyO.mp empty
    have shown := visible.shown (by omega)
    rw [counted.delivered]
    omega
  · intro edges full
    have taken := released.fullO full
    have shown := released.shown (by omega)
    have turn : 1 ≤ 2 ^ aw := Nat.one_le_two_pow
    rw [counted.written]
    omega

/-- A four-word FIFO whose registers are all clear. -/
def cleared : State 2 8 where
  wr := ⟨0, 0, 0, 0, false, fun _ => 0⟩
  rd := ⟨0, 0, 0, 0, true, 0⟩

theorem cleared_settled : Settled cleared := ⟨rfl, rfl, rfl, rfl, rfl, rfl, rfl, rfl, rfl, rfl⟩

/-- One word is written, and the read clock catches none of the moving pointer. -/
def writeOne : List (Instant 2 8) := [⟨some ⟨false, true, 5⟩, some ⟨false, false⟩, 0, 0⟩]

/-- Six edges of the read clock; the word is read at the first at which it shows. -/
def readWhenShown : List (Instant 2 8) :=
  [false, false, false, true, false, false].map fun enabled =>
    ⟨none, some ⟨false, enabled⟩, 0, 0⟩

theorem flags_current_readWhenShown :
    (Trace.after (Trace.monitored step record) (cleared, Log.empty) writeOne).2.written.length ≤
      (Trace.after (Trace.monitored step record) (cleared, Log.empty)
        (writeOne ++ readWhenShown)).2.delivered.length :=
  (flags_current (by decide) cleared_settled writeOne readWhenShown (by decide)).1
    (by decide) (by decide)

/-! ## A reader that does not wait -/

/-- A word is read at every edge of the read clock at which `empty_o` is clear. -/
def Reads (s : State aw dw) (e : Instant aw dw) : Prop :=
  ∀ pins ∈ e.rd, pins.rdEnI = !s.rd.emptyO

instance (s : State aw dw) (e : Instant aw dw) : Decidable (Reads s e) :=
  inferInstanceAs (Decidable (∀ pins ∈ e.rd, _))

/-- After `edges` edges of the read clock such a reader has all `old` words, or has read
at all edges but three since it had `start`. -/
structure Prompt (old start edges : Nat) (c : Counts) : Prop where
  started : start ≤ c.read
  progress : old ≤ c.read ∨ start + edges ≤ c.read + 3

theorem Prompt.step {old start edges : Nat} (tracks : Tracks s c) (moves : Moves e c c')
    (reads : Reads s e) (visible : Visible old edges c) (prompt : Prompt old start edges c) :
    Prompt old start (edges + e.rd.isSome.toNat) c' := by
  obtain ⟨started, progress⟩ := prompt
  have read := moves.read
  refine ⟨by omega, ?_⟩
  rcases progress with all | soFar
  · exact Or.inl (by omega)
  cases edge : e.rd with
  | none => exact Or.inr (by simp only [Option.isSome_none, Bool.toNat_false]; omega)
  | some pins =>
      have asserted : pins.rdEnI = !s.rd.emptyO := reads pins (by simp [edge])
      simp only [Option.isSome_some, Bool.toNat_true]
      cases empty : s.rd.emptyO with
      | false =>
          have pops : e.pops = true := by simp [Instant.pops, edge, asserted, empty]
          simp only [pops, Bool.toNat_true] at read
          exact Or.inr (by omega)
      | true =>
          -- Nothing is read: either the first edges are still passing or all is read.
          have caught : c.read = c.writtenShown := tracks.emptyO.mp empty
          by_cases settling : edges < 3
          · exact Or.inr (by omega)
          · have shown := visible.shown (by omega)
            exact Or.inl (by omega)

theorem Prompt.run (positive : 1 ≤ aw) {old start : Nat} {log : Log dw}
    {instants : List (Instant aw dw)} (prompt : Prompt old start 0 c) (counted : Counted s log c)
    (visible : Visible old 0 c)
    (permitted : Trace.Always DualClockFifo.step (fun s e => Permitted s e ∧ Reads s e) s instants) :
    ∃ c', Counted (Trace.after (Trace.monitored DualClockFifo.step record) (s, log) instants).1
        (Trace.after (Trace.monitored DualClockFifo.step record) (s, log) instants).2 c' ∧
      Prompt old start (rdEdges instants) c' := by
  have aged := invariant_edges (w := 0)
    (fun r _ x => ∃ c, Counted x.1 x.2 c ∧ Visible old r c ∧ Prompt old start r c)
    (by
      rintro r w s log e ⟨c, counted, visible, prompt⟩ ⟨allowed, reads⟩
      obtain ⟨c', counted', moves⟩ := counted.step positive allowed
      exact ⟨c', counted', visible.step positive counted.tracks allowed counted'.tracks moves,
        prompt.step counted.tracks moves reads visible⟩)
    ⟨c, counted, visible, prompt⟩ permitted
  obtain ⟨c', counted', -, prompt'⟩ := aged
  exact ⟨c', counted', by simpa using prompt'⟩

/-- Every word is logged behind the words that were there. -/
theorem written_prefix (x : State aw dw × Log dw) (instants : List (Instant aw dw)) :
    x.2.written <+:
      (Trace.after (Trace.monitored DualClockFifo.step record) x instants).2.written := by
  induction instants generalizing x with
  | nil => exact List.prefix_rfl
  | cons e instants ih =>
      have here : x.2.written <+: (record x.1 e x.2).written := List.prefix_append _ _
      exact here.trans (ih (Trace.monitored DualClockFifo.step record x e))

/-- **A reader that reads whenever `empty_o` is clear has, in order, every word that was
written before the last `2 ^ aw + 2` edges of its clock**, whatever the writer does and
however the two clocks lie. -/
theorem delivered_in_time (wide : 2 ≤ aw) (settled : Settled s)
    (before after : List (Instant aw dw))
    (permitted : Trace.Always DualClockFifo.step Permitted s (before ++ after))
    (reads : Trace.Always DualClockFifo.step Reads (Trace.after DualClockFifo.step s before) after)
    (edges : 2 ^ aw + 2 ≤ rdEdges after) :
    (Trace.after (Trace.monitored DualClockFifo.step record) (s, Log.empty) before).2.written <+:
      (Trace.after (Trace.monitored DualClockFifo.step record) (s, Log.empty)
        (before ++ after)).2.delivered := by
  have positive : 1 ≤ aw := by omega
  obtain ⟨first, second⟩ := Trace.Always.append_iff.mp permitted
  -- The order is that of writing, so that only the number is left to show.
  obtain ⟨c, holds⟩ := Trace.Always.invariant
    (fun x : State aw dw × Log dw => ∃ c, Holds x.1 c x.2)
    (fun x e ⟨c, holds⟩ allowed => holds.step positive allowed)
    ⟨Counts.zero, settled.holds positive⟩ (permitted.monitored record Log.empty)
  have inOrder : (Trace.after (Trace.monitored DualClockFifo.step record) (s, Log.empty)
      (before ++ after)).2.delivered <+: _ := holds.delivered ▸ List.take_prefix _ _
  refine List.prefix_of_prefix_length_le ?_ inOrder ?_
  · rw [Trace.after_append]
    exact written_prefix _ after
  obtain ⟨d, count, counted, -, -⟩ := (settled.aged positive).run positive first
  rw [Trace.after_append]
  have both := second.and reads
  rw [← Trace.after_monitored_fst DualClockFifo.step record (s, Log.empty)] at both
  have fresh : Visible d.written 0 d := ⟨le_rfl, by omega, by omega, by omega⟩
  have begun : Prompt d.written d.read 0 d := ⟨le_rfl, Or.inr (by omega)⟩
  obtain ⟨d', counted', prompt⟩ := begun.run positive counted fresh both
  have room := counted.tracks.room
  have order := counted.tracks.readOrder
  rw [counted.written, counted'.delivered]
  rcases prompt.progress with all | many <;> omega

theorem delivered_in_time_readWhenShown :
    (Trace.after (Trace.monitored step record) (cleared, Log.empty) writeOne).2.written <+:
      (Trace.after (Trace.monitored step record) (cleared, Log.empty)
        (writeOne ++ readWhenShown)).2.delivered :=
  delivered_in_time (by decide) cleared_settled writeOne readWhenShown (by decide) (by decide)
    (by decide)

end OrpsocCores.DualClockFifo
