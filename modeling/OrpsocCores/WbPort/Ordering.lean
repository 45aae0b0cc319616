import OrpsocCores.DualClockFifo.Safety
import OrpsocCores.WbPort.Handshake

/-!
# Refills and the writes acknowledged before them

A refill should reach the memory after every write the port acknowledged before
it asked for the line.  The SDRAM machine serves `wrfifo` before a request, but
it sees the two through paths of different length: the request through two
flip-flops, a write through two flip-flops and the registered `empty_o`.

The request is therefore in order when the write pointer has a lead of one edge
(`CaughtUp`): when the machine enters `REFILL`, the first synchroniser stage of
the FIFO has caught the write pointer, or `sdram_clk` has an edge at the same
instant.  From then on the request never overtakes the pointer
(`refill_after_writes`).  Without the lead it can (`refill_overtakes_write`).
-/

set_option autoImplicit false

namespace OrpsocCores.WbPort

open Wishbone DualClockFifo

variable {bw : Nat}

/-- How many writes have been pushed into `wrfifo`, how many of them have been
taken out of it, and how many had been pushed when the machine last entered
`REFILL`. -/
structure Ledger where
  pushed : Nat
  popped : Nat
  atRefill : Nat
  deriving DecidableEq

/-- The machine enters `REFILL` at this instant. -/
def Port.entersRefill (p : Port bw) (e : Instant) : Bool :=
  (e.wb.map fun pins => p.wb.entersRefill pins.bus).getD false

def Ledger.record (p : Port bw) (e : Instant) (ledger : Ledger) : Ledger where
  pushed := ledger.pushed + (p.fifoInstant e).pushes.toNat
  popped := ledger.popped + (p.fifoInstant e).pops.toNat
  atRefill := if p.entersRefill e then ledger.pushed else ledger.atRefill

def Ledger.zero : Ledger := ⟨0, 0, 0⟩

/-- When the SDRAM machine leaves `IDLE` for `READ`, no write that was pushed
before the request is still in `wrfifo`. -/
def Ordered (x : Port bw × Ledger) (e : Instant) : Prop :=
  e.sdram.isSome = true → x.1.sdram.startsRead x.1.empty = true → x.2.atRefill ≤ x.2.popped

instance (x : Port bw × Ledger) (e : Instant) : Decidable (Ordered x e) :=
  inferInstanceAs (Decidable (_ → _ → _))

/-- The write pointer has a lead of one `sdram_clk` edge over a request. -/
def CaughtUp (p : Port bw) (e : Instant) : Prop :=
  p.entersRefill e = true →
    p.wrfifo.rd.wrAddrGrayRd = p.wrfifo.wr.wrAddrGray ∨ e.sdram.isSome = true

instance (p : Port bw) (e : Instant) : Decidable (CaughtUp p e) :=
  inferInstanceAs (Decidable (_ → _))

/-! ## The lead is kept -/

/-- At every stage the request is behind the writes that came before it. -/
structure Lead (p : Port bw) (c : Counts) (ledger : Ledger) : Prop where
  tracks : Tracks p.wrfifo c
  pushed : c.written = ledger.pushed
  popped : c.read = ledger.popped
  atRefill : ledger.atRefill ≤ ledger.pushed
  request : p.wb.readReqWb = true → ledger.atRefill ≤ c.writtenSeen
  seen : p.sdram.readReq = true → ledger.atRefill ≤ c.writtenSync
  synced : p.sdram.readReqSdram = true → ledger.atRefill ≤ c.writtenShown

theorem Settled.lead {p : Port bw} (settled : Settled p) : Lead p Counts.zero Ledger.zero where
  tracks := settled.wrfifo.tracks (by decide)
  pushed := rfl
  popped := rfl
  atRefill := le_rfl
  request := fun up => by simp [settled.readReqWb] at up
  seen := fun up => by simp [settled.readReq] at up
  synced := fun up => by simp [settled.readReqSdram] at up

variable {p : Port bw} {e : Instant} {c : Counts} {ledger : Ledger}

/-- The port never writes a full FIFO and never reads an empty one. -/
theorem fifoInstant_permitted (running : Running e) : Permitted p.wrfifo (p.fifoInstant e) := by
  constructor
  · intro pins member
    simp only [Port.fifoInstant, Option.mem_def, Option.map_eq_some_iff] at member
    obtain ⟨wbPins, edge, rfl⟩ := member
    refine ⟨running.1 wbPins edge, fun enabled => ?_⟩
    simp only [WbSide.wrfifoWrreq, Port.full, Bool.and_eq_true, Bool.not_eq_true'] at enabled
    exact enabled.2
  · intro pins member
    simp only [Port.fifoInstant, Option.mem_def, Option.map_eq_some_iff] at member
    obtain ⟨sdramPins, edge, rfl⟩ := member
    refine ⟨running.2 sdramPins edge, fun enabled => ?_⟩
    simp only [SdramSide.wrfifoRdreq, Port.empty, Bool.and_eq_true, Bool.not_eq_true'] at enabled
    exact enabled.2

/-- The first stage has caught every write when a request starts with a lead. -/
theorem Lead.written_le_of_caughtUp (lead : Lead p c ledger) {c' : Counts}
    (moves : Moves (p.fifoInstant e) c c') (enters : p.entersRefill e = true)
    (caughtUp : CaughtUp p e) : c.written ≤ c'.writtenSeen := by
  have read := lead.tracks.readOrder
  have written := lead.tracks.writtenOrder
  have room := lead.tracks.room
  have seen := moves.seen rfl
  cases edge : e.sdram with
  | some pins =>
      simp only [Port.fifoInstant, edge, Option.map_some, Option.isSome_some, if_true] at seen
      exact seen.ge
  | none =>
      have caught : p.wrfifo.rd.wrAddrGrayRd = p.wrfifo.wr.wrAddrGray := by
        simpa [edge] using caughtUp enters
      rw [lead.tracks.wrAddrGrayRd, lead.tracks.wrAddrGray, eq_comm,
        GrayCode.pointer_eq_iff_of_lt written.2.2.2 (by omega)] at caught
      simp only [Port.fifoInstant, edge, Option.map_none, Option.isSome_none, Bool.false_eq_true,
        if_false] at seen
      rw [seen]
      exact caught.le

/-- **One instant keeps the lead.** -/
theorem Lead.step (handshake : Handshake p) (lead : Lead p c ledger) (running : Running e)
    (caughtUp : CaughtUp p e) : ∃ c', Lead (p.step e) c' (ledger.record p e) := by
  obtain ⟨c', tracks, moves⟩ := lead.tracks.step (by decide) (fifoInstant_permitted running)
  obtain ⟨-, request⟩ := handshake.readReqWb_step running
  obtain ⟨seen, synced⟩ := readReq_stages_step p e
  have written := lead.tracks.writtenOrder
  have before := lead.atRefill
  have shownMoves := moves.shown
  have syncMoves := moves.sync
  have seenMoves := moves.seen rfl
  have isSome : (p.fifoInstant e).rd.isSome = e.sdram.isSome := by simp [Port.fifoInstant]
  rw [isSome] at shownMoves syncMoves seenMoves
  refine ⟨c', tracks, ?_, ?_, ?_, ?_, ?_, ?_⟩
  · rw [moves.written, lead.pushed, Ledger.record]
  · rw [moves.read, lead.popped, Ledger.record]
  · simp only [Ledger.record]
    split <;> omega
  all_goals
    by_cases enters : p.entersRefill e = true
    · -- A new request: the path behind it is empty, and the pointer has its lead.
      have caught := lead.written_le_of_caughtUp moves enters caughtUp
      obtain ⟨pins, edge, here⟩ : ∃ pins, e.wb = some pins ∧
          p.wb.entersRefill pins.bus = true := by
        cases edge : e.wb with
        | none => simp [Port.entersRefill, edge] at enters
        | some pins => exact ⟨pins, rfl, by simpa [Port.entersRefill, edge] using enters⟩
      obtain ⟨noRequest, noReq, noReqSdram, -⟩ := handshake.quiet_of_entersRefill here
      simp only [Ledger.record, enters, if_true]
      have := lead.pushed
      grind
    · -- The request and the pointer move through their stages side by side.
      have same : (ledger.record p e).atRefill = ledger.atRefill := by
        simp [Ledger.record, enters]
      rw [same]
      have kept : (p.step e).wb.readReqWb = true → p.wb.readReqWb = true := by
        rw [request]
        cases edge : e.wb with
        | none => exact id
        | some pins =>
            have : p.wb.entersRefill pins.bus = false := by
              simpa [Port.entersRefill, edge] using enters
            simp [this]
            exact fun up _ => up
      have requestLead := lead.request
      have seenLead := lead.seen
      have syncedLead := lead.synced
      grind

/-- A request that the SDRAM machine serves has every earlier write before it. -/
theorem Lead.ordered (lead : Lead p c ledger) : Ordered (p, ledger) e := by
  intro _ starts
  simp only [SdramSide.startsRead, Bool.and_eq_true] at starts
  have shown : c.read = c.writtenShown := lead.tracks.emptyO.mp starts.1.2
  have := lead.synced starts.2
  have := lead.popped
  show ledger.atRefill ≤ ledger.popped
  omega

/-! ## Every run -/

/-- **When every request starts with a lead of one edge, every refill is issued
after all writes the port acknowledged before asking for it**, in every run of
the two clocks. -/
theorem refill_after_writes (settled : Settled p) (instants : List Instant)
    (permitted : Trace.Always Port.step (fun p e => Running e ∧ CaughtUp p e) p instants) :
    Trace.Always (Trace.monitored Port.step Ledger.record) Ordered (p, Ledger.zero) instants := by
  refine Trace.Always.of_invariant
    (fun x : Port bw × Ledger => Handshake x.1 ∧ ∃ c, Lead x.1 c x.2)
    (fun x e ⟨handshake, c, lead⟩ allowed =>
      ⟨handshake.step allowed.1, lead.step handshake allowed.1 allowed.2⟩)
    (fun x e ⟨_, c, lead⟩ _ => lead.ordered)
    ⟨settled.handshake, Counts.zero, settled.lead⟩ (permitted.monitored Ledger.record Ledger.zero)

/-! ## A request with and without the lead -/

/-- A classic access to `0x100`. -/
def access (we : Bool) : Instant where
  wb := some ⟨false, ⟨0x100, 0xdeadbeef, 0xf, we, true, true, .classic, .linear⟩, 0, 0, 0, false⟩
  sdram := none

/-- An edge of `sdram_clk` alone. -/
def sdramEdge : Instant where
  wb := none
  sdram := some ⟨false, 0, 0, false⟩

/-- A write is acknowledged and the line is read at once, all between two edges
of `sdram_clk`: the request arrives while `empty_o` still hides the write. -/
def overtakingRun : List Instant :=
  [access true, access true, access false, sdramEdge, sdramEdge, sdramEdge]

theorem refill_overtakes_write :
    ¬ ∀ instants : List Instant, Trace.Always Port.step (fun _ e => Running e) afterReset instants →
      Trace.Always (Trace.monitored Port.step Ledger.record) Ordered (afterReset, Ledger.zero)
        instants := by
  intro always
  have ordered := always overtakingRun (by decide)
  revert ordered
  decide

/-- The same accesses with an edge of `sdram_clk` after the write. -/
def orderedRun : List Instant :=
  [access true, access true, sdramEdge, access false, sdramEdge, sdramEdge, sdramEdge, sdramEdge]

theorem refill_after_writes_orderedRun :
    Trace.Always Port.step (fun p e => Running e ∧ CaughtUp p e) afterReset orderedRun ∧
      Trace.Always (Trace.monitored Port.step Ledger.record) Ordered (afterReset, Ledger.zero)
        orderedRun := by
  have permitted :
      Trace.Always Port.step (fun p e => Running e ∧ CaughtUp p e) afterReset orderedRun := by
    decide
  exact ⟨permitted, refill_after_writes WbPort.settled_afterReset orderedRun permitted⟩

end OrpsocCores.WbPort
