import OrpsocCores.Foundation.LastAssignment
import OrpsocCores.WbPort.Coherence
import OrpsocCores.WbPortArbiter.Model

/-!
# Acknowledged writes and the buffers of the ports

`History` records what the ports acknowledge.  `HoldsAcknowledged` says that no buffer
misses an acknowledged byte two cycles later, and a run keeps it as long as the writes
of one cycle do not get in each other's way:

* the loop over the other ports keeps one write for each port (`Told`);
* a snooped write takes the RAM port from the port's own (`Apart`);
* a beat that waits for room in the FIFO is in the buffer before it is acknowledged
  (`Prompt`);
* the tag and the words of a line move at different times in a refill (`Undisturbed`).

Of the writes that are acknowledged in the same cycle, that of the port with the
greater index counts as the later one, as it does in the loop.
-/

set_option autoImplicit false

namespace OrpsocCores.WbPortArbiter

open Wishbone WbPort

variable {n : Nat} {bw : Fin n → Nat}

/-! ## What has been acknowledged -/

/-- What the ports have acknowledged, up to the last cycle and up to the one before,
and the beats of the last cycle that were not acknowledged. -/
structure History (n : Nat) where
  settled : Acked
  recent : Acked
  held : Fin n → Option Bus

def History.empty : History n := ⟨fun _ _ => none, fun _ _ => none, fun _ => none⟩

namespace Arbiter

/-- Port `k` acknowledges a write at this edge. -/
def acksWrite (s : Arbiter bw) (inputs : WbInputs n) (k : Fin n) : Bool :=
  (inputs.bus k).writes && s.wbAckO k

/-- One more edge of `wb_clk`. -/
def ackedAfter (s : Arbiter bw) (inputs : WbInputs n) (recent : Acked) : Acked :=
  (List.finRange n).foldl
    (fun acked j => if s.acksWrite inputs j then acked.set (writeOf (inputs.bus j)) else acked)
    recent

/-- The recorder. -/
def record (s : Arbiter bw) (e : Instant n) (h : History n) : History n :=
  match e.wb with
  | none => h
  | some inputs =>
      { settled := h.recent
        recent := s.ackedAfter inputs h.recent
        held := fun k =>
          if (inputs.bus k).writes && !s.wbAckO k then some (inputs.bus k) else none }

/-- The arbiter beside the recorder. -/
def recorded : Arbiter bw × History n → Instant n → Arbiter bw × History n :=
  Trace.monitored step record

end Arbiter

/-- Every buffer has, of every byte that it covers and marks clean, the value that was
acknowledged before the last cycle or the one acknowledged since. -/
def HoldsAcknowledged (s : Arbiter bw) (h : History n) : Prop :=
  ∀ k adr b v, (s.ports k).covers adr = true → h.settled (wordAdr adr) b = some v →
    lane ((s.ports k).bufram (wordOf (bw k) adr)) b = v ∨
      h.recent (wordAdr adr) b = some (lane ((s.ports k).bufram (wordOf (bw k) adr)) b)

/-! ## The steps of a run -/

/-- The write on its way to a port. -/
def Bufw.write (slot : Bufw) : Option Write :=
  if slot.we then some ⟨slot.adr, slot.dat, slot.sel⟩ else none

/-- What masters and memory owe: no reset, a beat is presented until it is acknowledged,
the acknowledge of a read is not taken for that of a write, and a refill brings every
word of the line in time, with the bytes acknowledged so far. -/
structure Faithful (s : Arbiter bw) (h : History n) (e : Instant n) : Prop where
  running : ∀ k, Running (s.portInstant e k)
  holds : ∀ inputs ∈ e.wb, ∀ k, ∀ bus ∈ h.held k, inputs.bus k = bus
  reads : ∀ inputs ∈ e.wb, ∀ k, (s.ports k).wb.wbReadAck = true → (inputs.bus k).writes = false
  line : ∀ k, DeliversLine (s.ports k) (s.portInstant e k)
  stored : ∀ k, StoresLine (s.ports k) (s.portInstant e k)
  latest : ∀ k, DeliversLatest (s.ports k) h.recent (s.portInstant e k)

/-- A port with a greater index does not present a write while that of port `j` is
acknowledged, unless its line is of no concern to the third port. -/
def Told (s : Arbiter bw) (inputs : WbInputs n) : Prop :=
  ∀ k i j, s.acksWrite inputs j = true → j ≠ k → i ≠ k → j < i →
    (inputs.bus i).writes = true → (s.ports k).concerns (inputs.bus j).adr = false

instance (s : Arbiter bw) (inputs : WbInputs n) : Decidable (Told s inputs) :=
  inferInstanceAs (Decidable (∀ _ _ _, _ → _ → _ → _ → _ → _))

/-- Two ports do not acknowledge writes to a line that one of them holds, unless that
one stores its own at this edge and the bytes differ. -/
def Apart (s : Arbiter bw) (inputs : WbInputs n) : Prop :=
  ∀ k j, s.acksWrite inputs k = true → (s.ports k).wb.bufhit (inputs.bus k).adr = true →
    j ≠ k → s.acksWrite inputs j = true →
      lineOf (bw k) (inputs.bus j).adr = (s.ports k).wb.bufAdr →
        (s.ports k).StoresBeat (s.bufw k).write (inputs.bus k) ∧
          ∀ b : Fin 4, (inputs.bus k).sel.getLsbD b = true →
            ¬(writeOf (inputs.bus j)).Covers (inputs.bus k).adr b

instance (s : Arbiter bw) (inputs : WbInputs n) : Decidable (Apart s inputs) :=
  inferInstanceAs (Decidable (∀ _ _, _ → _ → _ → _ → _ → _))

/-- A beat that is being stored has been acknowledged or is now. -/
def Prompt (s : Arbiter bw) (h : History n) : Prop :=
  ∀ k, (h.held k).isSome = true → (s.ports k).wb.wbWriteBufram = true →
    (s.ports k).wb.hit (s.bufw k).write = none → s.wbAckO k = true

instance (s : Arbiter bw) (h : History n) : Decidable (Prompt s h) :=
  inferInstanceAs (Decidable (∀ _, _ → _ → _ → _))

/-- The writes of one cycle do not get in each other's way. -/
structure Unhindered (s : Arbiter bw) (h : History n) (e : Instant n) : Prop where
  told : ∀ inputs ∈ e.wb, Told s inputs
  apart : ∀ inputs ∈ e.wb, Apart s inputs
  prompt : e.wb.isSome = true → Prompt s h
  undisturbed : e.wb.isSome = true → ∀ k, Undisturbed (s.ports k) (s.bufw k).write

instance (s : Arbiter bw) (h : History n) (e : Instant n) : Decidable (Faithful s h e) :=
  decidable_of_iff
    ((∀ k, Running (s.portInstant e k)) ∧
      (∀ inputs ∈ e.wb, ∀ k, ∀ bus ∈ h.held k, inputs.bus k = bus) ∧
      (∀ inputs ∈ e.wb, ∀ k, (s.ports k).wb.wbReadAck = true → (inputs.bus k).writes = false) ∧
      (∀ k, DeliversLine (s.ports k) (s.portInstant e k)) ∧
      (∀ k, StoresLine (s.ports k) (s.portInstant e k)) ∧
      ∀ k, DeliversLatest (s.ports k) h.recent (s.portInstant e k))
    ⟨fun ⟨running, holds, reads, line, stored, latest⟩ =>
      ⟨running, holds, reads, line, stored, latest⟩,
    fun ⟨running, holds, reads, line, stored, latest⟩ =>
      ⟨running, holds, reads, line, stored, latest⟩⟩

instance (s : Arbiter bw) (h : History n) (e : Instant n) : Decidable (Unhindered s h e) :=
  decidable_of_iff
    ((∀ inputs ∈ e.wb, Told s inputs) ∧ (∀ inputs ∈ e.wb, Apart s inputs) ∧
      (e.wb.isSome = true → Prompt s h) ∧
      (e.wb.isSome = true → ∀ k, Undisturbed (s.ports k) (s.bufw k).write))
    ⟨fun ⟨told, apart, prompt, undisturbed⟩ => ⟨told, apart, prompt, undisturbed⟩,
    fun ⟨told, apart, prompt, undisturbed⟩ => ⟨told, apart, prompt, undisturbed⟩⟩

/-! ## The two loops -/

section

variable {s : Arbiter bw} {e : Instant n} {h : History n} {inputs : WbInputs n}

/-- The latest acknowledged value of a byte is that of the last port that set it. -/
theorem outcome_ackedAfter (s : Arbiter bw) (inputs : WbInputs n) (recent : Acked)
    (adr : BitVec 32) (b : Fin 4) :
    LastAssignment.Outcome
      (fun j => s.acksWrite inputs j = true ∧ (writeOf (inputs.bus j)).Covers adr b)
      (fun j => some (lane (inputs.bus j).dat b)) (recent (wordAdr adr) b) (List.finRange n)
      (s.ackedAfter inputs recent (wordAdr adr) b) := by
  have commutes : ∀ ports : List (Fin n), ∀ acked : Acked,
      ports.foldl (fun acked j =>
        if s.acksWrite inputs j then acked.set (writeOf (inputs.bus j)) else acked) acked
          (wordAdr adr) b =
      ports.foldl (fun byte j =>
        if s.acksWrite inputs j = true ∧ (writeOf (inputs.bus j)).Covers adr b then
          some (lane (inputs.bus j).dat b) else byte) (acked (wordAdr adr) b) := by
    intro ports
    induction ports with
    | nil => exact fun _ => rfl
    | cons j ports ih =>
        intro acked
        rw [List.foldl_cons, List.foldl_cons, ih]
        congr 1
        by_cases acks : s.acksWrite inputs j = true
        · simp only [acks, if_true, true_and]
          rfl
        · simp [acks]
  rw [Arbiter.ackedAfter, commutes]
  exact LastAssignment.outcome_finRange (fun _ _ => rfl) _

/-- The write on its way to port `k` is that of the last other port that presented one. -/
theorem outcome_bufwAfter (s : Arbiter bw) (inputs : WbInputs n) (k : Fin n) :
    LastAssignment.Outcome (fun j => j ≠ k ∧ (inputs.bus j).writes = true)
      (fun j => ⟨(inputs.bus j).adr, (inputs.bus j).dat, (inputs.bus j).sel, s.wbAckO j⟩)
      (⟨0, 0, 0, false⟩ : Bufw) (List.finRange n) (s.bufwAfter inputs k) :=
  LastAssignment.outcome_finRange (fun _ _ => rfl) _

theorem writes_of_acksWrite {j : Fin n} (acks : s.acksWrite inputs j = true) :
    (inputs.bus j).writes = true ∧ s.wbAckO j = true :=
  Bool.and_eq_true_iff.mp acks

/-- A snooped write is one that another port acknowledged and no later one presented
against. -/
theorem slot_of_bufwAfter {k : Fin n} {w : Write} (slot : (s.bufwAfter inputs k).write = some w) :
    ∃ j, j ≠ k ∧ s.acksWrite inputs j = true ∧ w = writeOf (inputs.bus j) ∧
      ∀ i, j < i → i ≠ k → (inputs.bus i).writes = false := by
  cases outcome_bufwAfter s inputs k with
  | kept _ same => simp [same, Bufw.write] at slot
  | assigned j _ presents last same =>
      rw [same, Bufw.write] at slot
      by_cases acks : s.wbAckO j = true
      · rw [if_pos acks] at slot
        refine ⟨j, presents.1, by rw [Arbiter.acksWrite, presents.2, acks]; rfl,
          (Option.some.inj slot).symm, ?_⟩
        intro i after other
        rw [← Bool.not_eq_true]
        exact fun writes => last i (List.mem_finRange i) after ⟨other, writes⟩
      · rw [if_neg acks] at slot
        cases slot

/-- A write that another port acknowledged is on its way to port `k`, or the port with a
greater index that presented one has taken its place. -/
theorem bufwAfter_of_acksWrite {j k : Fin n} (acks : s.acksWrite inputs j = true) (other : j ≠ k) :
    (s.bufwAfter inputs k).write = some (writeOf (inputs.bus j)) ∨
      ∃ i, i ≠ k ∧ j < i ∧ (inputs.bus i).writes = true := by
  obtain ⟨writes, acked⟩ := writes_of_acksWrite acks
  cases outcome_bufwAfter s inputs k with
  | kept silent => exact absurd ⟨other, writes⟩ (silent j (List.mem_finRange j))
  | assigned i _ presents last same =>
      by_cases here : i = j
      · left
        rw [same, here, Bufw.write, if_pos acked]
        rfl
      · refine Or.inr ⟨i, presents.1, ?_, presents.2⟩
        refine lt_of_le_of_ne (not_lt.mp fun before => ?_) (Ne.symm here)
        exact last j (List.mem_finRange j) before ⟨other, writes⟩

/-! ## An instant -/

/-- What port `k` knows beside its registers. -/
def Arbiter.view (s : Arbiter bw) (h : History n) (k : Fin n) : View :=
  ⟨(s.bufw k).write, h.settled, h.recent, h.held k⟩

/-- The inputs of port `k` at an edge of `wb_clk`. -/
def Arbiter.portPins (s : Arbiter bw) (inputs : WbInputs n) (k : Fin n) : WbPins where
  wbRst := inputs.wbRst
  bus := inputs.bus k
  bufwAdrI := (s.bufw k).adr
  bufwDatI := (s.bufw k).dat
  bufwSelI := (s.bufw k).sel
  bufwWeI := (s.bufw k).we

/-- Addresses of one word concern a port alike. -/
theorem concerns_of_covers {bw : Nat} {p : Port bw} {w : Write} {adr : BitVec 32} {b : Fin 4}
    (covers : w.Covers adr b) : p.concerns w.adr = p.concerns adr := by
  rw [Port.concerns, Port.concerns, covers.bufhit_eq p.wb, ((wordAdr_eq_iff bw _ _).mp covers.1).1]

/-- A write of another port to a word that concerns port `k` is on its way to it. -/
theorem Unhindered.on_its_way (unhindered : Unhindered s h e) (edge : e.wb = some inputs)
    {j k : Fin n} (acks : s.acksWrite inputs j = true) (other : j ≠ k) {adr : BitVec 32} {b : Fin 4}
    (covers : (writeOf (inputs.bus j)).Covers adr b)
    (concerned : (s.ports k).concerns adr = true) :
    (s.bufwAfter inputs k).write = some (writeOf (inputs.bus j)) := by
  rcases bufwAfter_of_acksWrite acks other with slot | ⟨i, third, after, writes⟩
  · exact slot
  · have apart := unhindered.told inputs edge k i j acks other third after writes
    have same := concerns_of_covers (p := s.ports k) covers
    rw [concerned] at same
    exact absurd (same.symm.trans apart) (by simp)

/-- **What an edge of `wb_clk` is to port `k`.** -/
theorem Unhindered.heardBy (faithful : Faithful s h e) (unhindered : Unhindered s h e)
    (edge : e.wb = some inputs) (k : Fin n) :
    Heard (s.ports k) (s.portPins inputs k) (s.view h k)
      ((s.step e).view (s.record e h) k) := by
  have slot' : ((s.step e).view (s.record e h) k).slot = (s.bufwAfter inputs k).write := by
    simp [Arbiter.view, Arbiter.step, edge]
  have recent' : ((s.step e).view (s.record e h) k).recent = s.ackedAfter inputs h.recent := by
    simp [Arbiter.view, Arbiter.record, edge]
  have acksWrite : (s.ports k).acksWrite (s.portPins inputs k) = s.acksWrite inputs k := rfl
  constructor
  case snooped => rfl
  case holds =>
      intro bus held stores free
      exact ⟨faithful.holds inputs edge k bus held,
        unhindered.prompt (by simp [edge]) k (by rw [show h.held k = some bus from held]; rfl)
          stores free⟩
  case reads => exact faithful.reads inputs edge k
  case settled => simp [Arbiter.view, Arbiter.record, edge]
  case held => simp [Arbiter.view, Arbiter.record, edge, Arbiter.portPins, Arbiter.wbAckO]
  case grown =>
      intro adr b old
      rw [recent']
      cases outcome_ackedAfter s inputs h.recent adr b with
      | kept _ same =>
          rw [same]
          exact old
      | assigned _ _ _ _ same => simp [same]
  case kept =>
      intro adr b concerned own nobody
      rw [slot'] at nobody
      rw [recent']
      cases outcome_ackedAfter s inputs h.recent adr b with
      | kept _ same => exact same
      | assigned j _ sets last same =>
          by_cases here : j = k
          · subst here
            exact absurd sets own
          · exact absurd sets.2
              (nobody _ (unhindered.on_its_way edge sets.1 here sets.2 concerned))
  case own =>
      intro adr b concerned acks covers nobody
      rw [slot'] at nobody
      rw [recent']
      cases outcome_ackedAfter s inputs h.recent adr b with
      | kept silent _ => exact absurd ⟨acks, covers⟩ (silent k (List.mem_finRange k))
      | assigned j _ sets last same =>
          by_cases here : j = k
          · rw [same, here]
            rfl
          · exact absurd sets.2
              (nobody _ (unhindered.on_its_way edge sets.1 here sets.2 concerned))
  case other =>
      intro adr b w slot covers own
      rw [slot'] at slot
      rw [recent']
      obtain ⟨j, other, acks, rfl, alone⟩ := slot_of_bufwAfter slot
      cases outcome_ackedAfter s inputs h.recent adr b with
      | kept silent _ => exact absurd ⟨acks, covers⟩ (silent j (List.mem_finRange j))
      | assigned i _ sets last same =>
          have before : ¬i < j := fun before => last j (List.mem_finRange j) before ⟨acks, covers⟩
          have after : ¬j < i := by
            intro after
            by_cases third : i = k
            · subst third
              exact own sets
            · have silent := alone i after third
              rw [(writes_of_acksWrite sets.1).1] at silent
              cases silent
          rw [same, le_antisymm (not_lt.mp after) (not_lt.mp before)]
          rfl
  case apart =>
      intro acks hits w slot line
      rw [slot'] at slot
      obtain ⟨j, other, acks', rfl, -⟩ := slot_of_bufwAfter slot
      exact unhindered.apart inputs edge k j acks hits other acks' line
  case undisturbed => exact unhindered.undisturbed (by simp [edge]) k

/-- The buffers of all ports are coherent. -/
def Coherent (s : Arbiter bw) (h : History n) : Prop :=
  ∀ k, WbPort.Coherent (s.ports k) (s.view h k)

theorem Coherent.step (coherent : Coherent s h) (faithful : Faithful s h e)
    (unhindered : Unhindered s h e) : Coherent (s.step e) (s.record e h) := by
  intro k
  have running := faithful.running k
  cases edge : e.wb with
  | none =>
      have same : (s.step e).view (s.record e h) k = s.view h k := by
        simp [Arbiter.view, Arbiter.step, Arbiter.record, edge]
      rw [same]
      exact (coherent k).step_alone running (faithful.line k) (faithful.latest k)
        (by simp [Arbiter.portInstant, edge])
  | some inputs =>
      exact (coherent k).step_wb running (faithful.line k) (faithful.stored k) (faithful.latest k)
        (by simp [Arbiter.portInstant, edge, Arbiter.portPins])
        (unhindered.heardBy faithful edge k)

theorem Settled.coherent (settled : Settled s) : Coherent s History.empty := by
  intro k
  have quiet : s.view History.empty k = View.empty := by
    simp [Arbiter.view, Bufw.write, settled.bufw k, History.empty, View.empty]
  rw [quiet]
  exact (settled.ports k).coherent

/-- **Every run in which the writes of a cycle do not get in each other's way leaves no
buffer without an acknowledged byte.** -/
theorem holdsAcknowledged_of_unhindered (settled : Settled s) {run : List (Instant n)}
    (permitted : Trace.Always Arbiter.recorded
      (fun x e => Faithful x.1 x.2 e ∧ Unhindered x.1 x.2 e) (s, History.empty) run) :
    HoldsAcknowledged (Trace.after Arbiter.recorded (s, History.empty) run).1
      (Trace.after Arbiter.recorded (s, History.empty) run).2 := by
  have coherent := permitted.invariant (fun x => Coherent x.1 x.2)
    (fun _ _ coherent step => coherent.step step.1 step.2) settled.coherent
  intro k adr b v covers old
  exact (coherent k).holds covers old

end

/-! ## Three ports -/

/-- Three ports with lines of two words, at power-up. -/
def powerUp : Arbiter (n := 3) (fun _ => 1) where
  ports _ :=
    { wb := ⟨0, 0, 0, false, true, false, true, false, .read, 5, true, true, 3, 1⟩
      sdram := ⟨true, true, .write, false, false, 0, true, 3, false, 0, 0, 0⟩
      wrfifo := ⟨⟨1, 2, 3, 4, true, fun _ => 0⟩, ⟨4, 3, 2, 1, false, 0⟩⟩
      bufram := fun _ => 0
      wbDatO := 0
      wbDatX := 0 }
  bufw _ := ⟨0, 0, 0, true⟩
  portSel := 5
  portEnc := 2

/-- The ports once their resets have been held for three edges of both clocks. -/
def afterReset : Arbiter (n := 3) (fun _ => 1) :=
  Trace.after Arbiter.step powerUp [resetInstant, resetInstant, resetInstant]

/-- A classic access to all bytes of a word. -/
def access (we : Bool) (adr dat : BitVec 32) : Bus := ⟨adr, dat, 0xf, we, true, true, .classic, .linear⟩

/-- An edge of `wb_clk` alone.  Port 0 reads `0x100`. -/
def wbEdge (bus₁ bus₂ : Bus) : Instant 3 where
  wb := some
    { wbRst := false
      bus := fun
        | 0 => access false 0x100 0
        | 1 => bus₁
        | 2 => bus₂ }
  sdram := none

/-- An edge of `sdram_clk` alone. -/
def sdramEdge (ack : Bool) (adr dat : BitVec 32) : Instant 3 where
  wb := none
  sdram := some ⟨false, !ack, adr, dat, ack⟩

/-- Port 0 is refilled with the line at `0x100` while the other two drive these beats;
both words have arrived when the beats are acknowledged. -/
def refillRun (bus₁ bus₂ : Bus) : List (Instant 3) :=
  [wbEdge bus₁ bus₂, sdramEdge false 0 0, sdramEdge false 0 0, sdramEdge false 0 0,
    sdramEdge true 0x100 0x11111111, sdramEdge true 0x104 0x22222222, sdramEdge false 0 0,
    wbEdge bus₁ bus₂, wbEdge Pins.idle Pins.idle, wbEdge Pins.idle Pins.idle]

/-- Port 1 writes to the line and port 2 writes elsewhere, in the same cycle: port 0
does not hear of the first write and has the old word for good. -/
def lostRun : List (Instant 3) :=
  refillRun (access true 0x100 0xaaaaaaaa) (access true 0x200 0xbbbbbbbb)

theorem acknowledged_write_lost :
    ¬ ∀ run : List (Instant 3),
      Trace.Always Arbiter.recorded (fun x e => Faithful x.1 x.2 e) (afterReset, History.empty) run →
        HoldsAcknowledged (Trace.after Arbiter.recorded (afterReset, History.empty) run).1
          (Trace.after Arbiter.recorded (afterReset, History.empty) run).2 := by
  intro always
  have holds := always lostRun (by decide +kernel) 0 0x100 0 0xaa (by decide +kernel)
    (by decide +kernel)
  have kept : lane (((Trace.after Arbiter.recorded (afterReset, History.empty) lostRun).1.ports
      0).bufram (wordOf 1 0x100)) 0 = 0x11 := by
    -- Nothing uses the buffer RAM at the last two edges.
    refine (lane_kept rfl rfl (by decide +kernel) (by decide +kernel) _ _).trans ?_
    refine (lane_kept rfl rfl (by decide +kernel) (by decide +kernel) _ _).trans ?_
    decide +kernel
  rw [kept] at holds
  revert holds
  decide +kernel

/-- Port 1 alone writes to the line. -/
def heardRun : List (Instant 3) := refillRun (access true 0x100 0xaaaaaaaa) Pins.idle

theorem holdsAcknowledged_heardRun :
    Trace.Always Arbiter.recorded (fun x e => Faithful x.1 x.2 e ∧ Unhindered x.1 x.2 e)
        (afterReset, History.empty) heardRun ∧
      HoldsAcknowledged (Trace.after Arbiter.recorded (afterReset, History.empty) heardRun).1
        (Trace.after Arbiter.recorded (afterReset, History.empty) heardRun).2 := by
  have permitted : Trace.Always Arbiter.recorded
      (fun x e => Faithful x.1 x.2 e ∧ Unhindered x.1 x.2 e) (afterReset, History.empty)
      heardRun := by
    decide +kernel
  exact ⟨permitted, holdsAcknowledged_of_unhindered (settled_of_reset powerUp) permitted⟩

end OrpsocCores.WbPortArbiter
