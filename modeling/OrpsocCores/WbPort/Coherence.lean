import OrpsocCores.WbPort.Snooping

/-!
# A port's buffer stays coherent

One instant of a port among others, case by case: an edge of `sdram_clk` alone, and an
edge of `wb_clk` that stays outside `REFILL`, enters it, stays in it or leaves it.
-/

set_option autoImplicit false

namespace OrpsocCores.WbPort

open Wishbone

variable {bw : Nat} {p : Port bw} {e : Instant} {pins : WbPins} {view view' : View}

theorem snooped_of_edge {slot : Option Write} (edge : e.wb = some pins)
    (snooped : pins.snooped = slot) : ∀ pins' ∈ e.wb, pins'.snooped = slot := by
  intro pins' member
  rw [edge, Option.mem_some_iff] at member
  rw [← member]
  exact snooped

/-- The Wishbone side after an edge of its clock. -/
theorem wb_of_edge (running : Running e) (edge : e.wb = some pins) :
    (p.step e).wb =
      { p.wb.machine pins.bus p.full with
        readDoneR := p.sdram.readDone, readDoneWb := p.wb.readDoneR
        bufCleanR := p.sdram.bufClean, bufCleanWb := p.wb.bufCleanR } := by
  rcases wb_after (p := p) running with ⟨none, -⟩ | ⟨pins', edge', after⟩
  · rw [edge] at none
    cases none
  · obtain rfl : pins = pins' := Option.some.inj (edge.symm.trans edge')
    exact after

/-! ## Outside `REFILL` -/

/-- Outside `REFILL` an instant does not change what the buffer covers. -/
theorem LineFlags.bufhit_step (flags : LineFlags p) (running : Running e)
    (before : p.wb.wbState ≠ .refill) (adr : BitVec 32) :
    (p.step e).wb.bufhit adr = p.wb.bufhit adr := by
  rcases wb_after (p := p) running with ⟨-, same⟩ | ⟨pins, -, edge⟩
  · rw [same]
  · have clean : p.wb.bufCleanR = p.wb.bufCleanWb := by
      cases first : p.wb.firstReq with
      | true =>
          obtain ⟨-, -, cleanR, cleanWb⟩ := flags.unused first
          rw [cleanR, cleanWb]
      | false =>
          obtain ⟨-, cleanR, cleanWb⟩ := flags.complete before first
          rw [cleanR, cleanWb]
    have line : (p.wb.machine pins.bus p.full).bufAdr = p.wb.bufAdr := by
      rw [WbSide.machine_bufAdr, if_neg before]
    rw [edge]
    simp only [WbSide.bufhit, WbSide.clean, line, clean]

/-- A port that covers a word has its whole line. -/
theorem LineFlags.complete_of_bufhit (flags : LineFlags p) (outside : p.wb.wbState ≠ .refill)
    {adr : BitVec 32} (hit : p.wb.bufhit adr = true) : p.wb.bufCleanWb = BitVec.allOnes _ := by
  cases first : p.wb.firstReq with
  | true =>
      obtain ⟨-, -, -, clear⟩ := flags.unused first
      simp [WbSide.bufhit, WbSide.clean, clear] at hit
  | false => exact (flags.complete outside first).2.2

/-- An acknowledged write was armed in `WRITE` or `IDLE`. -/
theorem LineFlags.state_of_acksWrite (flags : LineFlags p)
    (reads : p.wb.wbReadAck = true → pins.bus.writes = false) (acks : p.acksWrite pins = true) :
    pins.bus.writes = true ∧ (p.wb.wbState = .write ∨ p.wb.wbState = .idle) := by
  simp only [Port.acksWrite, Bool.and_eq_true, WbSide.wbAckO, Bool.or_eq_true, WbSide.wrfifoWrreq]
    at acks
  obtain ⟨writes, read | ⟨write, -⟩⟩ := acks
  · rw [reads read] at writes
    cases writes
  · exact ⟨writes, flags.armed write⟩

/-- A port does not acknowledge a write in `REFILL`. -/
theorem LineFlags.silent (flags : LineFlags p)
    (reads : p.wb.wbReadAck = true → pins.bus.writes = false) (refills : p.wb.wbState = .refill) :
    ¬p.acksWrite pins = true := by
  intro acks
  have state := (flags.state_of_acksWrite reads acks).2
  rw [refills] at state
  rcases state with impossible | impossible <;> cases impossible

/-- Where no refill stores a word, the RAM after an edge of `wb_clk` holds the bytes
that were on their way to it. -/
theorem lane_outside {slot : Option Write} (edge : e.wb = some pins) (snooped : pins.snooped = slot)
    (stored : p.sdram.sdramWriteBufram = false) (word : BitVec bw) (b : Fin 4) :
    lane ((p.step e).bufram word) b = p.nextByte slot word b := by
  rw [lane_step (snooped_of_edge edge snooped), if_neg (by simp [stored]), if_pos (by simp [edge])]

theorem Coherent.stores_outside (coherent : Coherent p view) (running : Running e)
    (edge : e.wb = some pins) (heard : Heard p pins view view')
    (before : p.wb.wbState ≠ .refill) : Stores p (p.step e) pins view view' := by
  have same := coherent.flags.bufhit_step running before
  have stored := coherent.flags.stored before
  have line : (p.step e).wb.bufAdr = p.wb.bufAdr ∧ (p.step e).wb.wbWriteBufram =
      (p.wb.machine pins.bus p.full).wbWriteBufram ∧ (p.step e).wb.wbAdr =
      (p.wb.machine pins.bus p.full).wbAdr ∧ (p.step e).wb.wbDat =
      (p.wb.machine pins.bus p.full).wbDat ∧ (p.step e).wb.wbSel =
      (p.wb.machine pins.bus p.full).wbSel := by
    rw [wb_of_edge running edge]
    simp [WbSide.machine_bufAdr, before]
  obtain ⟨sameLine, sameStore, sameAdr, sameDat, sameSel⟩ := line
  constructor
  case concerned =>
      intro adr hit
      rw [same] at hit
      rw [Port.concerns, if_neg before]
      exact hit
  case ram =>
      intro adr b v hit latest
      rw [same] at hit
      rw [lane_outside edge heard.snooped stored]
      refine (coherent.buffered before adr b v hit latest).imp_right ?_
      rintro ⟨bus, storing⟩
      obtain ⟨presented, acked⟩ := heard.holds bus storing.held storing.stores storing.free
      have writes := coherent.held bus storing.held
      rw [← presented] at writes
      refine ⟨by rw [Port.acksWrite, writes, acked]; rfl, ?_, ?_⟩
      · rw [presented]
        exact storing.covers
      · rw [presented]
        exact storing.byte
  case beat =>
      intro stores
      rw [sameStore] at stores
      obtain ⟨writes, hits, adr, dat, sel⟩ := p.wb.machine_wbWriteBufram pins.bus p.full stores
      exact ⟨writes, (line_eq_of_bufhit hits).trans sameLine.symm, sameAdr.trans adr,
        sameDat.trans dat, sameSel.trans sel⟩
  case ack =>
      intro acks hits
      rw [same] at hits
      obtain ⟨writes, state⟩ := coherent.flags.state_of_acksWrite heard.reads acks
      refine ⟨?_, ?_⟩
      · rw [sameStore]
        exact p.wb.stores_of_ack pins.bus p.full state writes hits
          (coherent.flags.complete_of_bufhit before hits)
      · intro w slot inLine b sel
        rw [sameLine] at inLine
        obtain ⟨⟨set, free, adr, dat, sel'⟩, apart⟩ := heard.apart acks hits w slot inLine
        refine ⟨apart b sel, ?_⟩
        rw [lane_outside edge heard.snooped stored, Port.nextByte, free]
        simp only [set, adr, dat, sel']
        exact if_pos ⟨trivial, trivial, sel⟩

/-! ## Leaving `REFILL` -/

theorem Coherent.stores_leaving (coherent : Coherent p view) (running : Running e)
    (stores : StoresLine p e) (edge : e.wb = some pins) (heard : Heard p pins view view')
    (before : p.wb.wbState = .refill) (seen : p.wb.readDoneWb = true) :
    Stores p (p.step e) pins view view' := by
  have flags := coherent.flags
  have stored := stores (by simp [edge]) before seen
  obtain ⟨answer, -, -⟩ := flags.handshake.answered_of_readDoneWb before seen
  have moved : p.wb.bufAdr = lineOf bw p.wb.wbAdr := by
    rcases flags.moved before with moved | unseen
    · exact moved
    · rw [seen] at unseen
      cases unseen
  have line : (p.step e).wb.bufAdr = lineOf bw p.wb.wbAdr ∧
      (p.step e).wb.wbWriteBufram = false := by
    rw [wb_of_edge running edge]
    simp [before, WbSide.machine, WbSide.refillBranch, seen]
  constructor
  case concerned =>
      intro adr hit
      rw [Port.concerns, if_pos before, beq_iff_eq]
      exact (line_eq_of_bufhit hit).trans line.1
  case ram =>
      intro adr b v hit latest
      left
      have delivered : Delivered p adr := by
        refine ⟨by simp [SdramSide.fetching, answer], (line_eq_of_bufhit hit).trans line.1, ?_⟩
        rw [flags.done answer, BitVec.getLsbD_allOnes]
        simp [(wordOf bw adr).isLt]
      rw [lane_outside edge heard.snooped stored,
        ← coherent.refilled before adr b v delivered latest, Port.nextByte, Port.refillByte]
      cases p.wb.hit view.slot with
      | some w => simp [Port.arrivingByte, moved, stored]
      | none => simp [Port.arrivingByte, flags.waiting before, stored]
  case beat =>
      intro set
      rw [line.2] at set
      cases set
  case ack => exact fun acks => absurd acks (flags.silent heard.reads before)

/-! ## In `REFILL` -/

theorem SdramSide.machine_sampled (s : SdramSide bw) (pins : SdramPins) (empty : Bool)
    (wbAdr : BitVec 32) :
    (s.machine pins empty wbAdr).datR = pins.datI ∧
      (s.machine pins empty wbAdr).adrIR = pins.adrI := by
  cases state : s.sdramState <;>
    simp only [SdramSide.machine, state, SdramSide.idleBranch, SdramSide.readBranch,
      SdramSide.sampled] <;> grind

/-- A word with its flag set has arrived just now, or was there before the instant. -/
inductive Arrival (p : Port bw) (e : Instant) (word : BitVec bw) : Prop where
  | now (pins : SdramPins) (edge : e.sdram = some pins) (state : p.sdram.sdramState = .read)
      (ack : pins.ackI = true) (here : wordOf bw pins.adrI = word)
      (writes : (p.step e).sdram.sdramWriteBufram = true)
      (adr : (p.step e).sdram.adrIR = pins.adrI) (data : (p.step e).sdram.datR = pins.datI)
  | before (fetching : p.sdram.fetching = true)
      (clean : p.sdram.bufClean.getLsbD word.toNat = true)
      (sdram : (e.sdram = none ∧ (p.step e).sdram = p.sdram) ∨ (e.sdram.isSome = true ∧
        ¬((p.step e).sdram.sdramWriteBufram = true ∧ wordOf bw (p.step e).sdram.adrIR = word)))

theorem arrival_of_clean (running : Running e) (fetching : (p.step e).sdram.fetching = true)
    {word : BitVec bw} (clean : (p.step e).sdram.bufClean.getLsbD word.toNat = true) :
    Arrival p e word := by
  rcases sdram_after (p := p) running with ⟨none, same⟩ | ⟨pins, edge, after⟩
  · rw [same] at fetching clean
    exact .before fetching clean (Or.inl ⟨none, same⟩)
  · obtain ⟨data, adr⟩ := p.sdram.machine_sampled pins p.empty p.wb.wbAdr
    have writes : (p.step e).sdram.sdramWriteBufram = (p.sdram.sdramState == .read && pins.ackI) := by
      rw [after]
      exact p.sdram.machine_sdramWriteBufram pins p.empty p.wb.wbAdr
    have adr' : (p.step e).sdram.adrIR = pins.adrI := by rw [after]; exact adr
    have data' : (p.step e).sdram.datR = pins.datI := by rw [after]; exact data
    rw [after] at fetching clean
    simp only [SdramSide.fetching, SdramSide.machine_sdramState, SdramSide.machine_readDone,
      SdramSide.machine_bufClean] at fetching clean
    by_cases state : p.sdram.sdramState = .read
    · simp only [state] at clean
      by_cases arrives : pins.ackI = true ∧ wordOf bw pins.adrI = word
      · exact .now pins edge state arrives.1 arrives.2 (by simp [writes, state, arrives.1]) adr' data'
      · refine .before (by simp [SdramSide.fetching, state]) ?_ (Or.inr ⟨by simp [edge], ?_⟩)
        · by_cases ack : pins.ackI = true
          · have away : ¬(wordOf bw pins.adrI).toNat = word.toNat :=
              fun same => arrives ⟨ack, BitVec.eq_of_toNat_eq same⟩
            simpa [ack, BitVec.getLsbD_twoPow, away] using clean
          · simpa [ack] using clean
        · rw [writes, adr']
          simpa [state] using arrives
    · refine .before ?_ ?_ (Or.inr ⟨by simp [edge], by simp [writes, state]⟩)
      · revert fetching clean
        cases phase : p.sdram.sdramState <;> simp only [SdramSide.fetching, phase] <;> grind
      · revert fetching clean
        cases phase : p.sdram.sdramState <;> grind

section

variable {word : BitVec bw} {b : Fin 4} {slot : Option Write}

/-- A word that was there keeps its byte, unless a snooped write reaches it. -/
theorem arrivingByte_kept (snooped : ∀ pins ∈ e.wb, pins.snooped = slot)
    (waiting : p.wb.wbWriteBufram = false)
    (sdram : (e.sdram = none ∧ (p.step e).sdram = p.sdram) ∨ (e.sdram.isSome = true ∧
      ¬((p.step e).sdram.sdramWriteBufram = true ∧ wordOf bw (p.step e).sdram.adrIR = word)))
    (away : e.wb.isSome = true → ∀ w, p.wb.hit slot = some w → wordOf bw w.adr ≠ word) :
    (p.step e).arrivingByte word b = p.arrivingByte word b := by
  have ram : (if e.wb.isSome = true then p.nextByte slot word b else lane (p.bufram word) b) =
      lane (p.bufram word) b := by
    split
    case isTrue edge =>
        rw [Port.nextByte]
        cases hit : p.wb.hit slot with
        | none => simp [waiting]
        | some w => exact if_neg fun both => away edge w hit both.1
    case isFalse => rfl
  rw [Port.arrivingByte, lane_step snooped, ram, Port.arrivingByte]
  rcases sdram with ⟨none, same⟩ | ⟨edge, other⟩
  · simp [same, none]
  · simp [edge, other]

/-- A snooped write to a word that is in the RAM already is stored. -/
theorem arrivingByte_snooped (snooped : ∀ pins ∈ e.wb, pins.snooped = slot)
    (sdram : (e.sdram = none ∧ (p.step e).sdram = p.sdram) ∨ (e.sdram.isSome = true ∧
      ¬((p.step e).sdram.sdramWriteBufram = true ∧ wordOf bw (p.step e).sdram.adrIR = word)))
    (edge : e.wb.isSome = true) {w : Write} (hit : p.wb.hit slot = some w)
    (here : wordOf bw w.adr = word)
    (away : ¬(p.sdram.sdramWriteBufram = true ∧ wordOf bw p.sdram.adrIR = word)) :
    (p.step e).arrivingByte word b =
      if w.sel.getLsbD b = true then lane w.dat b else lane (p.bufram word) b := by
  have stays : ¬((p.step e).sdram.sdramWriteBufram = true ∧
      wordOf bw (p.step e).sdram.adrIR = word) := by
    rcases sdram with ⟨-, same⟩ | ⟨-, other⟩
    · rw [same]
      exact away
    · exact other
  rw [Port.arrivingByte, if_neg stays, lane_step snooped, if_neg (fun stored => away stored.2),
    if_pos edge, Port.nextByte, hit]
  simp [here]

end

/-- What arrives has the acknowledged bytes. -/
theorem DeliversLatest.byte (latest : DeliversLatest p view.recent e) {pins : SdramPins}
    (edge : e.sdram = some pins) (state : p.sdram.sdramState = .read) (ack : pins.ackI = true)
    {adr : BitVec 32} {b : Fin 4} {v : BitVec 8} (line : lineOf bw adr = lineOf bw p.wb.wbAdr)
    (here : wordOf bw pins.adrI = wordOf bw adr)
    (recent : view.recent (wordAdr adr) b = some v) : lane pins.datI b = v := by
  refine latest pins edge state ack b v ?_
  rw [here, ← line, wordAt_lineOf]
  exact recent

/-- An edge of `sdram_clk` alone changes no byte of a word that is there, and brings
the acknowledged ones of a new word. -/
theorem Coherent.arrivingByte_alone (coherent : Coherent p view) (running : Running e)
    (alone : e.wb = none) (refills : p.wb.wbState = .refill)
    (latest : DeliversLatest p view.recent e) {adr : BitVec 32} (b : Fin 4)
    (delivered : Delivered (p.step e) adr) :
    (Delivered p adr ∧
        (p.step e).arrivingByte (wordOf bw adr) b = p.arrivingByte (wordOf bw adr) b) ∨
      ∀ v, view.recent (wordAdr adr) b = some v →
        (p.step e).arrivingByte (wordOf bw adr) b = v := by
  have same : (p.step e).wb = p.wb := by simp [Port.step, alone]
  have line := delivered.line
  rw [same] at line
  cases arrival_of_clean running delivered.fetching delivered.clean with
  | now pins edge state ack here writes sameAdr sameData =>
      right
      intro v recent
      rw [Port.arrivingByte, sameAdr, sameData, if_pos ⟨writes, here⟩]
      exact latest.byte edge state ack line here recent
  | before fetching clean sdram =>
      have snooped : ∀ pins ∈ e.wb, pins.snooped = view.slot := by simp [alone]
      exact Or.inl ⟨⟨fetching, line, clean⟩,
        arrivingByte_kept snooped (coherent.flags.waiting refills) sdram (by simp [alone])⟩

theorem Coherent.refilled_alone (coherent : Coherent p view) (running : Running e)
    (alone : e.wb = none) (refills : p.wb.wbState = .refill)
    (latest : DeliversLatest p view.recent e) : Refilled (p.step e) view := by
  intro adr b v delivered recent
  have same : (p.step e).wb = p.wb := by simp [Port.step, alone]
  have line := delivered.line
  rw [same] at line
  have byte : p.refillByte view.slot (wordOf bw adr) b = p.arrivingByte (wordOf bw adr) b →
      (p.step e).arrivingByte (wordOf bw adr) b = v := by
    intro missed
    rcases coherent.arrivingByte_alone running alone refills latest b delivered with
      ⟨before, kept⟩ | arrives
    · rw [kept, ← missed]
      exact coherent.refilled refills adr b v before recent
    · exact arrives v recent
  rw [Port.refillByte, same]
  rw [Port.refillByte] at byte
  cases hit : p.wb.hit view.slot with
  | none =>
      rw [hit] at byte
      exact byte rfl
  | some w =>
      rw [hit] at byte
      simp only at byte ⊢
      split
      case isTrue both =>
          obtain ⟨slot, inLine⟩ := WbSide.hit_eq_some.mp hit
          have covers : w.Covers adr b :=
            ⟨(wordAdr_eq_iff bw _ _).mpr ⟨inLine.trans (both.1.trans line.symm), both.2.1⟩,
              both.2.2⟩
          have own := coherent.slotted refills adr b w slot covers
          exact Option.some.inj (own.symm.trans recent)
      case isFalse missed => exact byte (if_neg missed)

theorem Coherent.arrived_alone (coherent : Coherent p view) (running : Running e)
    (alone : e.wb = none) (refills : p.wb.wbState = .refill)
    (latest : DeliversLatest p view.recent e) : Arrived (p.step e) view := by
  intro adr b v delivered old
  rcases coherent.arrivingByte_alone running alone refills latest b delivered with
    ⟨before, kept⟩ | arrives
  · rw [kept]
    exact coherent.arrived refills adr b v before old
  · obtain ⟨latest', recent⟩ :=
      Option.isSome_iff_exists.mp (coherent.grown adr b (by simp [old]))
    right
    rw [arrives latest' recent]
    exact recent

/-- An edge of `wb_clk` in `REFILL` leaves a delivered word the bytes that were
acknowledged before it. -/
theorem Coherent.arrivingByte_stays (coherent : Coherent p view) (running : Running e)
    (edge : e.wb = some pins) (heard : Heard p pins view view')
    (refills : p.wb.wbState = .refill) (latest : DeliversLatest p view.recent e)
    {adr : BitVec 32} {b : Fin 4} {v : BitVec 8} (delivered : Delivered (p.step e) adr)
    (recent : view.recent (wordAdr adr) b = some v) :
    (p.step e).arrivingByte (wordOf bw adr) b = v := by
  have line := delivered.line
  rw [wb_of_edge running edge] at line
  simp only [WbSide.machine_wbAdr_refill _ _ _ refills] at line
  cases arrival_of_clean running delivered.fetching delivered.clean with
  | now pins' edge' state ack here writes sameAdr sameData =>
      rw [Port.arrivingByte, sameAdr, sameData, if_pos ⟨writes, here⟩]
      exact latest.byte edge' state ack line here recent
  | before fetching clean sdram =>
      have snooped := snooped_of_edge edge heard.snooped
      have waiting := coherent.flags.waiting refills
      have refilled := coherent.refilled refills adr b v ⟨fetching, line, clean⟩ recent
      rw [Port.refillByte] at refilled
      cases hit : p.wb.hit view.slot with
      | none =>
          rw [hit] at refilled
          rw [arrivingByte_kept snooped waiting sdram (by simp [hit])]
          exact refilled
      | some w =>
          simp only [hit] at refilled
          by_cases here : wordOf bw w.adr = wordOf bw adr
          · -- The snooped write meets a word of the new line that is in the RAM already.
            obtain ⟨sameLine, away⟩ :=
              heard.undisturbed w hit refills fetching (by rw [here]; exact clean)
            rw [here] at away
            rw [arrivingByte_snooped snooped sdram (by simp [edge]) hit here away, ← refilled,
              Port.arrivingByte, if_neg away]
            simp [sameLine, here]
          · rw [if_neg (fun both => here both.2.1)] at refilled
            rw [← refilled]
            refine arrivingByte_kept snooped waiting sdram ?_
            intro _ w' same
            rw [hit] at same
            rw [← Option.some.inj same]
            exact here

theorem Coherent.refilled_stays (coherent : Coherent p view) (running : Running e)
    (edge : e.wb = some pins) (heard : Heard p pins view view')
    (refills : p.wb.wbState = .refill) (latest : DeliversLatest p view.recent e) :
    Refilled (p.step e) view' := by
  intro adr b v delivered recent
  have registers : (p.step e).wb.bufAdr = lineOf bw p.wb.wbAdr ∧
      (p.step e).wb.wbAdr = p.wb.wbAdr := by
    rw [wb_of_edge running edge]
    simp [WbSide.machine_bufAdr, refills, WbSide.machine_wbAdr_refill]
  obtain ⟨moved, kept⟩ := registers
  have line := delivered.line
  rw [kept] at line
  have silent : ¬(p.acksWrite pins = true ∧ (writeOf pins.bus).Covers adr b) :=
    fun own => coherent.flags.silent heard.reads refills own.1
  rw [Port.refillByte]
  by_cases other : ∃ w, view'.slot = some w ∧ w.Covers adr b
  · obtain ⟨w, slot, covers⟩ := other
    obtain ⟨sameLine, sameWord⟩ := (wordAdr_eq_iff bw _ _).mp covers.1
    have hit : (p.step e).wb.hit view'.slot = some w :=
      WbSide.hit_eq_some.mpr ⟨slot, (sameLine.trans line).trans moved.symm⟩
    rw [heard.other adr b w slot covers silent] at recent
    rw [hit]
    simp only
    rw [if_pos ⟨by rw [moved, kept], sameWord, covers.2⟩]
    exact Option.some.inj recent
  · have nobody : ∀ w, view'.slot = some w → ¬w.Covers adr b :=
      fun w slot covers => other ⟨w, slot, covers⟩
    have concerned : p.concerns adr = true := by
      rw [Port.concerns, if_pos refills, beq_iff_eq]
      exact line
    rw [heard.kept adr b concerned silent nobody] at recent
    have byte := coherent.arrivingByte_stays running edge heard refills latest delivered recent
    cases hit : (p.step e).wb.hit view'.slot with
    | none => exact byte
    | some w =>
        obtain ⟨slot, sameLine⟩ := WbSide.hit_eq_some.mp hit
        simp only
        rw [if_neg]
        · exact byte
        · rintro ⟨-, sameWord, sel⟩
          exact nobody w slot ⟨(wordAdr_eq_iff bw _ _).mpr
            ⟨(sameLine.trans moved).trans line.symm, sameWord⟩, sel⟩

/-- A port that enters `REFILL` has not begun to fetch. -/
theorem LineFlags.not_fetching (flags : LineFlags p) (running : Running e) {bus : Bus}
    (enters : p.wb.entersRefill bus = true) : (p.step e).sdram.fetching = false := by
  obtain ⟨-, -, synced, answer, -⟩ := flags.handshake.quiet_of_entersRefill enters
  have outside : p.wb.wbState ≠ .refill := by
    simp [(WbSide.idle_of_entersRefill enters).1]
  have reading := (flags.handshake.not_reading outside).1
  rcases sdram_after (p := p) running with ⟨-, same⟩ | ⟨pins, -, after⟩
  · simp [same, SdramSide.fetching, reading, answer]
  · rw [after]
    simp only [SdramSide.fetching, SdramSide.machine_sdramState, SdramSide.machine_readDone,
      synced, answer]
    cases phase : p.sdram.sdramState <;> grind

/-! ## An instant -/

/-- **An edge of `sdram_clk` alone keeps the buffer coherent.** -/
theorem Coherent.step_alone (coherent : Coherent p view) (running : Running e)
    (delivers : DeliversLine p e) (latest : DeliversLatest p view.recent e)
    (alone : e.wb = none) : Coherent (p.step e) view := by
  have same : (p.step e).wb = p.wb := by simp [Port.step, alone]
  have ram : p.wb.wbState ≠ .refill → (p.step e).bufram = p.bufram := by
    intro outside
    have stored := coherent.flags.stored outside
    simp [Port.step, alone, Port.buframSdram, stored]
  constructor
  case flags => exact coherent.flags.step running delivers (by simp [StoresLine, alone])
  case held => exact coherent.held
  case grown => exact coherent.grown
  case buffered =>
      intro outside
      rw [same] at outside
      intro adr b v hit recent
      rw [same] at hit
      have next : ∀ word, (p.step e).nextByte view.slot word b = p.nextByte view.slot word b := by
        intro word
        rw [Port.nextByte, same, ram outside]
        rfl
      rw [next]
      refine (coherent.buffered outside adr b v hit recent).imp_right ?_
      rintro ⟨bus, held, covers, stores, free, byte⟩
      exact ⟨bus, held, covers, by rw [same]; exact stores, by rw [same]; exact free,
        (next _).trans byte⟩
  case served =>
      intro outside
      rw [same] at outside
      intro adr b v
      rw [same, ram outside]
      exact coherent.served outside adr b v
  case slotted =>
      intro refills
      rw [same] at refills
      exact coherent.slotted refills
  case refilled =>
      intro refills
      rw [same] at refills
      exact coherent.refilled_alone running alone refills latest
  case arrived =>
      intro refills
      rw [same] at refills
      exact coherent.arrived_alone running alone refills latest

/-- **An edge of `wb_clk` keeps the buffer coherent.** -/
theorem Coherent.step_wb (coherent : Coherent p view) (running : Running e)
    (delivers : DeliversLine p e) (stores : StoresLine p e)
    (latest : DeliversLatest p view.recent e) (edge : e.wb = some pins)
    (heard : Heard p pins view view') : Coherent (p.step e) view' := by
  have outside : (p.step e).wb.wbState ≠ .refill →
      Stores p (p.step e) pins view view' := by
    intro after
    rcases LineFlags.outside_step running after with ⟨before, -⟩ | ⟨refills, seen, -⟩
    · exact coherent.stores_outside running edge heard before
    · exact coherent.stores_leaving running stores edge heard refills seen
  have inside : (p.step e).wb.wbState = .refill →
      p.wb.entersRefill pins.bus = true ∨ p.wb.wbState = .refill := by
    intro after
    rw [wb_of_edge running edge] at after
    refine ((p.wb.machine_wbState_refill pins.bus p.full).mp after).imp_right fun stays => ?_
    simp only [WbSide.staysInRefill, Bool.and_eq_true, beq_iff_eq] at stays
    exact stays.1
  constructor
  case flags => exact coherent.flags.step running delivers stores
  case held =>
      intro bus held
      rw [heard.held] at held
      split at held
      case isTrue writes =>
          rw [← Option.some.inj held]
          exact (Bool.and_eq_true_iff.mp writes).1
      case isFalse => cases held
  case grown =>
      intro adr b old
      rw [heard.settled] at old
      exact heard.grown adr b old
  case buffered => exact fun after => (outside after).buffered heard
  case served => exact fun after => (outside after).served heard
  case slotted =>
      intro after adr b w slot covers
      refine heard.other adr b w slot covers fun own => ?_
      rcases inside after with enters | refills
      · obtain ⟨writes, -⟩ := coherent.flags.state_of_acksWrite heard.reads own.1
        simp only [WbSide.entersRefill, Bool.and_eq_true] at enters
        have reads := enters.1.1.1.2
        simp only [Pins.reads, Pins.writes, Bool.and_eq_true, Bool.not_eq_true'] at reads writes
        rw [writes.2] at reads
        cases reads.2
      · exact coherent.flags.silent heard.reads refills own.1
  case refilled =>
      intro after
      rcases inside after with enters | refills
      · intro adr b v delivered
        exact absurd delivered.fetching (by simp [coherent.flags.not_fetching running enters])
      · exact coherent.refilled_stays running edge heard refills latest
  case arrived =>
      intro after
      rcases inside after with enters | refills
      · intro adr b v delivered
        exact absurd delivered.fetching (by simp [coherent.flags.not_fetching running enters])
      · intro adr b v delivered old
        rw [heard.settled] at old
        exact Or.inl
          (coherent.arrivingByte_stays running edge heard refills latest delivered old)

/-- Nothing has been acknowledged, presented or heard of. -/
def View.empty : View := ⟨none, fun _ _ => none, fun _ _ => none, none⟩

theorem Settled.coherent (settled : Settled p) : Coherent p View.empty where
  flags := settled.lineFlags
  held := by simp [View.empty]
  grown := by simp [View.empty]
  buffered := fun _ _ _ _ _ latest => by cases latest
  served := fun _ _ _ _ _ old => by cases old
  slotted := by simp [settled.wbState]
  refilled := by simp [settled.wbState]
  arrived := by simp [settled.wbState]

end OrpsocCores.WbPort
