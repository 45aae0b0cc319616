import OrpsocCores.WbPort.LineFlags

/-!
# A port among others

A port hears of the writes that other ports acknowledge one cycle later, and stores
those that hit its buffer.  `View` is what is known beside the registers: the write on
its way to the port, the bytes acknowledged up to the last cycle and up to the one
before, and the port's own beat that waits for its acknowledge.

`Coherent` relates the buffer to the acknowledged bytes.  Outside `REFILL` the byte
that the next edge of `wb_clk` leaves in a covered word is the acknowledged one, or
already that of the waiting beat (`Buffered`); the byte that is there now is at most
one cycle behind (`Served`).  In `REFILL` the same holds of the words that have been
delivered (`Refilled`, `Arrived`).
-/

set_option autoImplicit false

namespace OrpsocCores.WbPort

open Wishbone

variable {bw : Nat}

/-! ## Acknowledged writes -/

/-- A write to the selected bytes of a word. -/
structure Write where
  adr : BitVec 32
  dat : BitVec 32
  sel : BitVec 4
  deriving DecidableEq

/-- `adr[31:2]`. -/
def wordAdr (adr : BitVec 32) : BitVec 30 := adr.extractLsb' 2 30

/-- The write sets this byte of the word at the address. -/
def Write.Covers (w : Write) (adr : BitVec 32) (b : Fin 4) : Prop :=
  wordAdr w.adr = wordAdr adr ∧ w.sel.getLsbD b = true

instance (w : Write) (adr : BitVec 32) (b : Fin 4) : Decidable (w.Covers adr b) :=
  inferInstanceAs (Decidable (_ ∧ _))

/-- The write that a master presents. -/
def writeOf (bus : Bus) : Write := ⟨bus.adr, bus.dat, bus.sel⟩

/-- The latest acknowledged value of every byte that has been written. -/
def Acked : Type := BitVec 30 → Fin 4 → Option (BitVec 8)

/-- One more acknowledged write. -/
def Acked.set (acked : Acked) (w : Write) : Acked := fun word b =>
  if wordAdr w.adr = word ∧ w.sel.getLsbD b = true then some (lane w.dat b) else acked word b

/-- The word address of a word of a line. -/
def wordAt (bw : Nat) (line : BitVec (30 - bw)) (word : BitVec bw) : BitVec 30 :=
  (line ++ word).setWidth 30

theorem wordAt_lineOf (bw : Nat) (adr : BitVec 32) :
    wordAt bw (lineOf bw adr) (wordOf bw adr) = wordAdr adr := by
  apply BitVec.eq_of_getLsbD_eq
  intro i below
  simp only [wordAt, wordAdr, BitVec.getLsbD_setWidth, BitVec.getLsbD_append, wordOf, lineOf,
    BitVec.getLsbD_extractLsb', below, decide_true, Bool.true_and]
  by_cases low : i < bw
  · simp [low]
  · have place : bw + 2 + (i - bw) = 2 + i := by omega
    simp [low, place, show i - bw < 30 - bw by omega]

/-- Line and word of an address determine the word address. -/
theorem wordAdr_eq_iff (bw : Nat) (a c : BitVec 32) :
    wordAdr a = wordAdr c ↔ lineOf bw a = lineOf bw c ∧ wordOf bw a = wordOf bw c := by
  constructor
  · intro same
    have bits : ∀ i < 30, a.getLsbD (2 + i) = c.getLsbD (2 + i) := by
      intro i below
      have bit := congrArg (fun x => x.getLsbD i) same
      simpa [wordAdr, BitVec.getLsbD_extractLsb', below] using bit
    constructor
    · apply BitVec.eq_of_getLsbD_eq
      intro i below
      have bit := bits (bw + i) (by omega)
      simpa [lineOf, BitVec.getLsbD_extractLsb', below, Nat.add_assoc, Nat.add_comm,
        Nat.add_left_comm] using bit
    · apply BitVec.eq_of_getLsbD_eq
      intro i below
      simp only [wordOf, BitVec.getLsbD_extractLsb', below, decide_true, Bool.true_and]
      by_cases inside : i < 30
      · exact bits i inside
      · rw [BitVec.getLsbD_of_ge _ _ (by omega), BitVec.getLsbD_of_ge _ _ (by omega)]
  · rintro ⟨line, word⟩
    rw [← wordAt_lineOf bw a, ← wordAt_lineOf bw c, line, word]

/-! ## The buffer RAM -/

/-- The snooped write as the port receives it. -/
def WbPins.snooped (pins : WbPins) : Option Write :=
  if pins.bufwWeI then some ⟨pins.bufwAdrI, pins.bufwDatI, pins.bufwSelI⟩ else none

/-- The snooped write, if it hits the buffer. -/
def WbSide.hit (s : WbSide bw) (slot : Option Write) : Option Write :=
  slot.filter fun w => lineOf bw w.adr == s.bufAdr

/-- The byte that the next edge of `wb_clk` leaves in the buffer RAM. -/
def Port.nextByte (p : Port bw) (slot : Option Write) (word : BitVec bw) (b : Fin 4) : BitVec 8 :=
  match p.wb.hit slot with
  | some w =>
      if wordOf bw w.adr = word ∧ w.sel.getLsbD b = true then lane w.dat b
      else lane (p.bufram word) b
  | none =>
      if p.wb.wbWriteBufram = true ∧ wordOf bw p.wb.wbAdr = word ∧ p.wb.wbSel.getLsbD b = true then
        lane p.wb.wbDat b
      else lane (p.bufram word) b

theorem lane_buframWb (p : Port bw) (pins : WbPins) (word : BitVec bw) (b : Fin 4) :
    lane (p.buframWb pins p.bufram word) b = p.nextByte pins.snooped word b := by
  have updated : ∀ (adr : BitVec bw) (sel : BitVec 4) (data : BitVec 32),
      lane (Function.update p.bufram adr (merge sel data (p.bufram adr)) word) b =
        if adr = word ∧ sel.getLsbD b = true then lane data b else lane (p.bufram word) b := by
    intro adr sel data
    by_cases here : word = adr
    · subst here
      rw [Function.update_self, lane_merge, mergeLane]
      simp
    · rw [Function.update_of_ne here, if_neg (fun both => here both.1.symm)]
  rw [Port.buframWb, updated, Port.nextByte, WbSide.hit, WbPins.snooped]
  simp only [WbSide.wbBuframAddr, WbSide.wbBuframWe, WbSide.wbBuframDi, WbSide.snoops,
    WbSide.bufwHit]
  rcases Bool.eq_false_or_eq_true pins.bufwWeI with we | we
  · by_cases line : lineOf bw pins.bufwAdrI = p.wb.bufAdr
    · simp [we, line, Option.filter]
    · rcases Bool.eq_false_or_eq_true p.wb.wbWriteBufram with own | own <;>
        simp [we, line, own, Option.filter]
  · rcases Bool.eq_false_or_eq_true p.wb.wbWriteBufram with own | own <;> simp [we, own]

/-- The buffer RAM after an instant. -/
theorem lane_step {p : Port bw} {e : Instant} {slot : Option Write}
    (snooped : ∀ pins ∈ e.wb, pins.snooped = slot) (word : BitVec bw) (b : Fin 4) :
    lane ((p.step e).bufram word) b =
      if e.sdram.isSome = true ∧ p.sdram.sdramWriteBufram = true ∧
          wordOf bw p.sdram.adrIR = word then lane p.sdram.datR b
      else if e.wb.isSome = true then p.nextByte slot word b
      else lane (p.bufram word) b := by
  have refill : ∀ ram : BitVec bw → BitVec 32, lane (p.buframSdram ram word) b =
      if p.sdram.sdramWriteBufram = true ∧ wordOf bw p.sdram.adrIR = word then lane p.sdram.datR b
      else lane (ram word) b := by
    intro ram
    rw [Port.buframSdram]
    by_cases writes : p.sdram.sdramWriteBufram = true
    · rw [if_pos writes]
      by_cases here : word = wordOf bw p.sdram.adrIR
      · subst here
        rw [Function.update_self, if_pos ⟨writes, rfl⟩]
      · rw [Function.update_of_ne here, if_neg (fun both => here both.2.symm)]
    · rw [if_neg writes, if_neg (fun both => writes both.1)]
  cases edge : e.wb with
  | none => cases edge' : e.sdram <;> simp [Port.step, edge, edge', refill]
  | some pins =>
      rw [← snooped pins (by simp [edge]), ← lane_buframWb]
      cases edge' : e.sdram <;> simp [Port.step, edge, edge', refill]

/-- An edge of `wb_clk` that neither a snooped write nor the port's own uses. -/
theorem lane_kept {p : Port bw} {e : Instant} {pins : WbPins} (edge : e.wb = some pins)
    (alone : e.sdram = none) (free : p.wb.hit pins.snooped = none)
    (own : p.wb.wbWriteBufram = false) (word : BitVec bw) (b : Fin 4) :
    lane ((p.step e).bufram word) b = lane (p.bufram word) b := by
  have snooped : ∀ pins' ∈ e.wb, pins'.snooped = pins.snooped := by simp [edge]
  rw [lane_step snooped, if_neg (by simp [alone]), if_pos (by simp [edge]), Port.nextByte, free]
  simp [own]

namespace WbSide

theorem hit_eq_some {s : WbSide bw} {slot : Option Write} {w : Write} :
    s.hit slot = some w ↔ slot = some w ∧ lineOf bw w.adr = s.bufAdr := by
  simp [hit, Option.filter_eq_some_iff]

/-- What the port is about to store of its own is the beat presented at the last edge. -/
theorem machine_wbWriteBufram (s : WbSide bw) (bus : Bus) (full : Bool)
    (stores : (s.machine bus full).wbWriteBufram = true) :
    bus.writes = true ∧ s.bufhit bus.adr = true ∧ (s.machine bus full).wbAdr = bus.adr ∧
      (s.machine bus full).wbDat = bus.dat ∧ (s.machine bus full).wbSel = bus.sel := by
  revert stores
  cases state : s.wbState <;>
    simp only [machine, state, idleBranch, readBranch, refillBranch, writeBranch] <;> grind

/-- A write that hits the buffer is stored in the cycle after its acknowledge. -/
theorem stores_of_ack (s : WbSide bw) (bus : Bus) (full : Bool)
    (state : s.wbState = .write ∨ s.wbState = .idle) (writes : bus.writes = true)
    (hits : s.bufhit bus.adr = true) (complete : s.bufCleanWb = BitVec.allOnes _) :
    (s.machine bus full).wbWriteBufram = true := by
  have noRead : bus.reads = false := by
    simp only [Pins.writes, Pins.reads, Bool.and_eq_true] at writes ⊢
    simp [writes]
  rcases state with write | idle
  · simp only [machine, write, writeBranch, writes, hits, Bool.and_self, if_true]
    grind
  · simp [machine, idle, idleBranch, noRead, writes, hits, acceptsWrite, complete]

end WbSide

/-! ## What is known beside the registers -/

/-- The surroundings of a port. -/
structure View where
  /-- The write that the port hears of in this cycle. -/
  slot : Option Write
  /-- What has been acknowledged, up to the cycle before the last. -/
  settled : Acked
  /-- What has been acknowledged. -/
  recent : Acked
  /-- The write presented in the last cycle, if it was not acknowledged. -/
  held : Option Bus

/-- The port acknowledges a write at this edge. -/
def Port.acksWrite (p : Port bw) (pins : WbPins) : Bool := pins.bus.writes && p.wb.wbAckO p.full

/-- The next edge stores the byte of the port's own waiting beat. -/
structure Storing (p : Port bw) (view : View) (bus : Bus) (adr : BitVec 32) (b : Fin 4) : Prop where
  held : view.held = some bus
  covers : (writeOf bus).Covers adr b
  stores : p.wb.wbWriteBufram = true
  free : p.wb.hit view.slot = none
  byte : p.nextByte view.slot (wordOf bw adr) b = lane bus.dat b

/-- The next edge leaves acknowledged bytes in the buffer, or waiting ones. -/
def Buffered (p : Port bw) (view : View) : Prop :=
  ∀ adr b v, p.wb.bufhit adr = true → view.recent (wordAdr adr) b = some v →
    p.nextByte view.slot (wordOf bw adr) b = v ∨ ∃ bus, Storing p view bus adr b

/-- A covered word misses no byte that was acknowledged before the last cycle. -/
def Served (p : Port bw) (view : View) : Prop :=
  ∀ adr b v, p.wb.bufhit adr = true → view.settled (wordAdr adr) b = some v →
    lane (p.bufram (wordOf bw adr)) b = v ∨
      view.recent (wordAdr adr) b = some (lane (p.bufram (wordOf bw adr)) b)

/-- The write on its way to the port is the latest one to its bytes. -/
def View.Slotted (view : View) : Prop :=
  ∀ adr b w, view.slot = some w → w.Covers adr b →
    view.recent (wordAdr adr) b = some (lane w.dat b)

/-- The refill of the requested line has begun. -/
def SdramSide.fetching (s : SdramSide bw) : Bool := s.sdramState == .read || s.readDone

/-- The byte that a word has once the refill has stored what it sampled. -/
def Port.arrivingByte (p : Port bw) (word : BitVec bw) (b : Fin 4) : BitVec 8 :=
  if p.sdram.sdramWriteBufram = true ∧ wordOf bw p.sdram.adrIR = word then lane p.sdram.datR b
  else lane (p.bufram word) b

/-- The byte that a delivered word ends up with: a snooped one of the new line, else
the refill's. -/
def Port.refillByte (p : Port bw) (slot : Option Write) (word : BitVec bw) (b : Fin 4) : BitVec 8 :=
  match p.wb.hit slot with
  | some w =>
      if p.wb.bufAdr = lineOf bw p.wb.wbAdr ∧ wordOf bw w.adr = word ∧ w.sel.getLsbD b = true then
        lane w.dat b
      else p.arrivingByte word b
  | none => p.arrivingByte word b

/-- A refill has delivered this word. -/
structure Delivered (p : Port bw) (adr : BitVec 32) : Prop where
  fetching : p.sdram.fetching = true
  line : lineOf bw adr = lineOf bw p.wb.wbAdr
  clean : p.sdram.bufClean.getLsbD (wordOf bw adr).toNat = true

/-- The delivered words of a refill end up with the acknowledged bytes. -/
def Refilled (p : Port bw) (view : View) : Prop :=
  ∀ adr b v, Delivered p adr → view.recent (wordAdr adr) b = some v →
    p.refillByte view.slot (wordOf bw adr) b = v

/-- A delivered word misses no byte that was acknowledged before the last cycle. -/
def Arrived (p : Port bw) (view : View) : Prop :=
  ∀ adr b v, Delivered p adr → view.settled (wordAdr adr) b = some v →
    p.arrivingByte (wordOf bw adr) b = v ∨
      view.recent (wordAdr adr) b = some (p.arrivingByte (wordOf bw adr) b)

/-- The buffer of a port agrees with what has been acknowledged. -/
structure Coherent (p : Port bw) (view : View) : Prop where
  flags : LineFlags p
  held : ∀ bus, view.held = some bus → bus.writes = true
  grown : ∀ adr b, (view.settled (wordAdr adr) b).isSome = true →
    (view.recent (wordAdr adr) b).isSome = true
  buffered : p.wb.wbState ≠ .refill → Buffered p view
  served : p.wb.wbState ≠ .refill → Served p view
  slotted : p.wb.wbState = .refill → view.Slotted
  refilled : p.wb.wbState = .refill → Refilled p view
  arrived : p.wb.wbState = .refill → Arrived p view

/-- The line buffer covers the word at the address and marks it clean.  In `REFILL`,
where the tag and the flags seen by the Wishbone side are those of no line, these are
the words of the requested line that have been delivered and stored. -/
def Port.covers (p : Port bw) (adr : BitVec 32) : Bool :=
  if p.wb.wbState = .refill then
    p.sdram.fetching && lineOf bw adr == lineOf bw p.wb.wbAdr &&
      p.sdram.bufClean.getLsbD (wordOf bw adr).toNat &&
      !(p.sdram.sdramWriteBufram && wordOf bw p.sdram.adrIR == wordOf bw adr)
  else p.wb.bufhit adr

/-- **A coherent buffer has, of every byte it covers, the value that was acknowledged
before the last cycle or the one acknowledged since.** -/
theorem Coherent.holds {p : Port bw} {view : View} (coherent : Coherent p view) {adr : BitVec 32}
    {b : Fin 4} {v : BitVec 8} (covers : p.covers adr = true)
    (old : view.settled (wordAdr adr) b = some v) :
    lane (p.bufram (wordOf bw adr)) b = v ∨
      view.recent (wordAdr adr) b = some (lane (p.bufram (wordOf bw adr)) b) := by
  rw [Port.covers] at covers
  by_cases refills : p.wb.wbState = .refill
  · simp only [refills, if_true, Bool.and_eq_true, beq_iff_eq, Bool.not_eq_true'] at covers
    obtain ⟨⟨⟨fetching, line⟩, clean⟩, stored⟩ := covers
    have ram : p.arrivingByte (wordOf bw adr) b = lane (p.bufram (wordOf bw adr)) b := by
      refine if_neg fun arriving => ?_
      rw [arriving.1, arriving.2] at stored
      simp at stored
    rw [← ram]
    exact coherent.arrived refills adr b v ⟨fetching, line, clean⟩ old
  · rw [if_neg refills] at covers
    exact coherent.served refills adr b v covers old

/-! ## What the surroundings do -/

/-- The memory returns, for a word of the requested line, the acknowledged bytes. -/
def DeliversLatest (p : Port bw) (recent : Acked) (e : Instant) : Prop :=
  ∀ pins ∈ e.sdram, p.sdram.sdramState = .read → pins.ackI = true →
    ∀ b, ∀ v ∈ recent (wordAt bw (lineOf bw p.wb.wbAdr) (wordOf bw pins.adrI)) b,
      lane pins.datI b = v

instance (p : Port bw) (recent : Acked) (e : Instant) : Decidable (DeliversLatest p recent e) :=
  inferInstanceAs (Decidable (∀ _ ∈ _, _ → _ → ∀ _, ∀ _ ∈ _, _))

/-- A snooped write that hits the buffer in `REFILL` meets a word that has not been
delivered yet, or one of the new line that is in the RAM already. -/
def Undisturbed (p : Port bw) (slot : Option Write) : Prop :=
  ∀ w ∈ p.wb.hit slot, p.wb.wbState = .refill → p.sdram.fetching = true →
    p.sdram.bufClean.getLsbD (wordOf bw w.adr).toNat = true →
      p.wb.bufAdr = lineOf bw p.wb.wbAdr ∧
        ¬(p.sdram.sdramWriteBufram = true ∧ wordOf bw p.sdram.adrIR = wordOf bw w.adr)

instance (p : Port bw) (slot : Option Write) : Decidable (Undisturbed p slot) :=
  inferInstanceAs (Decidable (∀ _ ∈ _, _ → _ → _ → _))

/-- The edge stores this beat of the port's own. -/
def Port.StoresBeat (p : Port bw) (slot : Option Write) (bus : Bus) : Prop :=
  p.wb.wbWriteBufram = true ∧ p.wb.hit slot = none ∧ p.wb.wbAdr = bus.adr ∧
    p.wb.wbDat = bus.dat ∧ p.wb.wbSel = bus.sel

instance (p : Port bw) (slot : Option Write) (bus : Bus) : Decidable (p.StoresBeat slot bus) :=
  inferInstanceAs (Decidable (_ ∧ _))

/-- The word lies in the line that the buffer holds or waits for. -/
def Port.concerns (p : Port bw) (adr : BitVec 32) : Bool :=
  if p.wb.wbState = .refill then lineOf bw adr == lineOf bw p.wb.wbAdr else p.wb.bufhit adr

/-- How an edge of `wb_clk` changes what is known, and what it may not do. -/
structure Heard (p : Port bw) (pins : WbPins) (view view' : View) : Prop where
  snooped : pins.snooped = view.slot
  holds : ∀ bus, view.held = some bus → p.wb.wbWriteBufram = true → p.wb.hit view.slot = none →
    pins.bus = bus ∧ p.wb.wbAckO p.full = true
  reads : p.wb.wbReadAck = true → pins.bus.writes = false
  settled : view'.settled = view.recent
  held : view'.held = if pins.bus.writes && !p.wb.wbAckO p.full then some pins.bus else none
  grown : ∀ adr b, (view.recent (wordAdr adr) b).isSome = true →
    (view'.recent (wordAdr adr) b).isSome = true
  kept : ∀ adr b, p.concerns adr = true →
    ¬(p.acksWrite pins = true ∧ (writeOf pins.bus).Covers adr b) →
    (∀ w, view'.slot = some w → ¬w.Covers adr b) →
      view'.recent (wordAdr adr) b = view.recent (wordAdr adr) b
  own : ∀ adr b, p.concerns adr = true → p.acksWrite pins = true →
    (writeOf pins.bus).Covers adr b → (∀ w, view'.slot = some w → ¬w.Covers adr b) →
      view'.recent (wordAdr adr) b = some (lane pins.bus.dat b)
  other : ∀ adr b w, view'.slot = some w → w.Covers adr b →
    ¬(p.acksWrite pins = true ∧ (writeOf pins.bus).Covers adr b) →
      view'.recent (wordAdr adr) b = some (lane w.dat b)
  apart : p.acksWrite pins = true → p.wb.bufhit pins.bus.adr = true →
    ∀ w, view'.slot = some w → lineOf bw w.adr = p.wb.bufAdr →
      p.StoresBeat view.slot pins.bus ∧
        ∀ b : Fin 4, pins.bus.sel.getLsbD b = true → ¬w.Covers pins.bus.adr b
  undisturbed : Undisturbed p view.slot

/-! ## An edge of `wb_clk` that ends outside `REFILL` -/

section

variable {p : Port bw} {e : Instant} {pins : WbPins} {view view' : View}

theorem Write.Covers.bufhit_eq {w : Write} {adr : BitVec 32} {b : Fin 4} (covers : w.Covers adr b)
    (s : WbSide bw) : s.bufhit w.adr = s.bufhit adr := by
  obtain ⟨line, word⟩ := (wordAdr_eq_iff bw _ _).mp covers.1
  rw [WbSide.bufhit, WbSide.bufhit, WbSide.clean, WbSide.clean, line, word]

theorem line_eq_of_bufhit {s : WbSide bw} {adr : BitVec 32} (hit : s.bufhit adr = true) :
    lineOf bw adr = s.bufAdr := by
  simp only [WbSide.bufhit, Bool.and_eq_true, beq_iff_eq] at hit
  exact hit.1.symm

/-- What the registers after an edge have to show for the buffer to be in order: the
buffer covers words that concern the port, the RAM agrees with what was known before,
the port's own beat is the one presented at the edge, and an acknowledged beat that
hits is stored, or about to be, and the only write to its bytes. -/
structure Stores (p p' : Port bw) (pins : WbPins) (view view' : View) : Prop where
  concerned : ∀ adr, p'.wb.bufhit adr = true → p.concerns adr = true
  ram : ∀ adr b v, p'.wb.bufhit adr = true → view.recent (wordAdr adr) b = some v →
    lane (p'.bufram (wordOf bw adr)) b = v ∨
      (p.acksWrite pins = true ∧ (writeOf pins.bus).Covers adr b ∧
        lane (p'.bufram (wordOf bw adr)) b = lane pins.bus.dat b)
  beat : p'.wb.wbWriteBufram = true → pins.bus.writes = true ∧
    lineOf bw pins.bus.adr = p'.wb.bufAdr ∧ p'.wb.wbAdr = pins.bus.adr ∧
      p'.wb.wbDat = pins.bus.dat ∧ p'.wb.wbSel = pins.bus.sel
  ack : p.acksWrite pins = true → p'.wb.bufhit pins.bus.adr = true → p'.wb.wbWriteBufram = true ∧
    ∀ w, view'.slot = some w → lineOf bw w.adr = p'.wb.bufAdr →
      ∀ b : Fin 4, pins.bus.sel.getLsbD b = true → ¬w.Covers pins.bus.adr b ∧
        lane (p'.bufram (wordOf bw pins.bus.adr)) b = lane pins.bus.dat b

variable {p' : Port bw}

/-- An acknowledged beat of the port's own that covers a buffered byte is the only
write to it, and the next edge leaves it in the buffer. -/
theorem Stores.alone (stores : Stores p p' pins view view') {adr : BitVec 32} {b : Fin 4}
    (hit : p'.wb.bufhit adr = true) (acks : p.acksWrite pins = true)
    (covers : (writeOf pins.bus).Covers adr b) :
    p'.nextByte view'.slot (wordOf bw adr) b = lane pins.bus.dat b ∧
      ∀ w, view'.slot = some w → ¬w.Covers adr b := by
  have hits : p'.wb.bufhit pins.bus.adr = true := by
    rw [← hit]
    exact covers.bufhit_eq p'.wb
  have word : wordOf bw pins.bus.adr = wordOf bw adr := ((wordAdr_eq_iff bw _ _).mp covers.1).2
  obtain ⟨stored, away⟩ := stores.ack acks hits
  constructor
  · rw [Port.nextByte]
    cases snoop : p'.wb.hit view'.slot with
    | none =>
        obtain ⟨-, -, sameAdr, sameDat, sameSel⟩ := stores.beat stored
        simp only [stored, sameAdr, sameDat, sameSel]
        exact if_pos ⟨trivial, word, covers.2⟩
    | some w =>
        obtain ⟨slot, sameLine⟩ := WbSide.hit_eq_some.mp snoop
        obtain ⟨elsewhere, byte⟩ := away w slot sameLine b covers.2
        rw [← word, ← byte]
        refine if_neg fun both => elsewhere ⟨?_, both.2⟩
        exact (wordAdr_eq_iff bw _ _).mpr ⟨sameLine.trans (line_eq_of_bufhit hits).symm, both.1⟩
  · intro w slot set
    have sameLine := ((wordAdr_eq_iff bw _ _).mp set.1).1.trans (line_eq_of_bufhit hit)
    exact (away w slot sameLine b covers.2).1 ⟨set.1.trans covers.1.symm, set.2⟩

theorem Stores.buffered (stores : Stores p p' pins view view') (heard : Heard p pins view view') :
    Buffered p' view' := by
  intro adr b v hit latest
  have concerned := stores.concerned adr hit
  by_cases own : p.acksWrite pins = true ∧ (writeOf pins.bus).Covers adr b
  · obtain ⟨next, alone⟩ := stores.alone hit own.1 own.2
    rw [heard.own adr b concerned own.1 own.2 alone] at latest
    left
    rw [next]
    exact Option.some.inj latest
  · by_cases other : ∃ w, view'.slot = some w ∧ w.Covers adr b
    · obtain ⟨w, slot, covers⟩ := other
      rw [heard.other adr b w slot covers own] at latest
      obtain ⟨line, word⟩ := (wordAdr_eq_iff bw _ _).mp covers.1
      have heardOf : p'.wb.hit view'.slot = some w :=
        WbSide.hit_eq_some.mpr ⟨slot, line.trans (line_eq_of_bufhit hit)⟩
      left
      rw [Port.nextByte, heardOf]
      simp only
      rw [if_pos ⟨word, covers.2⟩]
      exact Option.some.inj latest
    · have nobody : ∀ w, view'.slot = some w → ¬w.Covers adr b :=
        fun w slot covers => other ⟨w, slot, covers⟩
      rw [heard.kept adr b concerned own nobody] at latest
      have ram : lane (p'.bufram (wordOf bw adr)) b = v := by
        rcases stores.ram adr b v hit latest with same | ⟨acks, covers, -⟩
        · exact same
        · exact absurd ⟨acks, covers⟩ own
      -- The byte stays as it is in the RAM, unless the port's own beat sets it.
      cases snoop : p'.wb.hit view'.slot with
      | some w =>
          obtain ⟨slot, line⟩ := WbSide.hit_eq_some.mp snoop
          left
          rw [Port.nextByte, snoop, ← ram]
          refine if_neg fun both => nobody w slot ⟨?_, both.2⟩
          exact (wordAdr_eq_iff bw _ _).mpr ⟨line.trans (line_eq_of_bufhit hit).symm, both.1⟩
      | none =>
          by_cases set : p'.wb.wbWriteBufram = true ∧ wordOf bw p'.wb.wbAdr = wordOf bw adr ∧
              p'.wb.wbSel.getLsbD b = true
          · obtain ⟨writes, line, sameAdr, sameDat, sameSel⟩ := stores.beat set.1
            have covers : (writeOf pins.bus).Covers adr b := by
              rw [sameAdr, sameSel] at set
              exact ⟨(wordAdr_eq_iff bw _ _).mpr
                ⟨line.trans (line_eq_of_bufhit hit).symm, set.2.1⟩, set.2.2⟩
            have unacked : p.wb.wbAckO p.full = false := by
              rw [← Bool.not_eq_true]
              exact fun acked => own ⟨by rw [Port.acksWrite, writes, acked]; rfl, covers⟩
            refine Or.inr ⟨pins.bus, ?_, covers, set.1, snoop, ?_⟩
            · rw [heard.held, writes, unacked]
              rfl
            · rw [Port.nextByte, snoop, ← sameDat]
              exact if_pos set
          · left
            rw [Port.nextByte, snoop, ← ram]
            exact if_neg set

theorem Stores.served (stores : Stores p p' pins view view') (heard : Heard p pins view view') :
    Served p' view' := by
  intro adr b v hit old
  rw [heard.settled] at old
  rcases stores.ram adr b v hit old with same | ⟨acks, covers, byte⟩
  · exact Or.inl same
  · right
    obtain ⟨-, alone⟩ := stores.alone hit acks covers
    rw [heard.own adr b (stores.concerned adr hit) acks covers alone, byte]

end

end OrpsocCores.WbPort
