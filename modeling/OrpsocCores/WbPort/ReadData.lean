import OrpsocCores.WbPort.LineFlags
import OrpsocCores.Wishbone.Common

/-!
# The data of a read

A read is acknowledged one edge after `bufhit`, or `next_bufhit` within a burst, was
seen, and its data is what the buffer RAM was addressed with at that edge.  The two agree
when the RAM's address port is the read's: then the data is the word of the address that
the master presents with the acknowledge, and that address lies in the buffered line
(`read_data`).

The port is not the read's when a snooped write hits the buffer, or the port stores a
write of its own, at the same edge.  The acknowledge is given all the same, with the word
that was written instead of the one that was asked for (`snoop_takes_port`).  When it is
the very word, the RAM shows it if all four bytes are written; the bytes that are not are
X.
-/

set_option autoImplicit false

namespace OrpsocCores.WbPort

open Wishbone

variable {bw : Nat}

/-! ## Addresses -/

/-- Line and word depend on the word address only. -/
theorem lineOf_wordOf_congr {adr adr' : BitVec 32}
    (same : adr.extractLsb' 2 30 = adr'.extractLsb' 2 30) :
    lineOf bw adr = lineOf bw adr' ∧ wordOf bw adr = wordOf bw adr' := by
  have bit : ∀ i, adr.getLsbD (2 + i) = adr'.getLsbD (2 + i) := by
    intro i
    by_cases inside : i < 30
    · have here := congrArg (fun word => word.getLsbD i) same
      simpa [BitVec.getLsbD_extractLsb', inside] using here
    · rw [BitVec.getLsbD_of_ge _ _ (by omega), BitVec.getLsbD_of_ge _ _ (by omega)]
  constructor
  · apply BitVec.eq_of_getLsbD_eq
    intro i inside
    have place : bw + 2 + i = 2 + (bw + i) := by omega
    simp only [lineOf, BitVec.getLsbD_extractLsb', place, bit]
  · apply BitVec.eq_of_getLsbD_eq
    intro i inside
    simp only [wordOf, BitVec.getLsbD_extractLsb', bit]

theorem toNat_wrapAdr {k : Nat} (bits : 3 ≤ k) (narrow : k ≤ 32) (adr : BitVec 32) :
    (wrapAdr k adr).toNat =
      (adr.toNat / 2 ^ k * 2 ^ k + (adr.toNat + 4) % 2 ^ k) % 2 ^ 32 := by
  rw [wrapAdr, toNat_wrapNext bits narrow]

/-- `next_wb_adr` is the word that an incrementing burst prescribes. -/
theorem continues_nextWbAdr {last next : Bus} (inc : last.cti = .incBurst)
    (continues : last.Continues next) :
    next.adr.extractLsb' 2 30 = (nextWbAdr last).extractLsb' 2 30 := by
  obtain ⟨-, -, -, word⟩ := continues
  simp only [Pins.word, Cti.nextWord, inc, if_true] at word
  have small := last.adr.isLt
  have small' := next.adr.isLt
  apply BitVec.eq_of_toNat_eq
  rw [BitVec.extractLsb'_toNat, BitVec.extractLsb'_toNat, Nat.shiftRight_eq_div_pow,
    Nat.shiftRight_eq_div_pow, word]
  cases bte : last.bte with
  | linear =>
      simp only [nextWbAdr, bte, Bte.nextWord, BitVec.toNat_add, BitVec.ofNat_eq_ofNat,
        BitVec.toNat_ofNat]
      omega
  | wrap4 =>
      simp only [nextWbAdr, bte, Bte.nextWord, toNat_wrapAdr (by omega : 3 ≤ 4) (by omega)]
      omega
  | wrap8 =>
      simp only [nextWbAdr, bte, Bte.nextWord, toNat_wrapAdr (by omega : 3 ≤ 5) (by omega)]
      omega
  | wrap16 =>
      simp only [nextWbAdr, bte, Bte.nextWord, toNat_wrapAdr (by omega : 3 ≤ 6) (by omega)]
      omega

/-! ## Acknowledges -/

namespace WbSide

/-- The address that a read acknowledge is decided for at this edge. -/
def acksRead (s : WbSide bw) (bus : Bus) : Option (BitVec 32) :=
  match s.wbState with
  | .idle => if bus.reads && s.bufhit bus.adr && !s.firstReq then some bus.adr else none
  | .read =>
      if bus.reads && bus.cti == .incBurst && s.bufhit (nextWbAdr bus) then some (nextWbAdr bus)
      else none
  | _ => none

/-- The two ways to an acknowledge. -/
theorem acksRead_cases {s : WbSide bw} {bus : Bus} {adr : BitVec 32}
    (decides : s.acksRead bus = some adr) :
    bus.reads = true ∧ s.bufhit adr = true ∧
      ((s.wbState = .idle ∧ adr = bus.adr) ∨
        (s.wbState = .read ∧ bus.cti = .incBurst ∧ adr = nextWbAdr bus)) := by
  rw [acksRead] at decides
  split at decides
  case h_1 state =>
      rw [Option.ite_none_right_eq_some, Option.some.injEq] at decides
      obtain ⟨hit, rfl⟩ := decides
      simp only [Bool.and_eq_true] at hit
      exact ⟨hit.1.1, hit.1.2, .inl ⟨state, rfl⟩⟩
  case h_2 state =>
      rw [Option.ite_none_right_eq_some, Option.some.injEq] at decides
      obtain ⟨hit, rfl⟩ := decides
      simp only [Bool.and_eq_true, beq_iff_eq] at hit
      exact ⟨hit.1.1, hit.2, .inr ⟨state, hit.1.2, rfl⟩⟩
  case h_3 => cases decides

theorem machine_wbReadAck (s : WbSide bw) (bus : Bus) (full : Bool) :
    (s.machine bus full).wbReadAck = (s.acksRead bus).isSome := by
  cases state : s.wbState <;>
    simp only [machine, state, acksRead, idleBranch, readBranch, refillBranch, writeBranch] <;>
    grind

/-- An acknowledge goes with `READ` or `READ_DONE`. -/
theorem machine_wbState_acks (s : WbSide bw) (bus : Bus) (full : Bool)
    (acks : (s.machine bus full).wbReadAck = true) :
    (s.machine bus full).wbState = .read ∨ (s.machine bus full).wbState = .readDone := by
  revert acks
  cases state : s.wbState <;>
    simp only [machine, state, idleBranch, readBranch, refillBranch, writeBranch] <;> grind

/-- In `READ` a read is acknowledged. -/
theorem machine_wbState_read (s : WbSide bw) (bus : Bus) (full : Bool)
    (reads : (s.machine bus full).wbState = .read) :
    (s.machine bus full).wbReadAck = true := by
  revert reads
  cases state : s.wbState <;>
    simp only [machine, state, idleBranch, readBranch, refillBranch, writeBranch] <;> grind

end WbSide

/-! ## Master, other ports and the cycle before -/

/-- What the last cycle of `wb_clk` showed. -/
structure Sampled (bw : Nat) where
  /-- The read that was presented and not acknowledged. -/
  held : Option Bus
  /-- The beat of an incrementing burst of reads that was acknowledged. -/
  burst : Option Bus
  /-- The buffer RAM at the edge that ended the cycle. -/
  ram : BitVec bw → BitVec 32

/-- No cycle has passed. -/
def Sampled.start (p : Port bw) : Sampled bw := ⟨none, none, p.bufram⟩

/-- The recorder. -/
def Sampled.record (p : Port bw) (e : Instant) (sampled : Sampled bw) : Sampled bw :=
  match e.wb with
  | none => sampled
  | some pins =>
      { held := if pins.bus.reads && !p.wb.wbAckO p.full then some pins.bus else none
        burst :=
          if pins.bus.reads && p.wb.wbAckO p.full && pins.bus.cti == .incBurst then some pins.bus
          else none
        ram := p.buframWb pins p.bufram }

/-- What is promised of the master: a read keeps its address until it is acknowledged, and
the beat right after one of an incrementing burst is the one that the burst prescribes. -/
structure Reader (x : Port bw × Sampled bw) (e : Instant) : Prop where
  running : Running e
  held : ∀ pins ∈ e.wb, ∀ bus ∈ x.2.held, pins.bus.reads = true → pins.bus.adr = bus.adr
  burst : ∀ pins ∈ e.wb, ∀ bus ∈ x.2.burst, pins.bus.reads = true → bus.Continues pins.bus

instance (x : Port bw × Sampled bw) (e : Instant) : Decidable (Reader x e) :=
  decidable_of_iff
    (Running e ∧
      (∀ pins ∈ e.wb, ∀ bus ∈ x.2.held, pins.bus.reads = true → pins.bus.adr = bus.adr) ∧
      ∀ pins ∈ e.wb, ∀ bus ∈ x.2.burst, pins.bus.reads = true → bus.Continues pins.bus)
    ⟨fun ⟨running, held, burst⟩ => ⟨running, held, burst⟩,
    fun ⟨running, held, burst⟩ => ⟨running, held, burst⟩⟩

/-- The RAM's address port is the read's: no snooped write and no write of the port's own
has it for another word or for some bytes of this one, and no write is acknowledged in the
cycle. -/
structure WbSide.HasPort (s : WbSide bw) (pins : WbPins) (full : Bool) (adr : BitVec 32) : Prop where
  snoop : s.snoops pins = true → wordOf bw pins.bufwAdrI = wordOf bw adr
  own : s.snoops pins = false → s.wbWriteBufram = true → wordOf bw s.wbAdr = wordOf bw adr
  whole : s.wbBuframWe pins = 0 ∨ s.wbBuframWe pins = BitVec.allOnes 4
  write : s.wrfifoWrreq full = false

instance (s : WbSide bw) (pins : WbPins) (full : Bool) (adr : BitVec 32) :
    Decidable (s.HasPort pins full adr) :=
  decidable_of_iff
    ((s.snoops pins = true → wordOf bw pins.bufwAdrI = wordOf bw adr) ∧
      (s.snoops pins = false → s.wbWriteBufram = true → wordOf bw s.wbAdr = wordOf bw adr) ∧
      (s.wbBuframWe pins = 0 ∨ s.wbBuframWe pins = BitVec.allOnes 4) ∧
      s.wrfifoWrreq full = false)
    ⟨fun ⟨snoop, own, whole, write⟩ => ⟨snoop, own, whole, write⟩,
    fun ⟨snoop, own, whole, write⟩ => ⟨snoop, own, whole, write⟩⟩

/-- Every read acknowledge is decided at an edge at which the read has the RAM's port, and
at which the other side does not store into the word. -/
def Unobstructed (p : Port bw) (e : Instant) : Prop :=
  ∀ pins ∈ e.wb, ∀ adr ∈ p.wb.acksRead pins.bus,
    p.wb.HasPort pins p.full adr ∧ p.refills e (wordOf bw adr) = false

instance (p : Port bw) (e : Instant) : Decidable (Unobstructed p e) :=
  -- Without it the addresses would be tried one by one.
  have (pins : WbPins) :
      Decidable (∀ adr ∈ p.wb.acksRead pins.bus,
        p.wb.HasPort pins p.full adr ∧ p.refills e (wordOf bw adr) = false) :=
    Option.decidableForallMem _
  inferInstanceAs
    (Decidable (∀ pins ∈ e.wb, ∀ adr ∈ p.wb.acksRead pins.bus,
      p.wb.HasPort pins p.full adr ∧ p.refills e (wordOf bw adr) = false))

/-- A read that is presented with `wb_read_ack` high gets the word of its address, all four
bytes, as it was in the buffer when the acknowledge was decided, and the address lies in the
buffered line. -/
def ReadsBuffer (x : Port bw × Sampled bw) (e : Instant) : Prop :=
  ∀ pins ∈ e.wb, x.1.wb.wbReadAck = true → pins.bus.reads = true →
    x.1.wbDatX = 0 ∧ x.1.wbDatO = x.2.ram (wordOf bw pins.bus.adr) ∧
      lineOf bw pins.bus.adr = x.1.wb.bufAdr

instance (x : Port bw × Sampled bw) (e : Instant) : Decidable (ReadsBuffer x e) :=
  inferInstanceAs (Decidable (∀ pins ∈ e.wb, _ → _ → _))

/-! ## What is promised with an acknowledge -/

/-- The word that is on `wb_dat_o`, and that the master asks for. -/
structure Promised (p : Port bw) (sampled : Sampled bw) (adr : BitVec 32) : Prop where
  asked : (∃ bus ∈ sampled.held, bus.adr = adr) ∨
    ∃ bus ∈ sampled.burst, bus.cti = .incBurst ∧ nextWbAdr bus = adr
  line : lineOf bw adr = p.wb.bufAdr
  driven : p.wbDatX = 0
  data : p.wbDatO = sampled.ram (wordOf bw adr)

/-- Acknowledges go with the state and with a promised word. -/
structure Acknowledging (x : Port bw × Sampled bw) : Prop where
  acks : x.1.wb.wbReadAck = true → x.1.wb.wbState = .read ∨ x.1.wb.wbState = .readDone
  read : x.1.wb.wbState = .read → x.1.wb.wbReadAck = true
  promised : x.1.wb.wbReadAck = true → ∃ adr, Promised x.1 x.2 adr

variable {p : Port bw} {sampled : Sampled bw} {e : Instant} {pins : WbPins} {adr : BitVec 32}

/-- In `IDLE` no read is acknowledged. -/
theorem Acknowledging.idle (acknowledging : Acknowledging (p, sampled))
    (state : p.wb.wbState = .idle) : p.wb.wbReadAck = false := by
  rw [← Bool.not_eq_true]
  intro acked
  rcases acknowledging.acks acked with other | other
  · rw [state] at other; cases other
  · rw [state] at other; cases other

/-- Whether the cycle that decides an acknowledge has one itself. -/
theorem Acknowledging.wbAckO_of_acksRead (acknowledging : Acknowledging (p, sampled))
    (unobstructed : Unobstructed p e) (edge : e.wb = some pins)
    (decides : p.wb.acksRead pins.bus = some adr) :
    (p.wb.wbAckO p.full = false ∧ adr = pins.bus.adr) ∨
      (p.wb.wbAckO p.full = true ∧ pins.bus.cti = .incBurst ∧ adr = nextWbAdr pins.bus) := by
  have quiet : p.wb.wrfifoWrreq p.full = false := (unobstructed pins edge adr decides).1.write
  obtain ⟨-, -, ⟨state, word⟩ | ⟨state, inc, word⟩⟩ := WbSide.acksRead_cases decides
  · exact .inl ⟨by simp [WbSide.wbAckO, acknowledging.idle state, quiet], word⟩
  · have acked : p.wb.wbReadAck = true := acknowledging.read state
    exact .inr ⟨by simp [WbSide.wbAckO, acked], inc, word⟩

/-- The edge that decides an acknowledge addresses the RAM with its word. -/
theorem Acknowledging.wbBuframAddr_eq (acknowledging : Acknowledging (p, sampled))
    (unobstructed : Unobstructed p e) (edge : e.wb = some pins)
    (decides : p.wb.acksRead pins.bus = some adr) :
    p.wb.wbBuframAddr pins p.full = wordOf bw adr := by
  rw [WbSide.wbBuframAddr]
  cases snoops : p.wb.snoops pins with
  | true => exact (unobstructed pins edge adr decides).1.snoop snoops
  | false =>
      cases own : p.wb.wbWriteBufram with
      | true => exact (unobstructed pins edge adr decides).1.own snoops own
      | false =>
          rcases acknowledging.wbAckO_of_acksRead unobstructed edge decides with
            ⟨unacked, rfl⟩ | ⟨acked, inc, rfl⟩
          · simp [unacked]
          · simp [acked, inc]

/-- The edge that decides an acknowledge leaves no byte of its word open. -/
theorem Acknowledging.openBytes_eq (acknowledging : Acknowledging (p, sampled))
    (unobstructed : Unobstructed p e) (edge : e.wb = some pins)
    (decides : p.wb.acksRead pins.bus = some adr) : p.openBytes e pins = 0 := by
  obtain ⟨port, apart⟩ := unobstructed pins edge adr decides
  rw [Port.openBytes, acknowledging.wbBuframAddr_eq unobstructed edge decides, apart]
  rcases port.whole with clear | all
  · simp [clear]
  · simp [all]

/-- An edge that decides an acknowledge promises its word. -/
theorem Acknowledging.promised_step (acknowledging : Acknowledging (p, sampled))
    (running : Running e) (unobstructed : Unobstructed p e) (edge : e.wb = some pins)
    (decides : p.wb.acksRead pins.bus = some adr) :
    Promised (p.step e) (sampled.record p e) adr := by
  obtain ⟨reads, hit, ways⟩ := WbSide.acksRead_cases decides
  refine ⟨?_, ?_, ?_, ?_⟩
  · rcases acknowledging.wbAckO_of_acksRead unobstructed edge decides with
      ⟨unacked, word⟩ | ⟨acked, inc, word⟩
    · exact .inl ⟨pins.bus, by simp [Sampled.record, edge, reads, unacked], word.symm⟩
    · exact .inr ⟨pins.bus, by simp [Sampled.record, edge, reads, acked, inc], inc, word.symm⟩
  · have kept : (p.step e).wb.bufAdr = p.wb.bufAdr := by
      have inside : p.wb.wbState ≠ .refill := by
        rcases ways with ⟨state, -⟩ | ⟨state, -⟩
        · simp [state]
        · simp [state]
      have noReset : pins.wbRst = false := running.1 pins edge
      simp [Port.step, edge, WbSide.edge, noReset, WbSide.machine_bufAdr, inside]
    rw [kept]
    simp only [WbSide.bufhit, Bool.and_eq_true, beq_iff_eq] at hit
    exact hit.1.symm
  · have shown : (p.step e).wbDatX = p.openBytes e pins := by simp [Port.step, edge]
    rw [shown, acknowledging.openBytes_eq unobstructed edge decides]
  · rw [← acknowledging.wbBuframAddr_eq unobstructed edge decides]
    simp [Port.step, Sampled.record, edge]

/-- **An instant keeps acknowledges and promised words together.** -/
theorem Acknowledging.step {x : Port bw × Sampled bw} (acknowledging : Acknowledging x)
    (reader : Reader x e) (unobstructed : Unobstructed x.1 e) :
    Acknowledging (Trace.monitored Port.step Sampled.record x e) := by
  obtain ⟨p, sampled⟩ := x
  cases edge : e.wb with
  | none =>
      have wb : (p.step e).wb = p.wb := by simp [Port.step, edge]
      have dat : (p.step e).wbDatO = p.wbDatO := by simp [Port.step, edge]
      have bytes : (p.step e).wbDatX = p.wbDatX := by simp [Port.step, edge]
      have record : sampled.record p e = sampled := by simp [Sampled.record, edge]
      obtain ⟨acks, read, promised⟩ := acknowledging
      refine ⟨?_, ?_, ?_⟩ <;> simp only [Trace.monitored, wb, record]
      · exact acks
      · exact read
      · intro acked
        obtain ⟨adr, asked, line, driven, data⟩ := promised acked
        exact ⟨adr, asked, by rw [wb]; exact line, by rw [bytes]; exact driven,
          by rw [dat]; exact data⟩
  | some pins =>
      have noReset : pins.wbRst = false := reader.running.1 pins edge
      have ack : (p.step e).wb.wbReadAck = (p.wb.machine pins.bus p.full).wbReadAck := by
        simp [Port.step, edge, WbSide.edge, noReset]
      have state : (p.step e).wb.wbState = (p.wb.machine pins.bus p.full).wbState := by
        simp [Port.step, edge, WbSide.edge, noReset]
      refine ⟨?_, ?_, ?_⟩ <;> simp only [Trace.monitored, ack, state]
      · exact WbSide.machine_wbState_acks _ _ _
      · exact WbSide.machine_wbState_read _ _ _
      · intro acked
        rw [WbSide.machine_wbReadAck] at acked
        obtain ⟨adr, decides⟩ := Option.isSome_iff_exists.mp acked
        exact ⟨adr, acknowledging.promised_step reader.running unobstructed edge decides⟩

/-- The master presents the promised word. -/
theorem Acknowledging.readsBuffer {x : Port bw × Sampled bw} (acknowledging : Acknowledging x)
    (reader : Reader x e) : ReadsBuffer x e := by
  intro pins edge acked reads
  obtain ⟨adr, asked, line, driven, data⟩ := acknowledging.promised acked
  have same : lineOf bw pins.bus.adr = lineOf bw adr ∧ wordOf bw pins.bus.adr = wordOf bw adr := by
    rcases asked with ⟨bus, held, rfl⟩ | ⟨bus, burst, inc, rfl⟩
    · rw [reader.held pins edge bus held reads]
      exact ⟨rfl, rfl⟩
    · exact lineOf_wordOf_congr
        (continues_nextWbAdr inc (reader.burst pins edge bus burst reads))
  rw [same.1, same.2]
  exact ⟨driven, data, line⟩

/-! ## Every run -/

theorem Settled.acknowledging (settled : Settled p) : Acknowledging (p, Sampled.start p) where
  acks := by simp [settled.wbReadAck]
  read := by simp [settled.wbState]
  promised := by simp [settled.wbReadAck]

/-- **From every reset on, whatever is read, written and snooped, a read that is presented
with `wb_read_ack` high gets the buffer's word of its address, as long as no write has the
RAM's port for another word, or for some bytes of this one, and the other side does not
store into it, at an edge at which an acknowledge is decided.** -/
theorem read_data (settled : Settled p) {run : List Instant}
    (permitted : Trace.Always (Trace.monitored Port.step Sampled.record)
      (fun x e => Reader x e ∧ Unobstructed x.1 e) (p, Sampled.start p) run) :
    Trace.Always (Trace.monitored Port.step Sampled.record) ReadsBuffer (p, Sampled.start p)
      run := by
  refine permitted.of_invariant Acknowledging ?_ ?_ settled.acknowledging
  · rintro x e acknowledging ⟨reader, unobstructed⟩
    exact acknowledging.step reader unobstructed
  · rintro x e acknowledging ⟨reader, -⟩
    exact acknowledging.readsBuffer reader

/-- A cycle in which a word is read while another port writes, or does not. -/
def readCycle (adr : BitVec 32) (cti : Cti) (bufwAdr : BitVec 32) (bufwWe : Bool) : Instant where
  wb := some
    ⟨false, ⟨adr, 0, 0xf, false, true, true, cti, .wrap4⟩, bufwAdr, 0xdead, 0xf, bufwWe⟩
  sdram := none

/-- An edge of `sdram_clk`, with or without a word of the line. -/
def refillEdge (adr dat : BitVec 32) (ack : Bool) : Instant where
  wb := none
  sdram := some ⟨false, adr, dat, ack⟩

/-- The line of `0x100` is fetched for a read; word `k` of it is `0x10 + k`. -/
def fetchLine (cti : Cti) : List Instant :=
  readCycle 0x100 cti 0 false :: List.replicate 3 (refillEdge 0 0 false) ++
    (List.range 8).map (fun k =>
      refillEdge (0x100 + 4 * BitVec.ofNat 32 k) (0x10 + BitVec.ofNat 32 k) true) ++
    refillEdge 0 0 false :: List.replicate 3 (readCycle 0x100 cti 0 false)

/-- A burst of reads, with a snooped write into the word that is read at the same edge. -/
def burstRun : List Instant :=
  fetchLine .incBurst ++ List.replicate 3 (refillEdge 0 0 false) ++
    [readCycle 0x100 .incBurst 0 false, readCycle 0x100 .incBurst 0 false,
      readCycle 0x104 .incBurst 0 false, readCycle 0x104 .incBurst 0x108 true,
      readCycle 0x108 .incBurst 0 false, readCycle 0x10c .endBurst 0x104 true]

theorem read_data_burstRun :
    Trace.Always (Trace.monitored Port.step Sampled.record)
        (fun x e => Reader x e ∧ Unobstructed x.1 e) (afterReset, Sampled.start afterReset)
        burstRun ∧
      Trace.Always (Trace.monitored Port.step Sampled.record) ReadsBuffer
        (afterReset, Sampled.start afterReset) burstRun := by
  have permitted : Trace.Always (Trace.monitored Port.step Sampled.record)
      (fun x e => Reader x e ∧ Unobstructed x.1 e) (afterReset, Sampled.start afterReset)
      burstRun := by
    decide +kernel
  exact ⟨permitted, read_data settled_afterReset permitted⟩

/-- Another port writes word 3 of the line at the edge at which the read of word 0 is
acknowledged. -/
def snoopedRun : List Instant :=
  fetchLine .classic ++ [readCycle 0x100 .classic 0x10c true, readCycle 0x100 .classic 0 false]

/-- The read gets `0xdead`, which was written into word 3. -/
theorem snoop_takes_port :
    Trace.Always (Trace.monitored Port.step Sampled.record) Reader
        (afterReset, Sampled.start afterReset) snoopedRun ∧
      ¬Trace.Always (Trace.monitored Port.step Sampled.record) ReadsBuffer
        (afterReset, Sampled.start afterReset) snoopedRun := by
  decide +kernel

end OrpsocCores.WbPort
