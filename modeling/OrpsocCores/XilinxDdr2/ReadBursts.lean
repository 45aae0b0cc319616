import OrpsocCores.XilinxDdr2.Coherence

/-!
# Read bursts

A port that bursts acknowledges the next beat of an incrementing burst while the present
one is still acknowledged, from the match of the present address.  Within a line that is
right.  After the last word of a line the next beat is acknowledged from the line that the
burst has left, before the refill of the new one begins (`line_left_behind`).

Without writes nothing else can go wrong: as long as no burst crosses to the next line
from one cycle to the next, every acknowledged read is the word in the memory
(`reads_memory`).  A port that does not burst never crosses so, and neither does a burst
whose master waits one cycle at the end of a line.
-/

set_option autoImplicit false

namespace OrpsocCores.XilinxDdr2

open Wishbone

variable {p : Params}

/-! ## Masters that only read -/

/-- What the last cycle showed of each port: the access that was not acknowledged, the
acknowledged beat of an incrementing burst, and whether the memory controller took commands. -/
structure Beats where
  held : Fin 5 → Option Bus
  last : Fin 5 → Option Bus
  ready : Fin 5 → Bool

/-- No cycle has passed. -/
def Beats.none : Beats := ⟨fun _ => .none, fun _ => .none, fun _ => false⟩

/-- The recorder. -/
def Beats.record (s : State p) (e : Cycle) (_ : Beats) : Beats where
  held i := if (e.bus i).valid && !s.wbAckO i then some (e.bus i) else .none
  last i :=
    if (e.bus i).reads && s.wbAckO i && (e.bus i).cti == .incBurst then some (e.bus i) else .none
  ready i := e.calibDone && !e.cmdFull i

/-- What masters and memory controller owe: no reset, no writes, an access is presented until
it is acknowledged, a burst goes on at the next word, every port has its turn, and there is
read data only after a read command. -/
structure ReadsOnly (x : State p × Beats) (e : Cycle) : Prop where
  running : e.wbRst = false
  noWrite : ∀ i, (e.bus i).writes = false
  holds : ∀ i, ∀ bus ∈ x.2.held i, e.bus i = bus
  consecutive : ∀ i, ∀ bus ∈ x.2.last i, (e.bus i).reads = true →
    (e.bus i).adr.toNat / 4 = (bus.adr.toNat / 4 + 1) % 2 ^ 30
  turns : e.order.Perm (List.finRange 5)
  returned : ∀ i, x.1.mig.rdFifo i = [] → e.rdEmpty i = true

/-- No port that bursts is presented a read in the cycle right after it acknowledged a beat of
an incrementing burst at the last word of a line, unless the memory controller took no
commands in that cycle. -/
def StaysInLine (x : State p × Beats) (e : Cycle) : Prop :=
  ∀ i, p.wbBursting i = true → x.2.ready i = true → ∀ bus ∈ x.2.last i,
    (e.bus i).reads = true → bus.adr.toNat / 4 % 2 ^ p.width i ≠ 2 ^ p.width i - 1

/-- Every acknowledged read delivers the word of its address. -/
def ReadsMemory (mem : Nat → Word) (x : State p × Beats) (e : Cycle) : Prop :=
  ∀ i, (e.bus i).reads = true → x.1.wbAckO i = true →
    x.1.wbDatO e i = mem (wordAdr (e.bus i).adr)

instance (x : State p × Beats) (e : Cycle) : Decidable (ReadsOnly x e) :=
  decidable_of_iff
    (e.wbRst = false ∧ (∀ i, (e.bus i).writes = false) ∧ (∀ i, ∀ bus ∈ x.2.held i, e.bus i = bus) ∧
      (∀ i, ∀ bus ∈ x.2.last i, (e.bus i).reads = true →
        (e.bus i).adr.toNat / 4 = (bus.adr.toNat / 4 + 1) % 2 ^ 30) ∧
      e.order.Perm (List.finRange 5) ∧ ∀ i, x.1.mig.rdFifo i = [] → e.rdEmpty i = true)
    ⟨fun ⟨running, noWrite, holds, consecutive, turns, returned⟩ =>
      ⟨running, noWrite, holds, consecutive, turns, returned⟩,
    fun ⟨running, noWrite, holds, consecutive, turns, returned⟩ =>
      ⟨running, noWrite, holds, consecutive, turns, returned⟩⟩

instance (x : State p × Beats) (e : Cycle) : Decidable (StaysInLine x e) :=
  inferInstanceAs (Decidable (∀ i, _ → _ → ∀ bus ∈ x.2.last i, _ → _))

instance (mem : Nat → Word) (x : State p × Beats) (e : Cycle) : Decidable (ReadsMemory mem x e) :=
  inferInstanceAs (Decidable (∀ _, _ → _ → _))

/-! ## The line of the next beat -/

/-- The next word is in the line, except after the last one. -/
theorem lineOf_next {w : Nat} (legal : w ≤ 27) {adr adr' : BitVec 32}
    (next : adr'.toNat / 4 = (adr.toNat / 4 + 1) % 2 ^ 30)
    (inside : adr.toNat / 4 % 2 ^ w ≠ 2 ^ w - 1) : lineOf w adr' = lineOf w adr := by
  have words : ∀ a : BitVec 32, lineOf w a = a.toNat / 4 / 2 ^ w := by
    intro a
    rw [lineOf, upper, Nat.div_div_eq_div_mul, Nat.pow_add, Nat.mul_comm]
  have positive : 0 < 2 ^ w := Nat.two_pow_pos w
  have bound : adr.toNat / 4 % 2 ^ w < 2 ^ w := Nat.mod_lt _ positive
  have room : adr.toNat / 4 % 2 ^ w + 1 < 2 ^ w := by omega
  have split : adr.toNat / 4 + 1 =
      2 ^ w * (adr.toNat / 4 / 2 ^ w) + (adr.toNat / 4 % 2 ^ w + 1) := by
    have whole := Nat.div_add_mod (adr.toNat / 4) (2 ^ w)
    omega
  have small : adr.toNat / 4 + 1 < 2 ^ 30 := by
    -- the last word of the memory is the last one of its line
    have below : adr.toNat / 4 < 2 ^ 30 := by
      have := adr.isLt
      omega
    refine Nat.lt_of_le_of_ne below fun last => inside ?_
    have divides : 2 ^ w ∣ 2 ^ 30 := Nat.pow_dvd_pow 2 (by omega)
    have whole : (adr.toNat / 4 + 1) % 2 ^ w = 0 := by
      rw [last]
      exact Nat.mod_eq_zero_of_dvd divides
    rw [split, Nat.mul_add_mod, Nat.mod_eq_of_lt room] at whole
    omega
  rw [words, words, next, Nat.mod_eq_of_lt small, split, Nat.mul_add_div positive,
    Nat.div_eq_of_lt room, Nat.add_zero]

/-! ## Runs without writes -/

section

variable {s : State p} {h : History} {beats : Beats} {e : Cycle} {i : Fin 5} {mem : Nat → Word}

/-- The interface as `Coherent` sees it, with a history in which nothing was written. -/
structure Unwritten (mem : Nat → Word) (s : State p) (beats : Beats) (h : History) : Prop where
  coherent : Coherent mem (s, h)
  none : h.acked = []
  held : ∀ i, (h.pending i).map Prod.fst = beats.held i
  silent : ∀ i, (s.ports i).wbAckWrite = false
  /-- An acknowledge is for the access that is held or for the beat after the last one, and
  the buffer holds its line. -/
  promised : ∀ i, (s.ports i).wbAckRead = true →
    (∃ bus ∈ beats.held i, lineOf (p.width i) bus.adr = (s.ports i).burstAddr) ∨
      (p.wbBursting i = true ∧ beats.ready i = true ∧
        ∃ bus ∈ beats.last i, lineOf (p.width i) bus.adr = (s.ports i).burstAddr)

namespace Unwritten

/-- Masters that only read are faithful. -/
theorem faithful (unwritten : Unwritten mem s beats h) (readsOnly : ReadsOnly (s, beats) e) :
    Faithful (s, h) e where
  running := readsOnly.running
  holds := by
    intro i access pending
    refine readsOnly.holds i access.1 ?_
    have held : beats.held i = some access.1 := by
      rw [← unwritten.held i, pending]
      rfl
    exact held
  bursts i _ := readsOnly.noWrite i
  turns := readsOnly.turns
  returned := readsOnly.returned

/-- No write is pushed. -/
theorem wrEn_eq_false (readsOnly : ReadsOnly (s, beats) e) : s.wrEn e i = false := by
  rw [← Bool.not_eq_true]
  intro pushes
  have silent : (e.bus i).writes = false := readsOnly.noWrite i
  cases we : (e.bus i).we with
  | false => simp [State.wrEn, Userport.wrEn, State.pins, we] at pushes
  | true =>
      simp only [State.wrEn, Userport.wrEn, State.pins, we, Userport.wbReqNew, Userport.wbReq,
        if_true, Bool.and_eq_true] at pushes
      obtain ⟨⟨⟨⟨⟨stb, cyc⟩, -⟩, -⟩, -⟩, -⟩ := pushes
      simp [Pins.writes, stb, cyc, we] at silent

/-- An acknowledged read is in the line. -/
theorem stays (unwritten : Unwritten mem s beats h) (readsOnly : ReadsOnly (s, beats) e)
    (staysInLine : StaysInLine (s, beats) e) (i : Fin 5) : Stays s e i := by
  intro reads acks
  rcases unwritten.promised i acks with ⟨bus, held, line⟩ | ⟨bursting, ready, bus, last, line⟩
  · rw [readsOnly.holds i bus held]
    exact line
  · have inside := staysInLine i bursting ready bus last reads
    rw [lineOf_next (p.legal i) (readsOnly.consecutive i bus last reads) inside]
    exact line

theorem heeded (unwritten : Unwritten mem s beats h) (readsOnly : ReadsOnly (s, beats) e)
    (staysInLine : StaysInLine (s, beats) e) : Heeded s e where
  writable j pushes := by
    rw [wrEn_eq_false readsOnly] at pushes
    cases pushes
  marks i j pushes := by
    rw [wrEn_eq_false readsOnly] at pushes
    cases pushes
  precedes i j _ writes := by
    rw [unwritten.silent j] at writes
    cases writes
  stays := unwritten.stays readsOnly staysInLine

/-- The line that an acknowledge is decided from stays in the buffer. -/
theorem burstAddr_of_served (unwritten : Unwritten mem s beats h)
    (faithful : Faithful (s, h) e) (served : (s.ports i).served (e.bus i) = true) :
    ((s.step e).ports i).burstAddr = lineOf (p.width i) (e.bus i).adr := by
  simp only [Userport.served, Userport.addrMatch, Bool.and_eq_true, Bool.not_eq_true',
    beq_iff_eq] at served
  obtain ⟨⟨⟨here, -⟩, -⟩, silent⟩ := served
  rw [(unwritten.coherent.readPath i).nextLine_eq faithful, State.nextLine, silent]
  exact here

theorem promised_step (unwritten : Unwritten mem s beats h)
    (readsOnly : ReadsOnly (s, beats) e) (acks : ((s.step e).ports i).wbAckRead = true) :
    (∃ bus ∈ (beats.record s e).held i,
        lineOf (p.width i) bus.adr = ((s.step e).ports i).burstAddr) ∨
      (p.wbBursting i = true ∧ (beats.record s e).ready i = true ∧
        ∃ bus ∈ (beats.record s e).last i,
          lineOf (p.width i) bus.adr = ((s.step e).ports i).burstAddr) := by
  obtain ⟨request, served⟩ := Bool.and_eq_true_iff.mp acks
  have line := unwritten.burstAddr_of_served (unwritten.faithful readsOnly) served
  obtain ⟨valid, we, -⟩ := presented_of_wbReadReq request
  have ready : (beats.record s e).ready i = true := by
    simp only [Userport.wbReadReq, Userport.wbReq, State.pins, Bool.and_eq_true] at request
    obtain ⟨⟨⟨⟨⟨-, calib⟩, room⟩, -⟩, -⟩, -⟩ := request
    simp only [Beats.record, calib, room, Bool.and_self]
  cases acked : s.wbAckO i with
  | false =>
      refine .inl ⟨e.bus i, ?_, line.symm⟩
      simp [Beats.record, valid, acked]
  | true =>
      have read : (s.ports i).wbAckRead = true := by
        rw [State.wbAckO, Userport.wbAckO, unwritten.silent i] at acked
        exact acked
      have burst : (e.bus i).cti = .incBurst ∧ p.wbBursting i = true := by
        simp only [Userport.wbReadReq, read, Bool.and_eq_true, Bool.or_eq_true, Bool.not_true,
          Bool.false_eq_true, false_or, beq_iff_eq] at request
        exact request.2
      have reads : (e.bus i).reads = true := by
        rw [Pins.reads, we]
        simpa [Pins.valid] using valid
      refine .inr ⟨burst.2, ready, e.bus i, ?_, line.symm⟩
      simp [Beats.record, reads, acked, burst.1]

/-- **A cycle without writes keeps the invariant.** -/
theorem step (unwritten : Unwritten mem s beats h) (readsOnly : ReadsOnly (s, beats) e)
    (staysInLine : StaysInLine (s, beats) e) :
    Unwritten mem (s.step e) (beats.record s e) (s.record e h) where
  coherent := unwritten.coherent.step (unwritten.faithful readsOnly)
    (unwritten.heeded readsOnly staysInLine)
  none := by
    have nothing : ∀ j, s.ackedWrite e j = .none := fun j => by
      simp [State.ackedWrite, readsOnly.noWrite j]
    simp [State.record, unwritten.none, nothing]
  held := by
    intro i
    simp only [State.record, Beats.record]
    split <;> rfl
  silent _ := wrEn_eq_false readsOnly
  promised _ acks := unwritten.promised_step readsOnly acks

theorem readsMemory (unwritten : Unwritten mem s beats h) (readsOnly : ReadsOnly (s, beats) e)
    (staysInLine : StaysInLine (s, beats) e) : ReadsMemory mem (s, beats) e := by
  intro i reads acks
  have memory : s.mig.mem = contents mem h.acked := unwritten.coherent.memory
  rw [unwritten.none] at memory
  have data : s.wbDatO e i = s.mig.mem (wordAdr (e.bus i).adr) :=
    unwritten.coherent.wbDatO_eq (unwritten.faithful readsOnly)
      (unwritten.stays readsOnly staysInLine i) reads acks
  rw [memory] at data
  exact data

end Unwritten

theorem unwritten_of_settled (settled : Settled s) :
    Unwritten s.mig.mem s Beats.none History.empty where
  coherent := coherent_of_settled settled
  none := rfl
  held _ := rfl
  silent i := (settled.clear i).2.2.2
  promised i acks := by
    rw [(settled.clear i).2.2.1] at acks
    cases acks

end

/-! ## Every run -/

/-- **In every run without writes, every acknowledged read delivers the word of its address,
as long as no burst crosses from one line to the next from one cycle to the next.** -/
theorem reads_memory {s : State p} (settled : Settled s) {run : List Cycle}
    (permitted : Trace.Always (Trace.monitored State.step Beats.record)
      (fun x e => ReadsOnly x e ∧ StaysInLine x e) (s, Beats.none) run) :
    Trace.Always (Trace.monitored State.step Beats.record) (ReadsMemory s.mig.mem)
      (s, Beats.none) run := by
  refine permitted.of_invariant (fun x => ∃ h, Unwritten s.mig.mem x.1 x.2 h) ?_ ?_
    ⟨_, unwritten_of_settled settled⟩
  · rintro ⟨s', beats⟩ e ⟨h, unwritten⟩ ⟨readsOnly, staysInLine⟩
    exact ⟨_, unwritten.step readsOnly staysInLine⟩
  · rintro ⟨s', beats⟩ e ⟨h, unwritten⟩ ⟨readsOnly, staysInLine⟩
    exact unwritten.readsMemory readsOnly staysInLine

/-- Word `n` of the memory holds `n`. -/
def numbered : State wideLast :=
  { afterReset with mig := { afterReset.mig with mem := BitVec.ofNat 32 } }

theorem settled_numbered : Settled numbered :=
  ⟨settled_afterReset.clear, settled_afterReset.dirty, settled_afterReset.empty⟩

/-- A cycle in which port 0 reads, and is or is not delivered a word. -/
def burstCycle (adr : BitVec 32) (cti : Cti) (delivers : Bool) : Cycle :=
  { accessCycle 0 false adr 0 false with
    bus := fun i =>
      if i.val = 0 then ⟨adr, 0, 0xf, false, true, true, cti, .linear⟩ else Pins.idle
    rdEmpty := fun i => i.val ≠ 0 || !delivers }

/-- The line at an address is fetched, and the first beat is acknowledged. -/
def fetchedBurst (adr : BitVec 32) : List Cycle :=
  [burstCycle adr .incBurst false, burstCycle adr .incBurst false, burstCycle adr .incBurst true,
    burstCycle adr .incBurst true, burstCycle adr .incBurst false, burstCycle adr .incBurst false]

/-- A burst up to the end of a line. -/
def wholeLine : List Cycle := fetchedBurst 0x100 ++ [burstCycle 0x104 .incBurst false]

/-- The burst goes on in the next line after a pause. -/
def pausedBurst : List Cycle := wholeLine ++ idleCycle :: fetchedBurst 0x108

theorem reads_memory_pausedBurst :
    Trace.Always (Trace.monitored State.step Beats.record)
        (fun x e => ReadsOnly x e ∧ StaysInLine x e) (numbered, Beats.none) pausedBurst ∧
      Trace.Always (Trace.monitored State.step Beats.record) (ReadsMemory numbered.mig.mem)
        (numbered, Beats.none) pausedBurst := by
  have permitted : Trace.Always (Trace.monitored State.step Beats.record)
      (fun x e => ReadsOnly x e ∧ StaysInLine x e) (numbered, Beats.none) pausedBurst := by
    decide +kernel
  exact ⟨permitted, reads_memory settled_numbered permitted⟩

/-- The third beat, in the next line, gets the first word of the old one. -/
theorem line_left_behind :
    Trace.Always (Trace.monitored State.step Beats.record) ReadsOnly (numbered, Beats.none)
        (wholeLine ++ [burstCycle 0x108 .endBurst false]) ∧
      ¬Trace.Always (Trace.monitored State.step Beats.record) (ReadsMemory numbered.mig.mem)
        (numbered, Beats.none) (wholeLine ++ [burstCycle 0x108 .endBurst false]) := by
  refine ⟨by decide +kernel, fun always => ?_⟩
  have third := always.last
  exact absurd (third 0 rfl (by decide +kernel)) (by decide +kernel)

end OrpsocCores.XilinxDdr2
