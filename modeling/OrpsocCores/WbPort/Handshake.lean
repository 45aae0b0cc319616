import OrpsocCores.WbPort.Model

/-!
# The refill handshake of a port

The Wishbone side asks for a line with `read_req_wb`, the SDRAM side answers with
`read_done`, and each sees the other through two flip-flops.  The exchange is a
four-phase handshake: request, answer, withdrawal, quiet.  `Handshake` names the
phases and what the synchroniser stages hold in each; the stages of a signal fill
in order when it rises and empty in order when it falls.

`Handshake.step` says that an instant moves within a phase or to the next one,
for every ratio of the clocks and when both have an edge at once.  What the
development uses of it is that a new request meets an empty path
(`Handshake.quiet_of_entersRefill`).
-/

set_option autoImplicit false

namespace OrpsocCores.WbPort

open Wishbone

variable {bw : Nat}

/-! ## What an edge does to the control registers -/

namespace WbSide

/-- The machine takes a read miss and asks for its line. -/
def entersRefill (s : WbSide bw) (bus : Bus) : Bool :=
  s.wbState == .idle && bus.reads && !(s.bufhit bus.adr && !s.firstReq) &&
    (s.clean bus.adr || s.firstReq) && !s.readDoneWb

/-- The machine stays in `REFILL`. -/
def staysInRefill (s : WbSide bw) : Bool := s.wbState == .refill && !s.readDoneWb

theorem machine_wbState_refill (s : WbSide bw) (bus : Bus) (full : Bool) :
    (s.machine bus full).wbState = .refill ↔
      s.entersRefill bus = true ∨ s.staysInRefill = true := by
  cases state : s.wbState <;>
    simp only [machine, state, entersRefill, staysInRefill, idleBranch, readBranch, refillBranch,
      writeBranch] <;> grind

theorem machine_readReqWb (s : WbSide bw) (bus : Bus) (full : Bool)
    (requests : s.readReqWb = true ↔ s.wbState = .refill) :
    (s.machine bus full).readReqWb = true ↔
      s.entersRefill bus = true ∨ s.staysInRefill = true := by
  cases state : s.wbState <;>
    simp only [machine, state, entersRefill, staysInRefill, idleBranch, readBranch, refillBranch,
      writeBranch] <;> grind

end WbSide

namespace SdramSide

/-- The last word of the burst arrives. -/
def completes (s : SdramSide bw) (pins : SdramPins) : Bool :=
  s.ackCount == BitVec.ofNat 32 (2 ^ bw - 1) && pins.ackI

theorem machine_sdramState (s : SdramSide bw) (pins : SdramPins) (empty : Bool)
    (wbAdr : BitVec 32) :
    (s.machine pins empty wbAdr).sdramState =
      match s.sdramState with
      | .idle => if !empty then .write else if s.readReqSdram then .read else .idle
      | .read => if s.completes pins then .waitLatency else .read
      | .write => if pins.ackI then .idle else .write
      | .waitLatency => if s.readReqSdram then .waitLatency else .idle
      | _ => .idle := by
  cases state : s.sdramState <;>
    simp only [machine, state, idleBranch, readBranch, sampled, completes] <;> grind

theorem machine_readDone (s : SdramSide bw) (pins : SdramPins) (empty : Bool)
    (wbAdr : BitVec 32) :
    (s.machine pins empty wbAdr).readDone =
      match s.sdramState with
      | .read => s.completes pins || s.readDone
      | .waitLatency => s.readReqSdram && s.readDone
      | _ => s.readDone := by
  cases state : s.sdramState <;>
    simp only [machine, state, idleBranch, readBranch, sampled, completes] <;> grind

end SdramSide

/-! ## The phases -/

/-- The phases of the exchange and what the synchroniser stages hold in each. -/
inductive Exchange (wb : WbSide bw) (sdram : SdramSide bw) : Prop where
  /-- No request, no answer; the last answer may still be leaving the path. -/
  | quiet (request : wb.readReqWb = false) (seen : sdram.readReq = false)
      (synced : sdram.readReqSdram = false) (answer : sdram.readDone = false)
      (leaving : wb.readDoneR = true → wb.readDoneWb = true)
      (state : sdram.sdramState = .idle ∨ sdram.sdramState = .write) : Exchange wb sdram
  /-- The request is on its way or being served. -/
  | requested (request : wb.readReqWb = true)
      (arriving : sdram.readReqSdram = true → sdram.readReq = true)
      (answer : sdram.readDone = false) (seen : wb.readDoneR = false)
      (synced : wb.readDoneWb = false)
      (state : sdram.sdramState = .idle ∨ sdram.sdramState = .write ∨
        sdram.sdramState = .read ∧ sdram.readReqSdram = true) : Exchange wb sdram
  /-- The line is complete and the answer is on its way. -/
  | answered (request : wb.readReqWb = true) (seen : sdram.readReq = true)
      (synced : sdram.readReqSdram = true) (answer : sdram.readDone = true)
      (arriving : wb.readDoneWb = true → wb.readDoneR = true)
      (state : sdram.sdramState = .waitLatency) : Exchange wb sdram
  /-- The request has been withdrawn and is leaving the path. -/
  | withdrawn (request : wb.readReqWb = false)
      (leaving : sdram.readReq = true → sdram.readReqSdram = true)
      (answer : sdram.readDone = true) (seen : wb.readDoneR = true)
      (synced : wb.readDoneWb = true) (state : sdram.sdramState = .waitLatency) :
      Exchange wb sdram

/-- The request is up exactly in `REFILL`, and the exchange is in one of its
phases. -/
structure Handshake (p : Port bw) : Prop where
  requests : p.wb.readReqWb = true ↔ p.wb.wbState = .refill
  exchange : Exchange p.wb p.sdram

theorem Settled.handshake {p : Port bw} (settled : Settled p) : Handshake p where
  requests := by simp [settled.readReqWb, settled.wbState]
  exchange := .quiet settled.readReqWb settled.readReq settled.readReqSdram settled.readDone
    (fun late => by simp [settled.readDoneR] at late) (Or.inl settled.sdramState)

variable {p : Port bw} {e : Instant}

/-- Only in `IDLE` and without an answer in sight does the machine ask for a line. -/
theorem WbSide.idle_of_entersRefill {s : WbSide bw} {bus : Bus} (enters : s.entersRefill bus = true) :
    s.wbState = .idle ∧ s.readDoneWb = false := by
  simp only [entersRefill, Bool.and_eq_true, Bool.not_eq_true', beq_iff_eq] at enters
  exact ⟨enters.1.1.1.1, enters.2⟩

/-- **A new request meets an empty path**: the last request and its answer have
left every stage. -/
theorem Handshake.quiet_of_entersRefill (handshake : Handshake p) {bus : Bus}
    (enters : p.wb.entersRefill bus = true) :
    p.wb.readReqWb = false ∧ p.sdram.readReq = false ∧ p.sdram.readReqSdram = false ∧
      p.sdram.readDone = false ∧ p.wb.readDoneR = false := by
  obtain ⟨idle, unanswered⟩ := WbSide.idle_of_entersRefill enters
  have request : p.wb.readReqWb = false := by
    have := handshake.requests
    rw [idle] at this
    simpa using this
  cases handshake.exchange with
  | quiet _ seen synced answer leaving _ =>
      refine ⟨request, seen, synced, answer, ?_⟩
      cases late : p.wb.readDoneR with
      | false => rfl
      | true => rw [leaving late] at unanswered; cases unanswered
  | requested up => rw [up] at request; cases request
  | answered up => rw [up] at request; cases request
  | withdrawn _ _ _ _ synced => rw [synced] at unanswered; cases unanswered

/-- The request after an instant. -/
theorem Handshake.readReqWb_step (handshake : Handshake p) (running : Running e) :
    ((p.step e).wb.readReqWb = true ↔ (p.step e).wb.wbState = .refill) ∧
      (p.step e).wb.readReqWb =
        match e.wb with
        | none => p.wb.readReqWb
        | some pins => p.wb.entersRefill pins.bus || (p.wb.readReqWb && !p.wb.readDoneWb) := by
  cases edge : e.wb with
  | none => simpa [Port.step, edge] using handshake.requests
  | some pins =>
      have noReset : pins.wbRst = false := running.1 pins (by simp [edge])
      have request := p.wb.machine_readReqWb pins.bus p.full handshake.requests
      have state := p.wb.machine_wbState_refill pins.bus p.full
      have stays : p.wb.staysInRefill = (p.wb.readReqWb && !p.wb.readDoneWb) := by
        rw [Bool.eq_iff_iff]
        simp [WbSide.staysInRefill, handshake.requests]
      rw [stays] at request state
      simp only [Port.step, edge, WbSide.edge, noReset, Bool.false_eq_true, if_false]
      refine ⟨request.trans state.symm, ?_⟩
      rw [Bool.eq_iff_iff, Bool.or_eq_true]
      exact request

/-- The answer's stages after an instant. -/
theorem readDone_stages_step (running : Running e) :
    (p.step e).wb.readDoneR = (if e.wb.isSome then p.sdram.readDone else p.wb.readDoneR) ∧
      (p.step e).wb.readDoneWb = (if e.wb.isSome then p.wb.readDoneR else p.wb.readDoneWb) := by
  cases edge : e.wb with
  | none => simp [Port.step, edge]
  | some pins =>
      have noReset : pins.wbRst = false := running.1 pins (by simp [edge])
      simp [Port.step, edge, WbSide.edge, noReset]

/-- The request's stages after an instant. -/
theorem readReq_stages_step (p : Port bw) (e : Instant) :
    (p.step e).sdram.readReq = (if e.sdram.isSome then p.wb.readReqWb else p.sdram.readReq) ∧
      (p.step e).sdram.readReqSdram =
        (if e.sdram.isSome then p.sdram.readReq else p.sdram.readReqSdram) := by
  cases edge : e.sdram <;> simp [Port.step, edge, SdramSide.edge]

/-- The SDRAM side after an instant without an edge of its clock, or with one. -/
theorem sdram_after (running : Running e) :
    (e.sdram = none ∧ (p.step e).sdram = p.sdram) ∨
      ∃ pins, e.sdram = some pins ∧ (p.step e).sdram =
        { p.sdram.machine pins p.empty p.wb.wbAdr with
          readReq := p.wb.readReqWb, readReqSdram := p.sdram.readReq } := by
  cases edge : e.sdram with
  | none => exact Or.inl ⟨rfl, by simp [Port.step, edge]⟩
  | some pins =>
      have noReset : pins.sdramRst = false := running.2 pins (by simp [edge])
      exact Or.inr ⟨pins, rfl, by simp [Port.step, edge, SdramSide.edge, noReset]⟩

/-- What an instant does to the registers of the exchange. -/
structure Advances (p : Port bw) (e : Instant) : Prop where
  request : (p.step e).wb.readReqWb =
    match e.wb with
    | none => p.wb.readReqWb
    | some pins => p.wb.entersRefill pins.bus || (p.wb.readReqWb && !p.wb.readDoneWb)
  doneR : (p.step e).wb.readDoneR = (if e.wb.isSome then p.sdram.readDone else p.wb.readDoneR)
  doneWb : (p.step e).wb.readDoneWb = (if e.wb.isSome then p.wb.readDoneR else p.wb.readDoneWb)
  req : (p.step e).sdram.readReq = (if e.sdram.isSome then p.wb.readReqWb else p.sdram.readReq)
  reqSdram : (p.step e).sdram.readReqSdram =
    (if e.sdram.isSome then p.sdram.readReq else p.sdram.readReqSdram)
  sdram : (e.sdram = none ∧ (p.step e).sdram.sdramState = p.sdram.sdramState ∧
      (p.step e).sdram.readDone = p.sdram.readDone) ∨
    ∃ pins, e.sdram = some pins ∧
      (p.step e).sdram.sdramState = (p.sdram.machine pins p.empty p.wb.wbAdr).sdramState ∧
      (p.step e).sdram.readDone = (p.sdram.machine pins p.empty p.wb.wbAdr).readDone

theorem Handshake.advances (handshake : Handshake p) (running : Running e) : Advances p e where
  request := (handshake.readReqWb_step running).2
  doneR := (readDone_stages_step running).1
  doneWb := (readDone_stages_step running).2
  req := (readReq_stages_step p e).1
  reqSdram := (readReq_stages_step p e).2
  sdram := by
    rcases sdram_after (p := p) running with ⟨none, same⟩ | ⟨pins, edge, after⟩
    · exact Or.inl ⟨none, by rw [same], by rw [same]⟩
    · exact Or.inr ⟨pins, edge, by rw [after], by rw [after]⟩

namespace Advances

theorem from_quiet (advances : Advances p e) (request : p.wb.readReqWb = false)
    (seen : p.sdram.readReq = false) (synced : p.sdram.readReqSdram = false)
    (answer : p.sdram.readDone = false) (leaving : p.wb.readDoneR = true → p.wb.readDoneWb = true)
    (state : p.sdram.sdramState = .idle ∨ p.sdram.sdramState = .write)
    (fresh : ∀ pins, e.wb = some pins → p.wb.entersRefill pins.bus = true →
      p.wb.readDoneWb = false ∧ p.wb.readDoneR = false) :
    Exchange (p.step e).wb (p.step e).sdram := by
  obtain ⟨up, doneR, doneWb, req, reqSdram, sdram⟩ := advances
  simp only [SdramSide.machine_sdramState, SdramSide.machine_readDone] at sdram
  by_cases enters : ∃ pins, e.wb = some pins ∧ p.wb.entersRefill pins.bus = true
  · obtain ⟨pins, edge, enters⟩ := enters
    refine .requested ?_ ?_ ?_ ?_ ?_ ?_ <;> grind
  · refine .quiet ?_ ?_ ?_ ?_ ?_ ?_ <;> grind

theorem from_requested (advances : Advances p e) (request : p.wb.readReqWb = true)
    (arriving : p.sdram.readReqSdram = true → p.sdram.readReq = true)
    (answer : p.sdram.readDone = false) (seen : p.wb.readDoneR = false)
    (synced : p.wb.readDoneWb = false)
    (state : p.sdram.sdramState = .idle ∨ p.sdram.sdramState = .write ∨
      p.sdram.sdramState = .read ∧ p.sdram.readReqSdram = true) :
    Exchange (p.step e).wb (p.step e).sdram := by
  obtain ⟨up, doneR, doneWb, req, reqSdram, sdram⟩ := advances
  simp only [SdramSide.machine_sdramState, SdramSide.machine_readDone] at sdram
  by_cases done : ∃ pins, e.sdram = some pins ∧ p.sdram.sdramState = .read ∧
      p.sdram.completes pins = true
  · obtain ⟨pins, edge, reading, completes⟩ := done
    refine .answered ?_ ?_ ?_ ?_ ?_ ?_ <;> grind
  · refine .requested ?_ ?_ ?_ ?_ ?_ ?_ <;> grind

theorem from_answered (advances : Advances p e) (request : p.wb.readReqWb = true)
    (seen : p.sdram.readReq = true) (synced : p.sdram.readReqSdram = true)
    (answer : p.sdram.readDone = true) (arriving : p.wb.readDoneWb = true → p.wb.readDoneR = true)
    (state : p.sdram.sdramState = .waitLatency)
    (fresh : ∀ pins, e.wb = some pins → p.wb.entersRefill pins.bus = true →
      p.wb.readReqWb = false) :
    Exchange (p.step e).wb (p.step e).sdram := by
  obtain ⟨up, doneR, doneWb, req, reqSdram, sdram⟩ := advances
  simp only [SdramSide.machine_sdramState, SdramSide.machine_readDone] at sdram
  by_cases withdraws : e.wb.isSome ∧ p.wb.readDoneWb = true
  · refine .withdrawn ?_ ?_ ?_ ?_ ?_ ?_ <;> grind
  · refine .answered ?_ ?_ ?_ ?_ ?_ ?_ <;> grind

theorem from_withdrawn (advances : Advances p e) (request : p.wb.readReqWb = false)
    (leaving : p.sdram.readReq = true → p.sdram.readReqSdram = true)
    (answer : p.sdram.readDone = true) (seen : p.wb.readDoneR = true)
    (synced : p.wb.readDoneWb = true) (state : p.sdram.sdramState = .waitLatency)
    (fresh : ∀ pins, e.wb = some pins → p.wb.entersRefill pins.bus = true →
      p.wb.readDoneWb = false) :
    Exchange (p.step e).wb (p.step e).sdram := by
  obtain ⟨up, doneR, doneWb, req, reqSdram, sdram⟩ := advances
  simp only [SdramSide.machine_sdramState, SdramSide.machine_readDone] at sdram
  by_cases clears : e.sdram.isSome ∧ p.sdram.readReqSdram = false
  · refine .quiet ?_ ?_ ?_ ?_ ?_ ?_ <;> grind
  · refine .withdrawn ?_ ?_ ?_ ?_ ?_ ?_ <;> grind

end Advances

/-- **An instant moves within a phase or to the next one.** -/
theorem Handshake.step (handshake : Handshake p) (running : Running e) : Handshake (p.step e) := by
  have advances := handshake.advances running
  have unanswered : ∀ pins, e.wb = some pins → p.wb.entersRefill pins.bus = true →
      p.wb.readDoneWb = false := fun pins _ enters => (WbSide.idle_of_entersRefill enters).2
  refine ⟨(handshake.readReqWb_step running).1, ?_⟩
  cases handshake.exchange with
  | quiet request seen synced answer leaving state =>
      exact advances.from_quiet request seen synced answer leaving state fun pins edge enters =>
        ⟨unanswered pins edge enters, (handshake.quiet_of_entersRefill enters).2.2.2.2⟩
  | requested request arriving answer seen synced state =>
      exact advances.from_requested request arriving answer seen synced state
  | answered request seen synced answer arriving state =>
      exact advances.from_answered request seen synced answer arriving state fun _ _ enters =>
        (handshake.quiet_of_entersRefill enters).1
  | withdrawn request leaving answer seen synced state =>
      exact advances.from_withdrawn request leaving answer seen synced state unanswered

end OrpsocCores.WbPort
