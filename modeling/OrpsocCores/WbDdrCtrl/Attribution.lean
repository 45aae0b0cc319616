import OrpsocCores.WbDdrCtrl.Model

/-!
# Whose command it is

The wrapper, the arbiter and the selected port go through a command in step (`Stage`):
the arbiter hands over only in `IDLE` and while the selected port makes no access, the
port makes its access until the last acknowledge, and wrapper and port count the same
words.  Every other port waits with its counter at zero.
-/

set_option autoImplicit false

namespace OrpsocCores.WbDdrCtrl

open WbPort (Port SdramSide SdramPins)
open WbPortArbiter (Arbiter Selection)

/-! ## A port's side of the interface -/

section

variable {bw : Nat}

/-- `acc_o` and `we_o` follow the state. -/
inductive Mode (s : SdramSide bw) : Prop where
  | idle (state : s.sdramState = .idle) (acc : s.accO = false)
  | reading (state : s.sdramState = .read) (acc : s.accO = true) (we : s.weO = false)
  | writing (state : s.sdramState = .write) (acc : s.accO = true) (we : s.weO = true)
  | waiting (state : s.sdramState = .waitLatency) (acc : s.accO = false)

/-- The port has not counted a word of the line it asks for. -/
def Fresh (s : SdramSide bw) : Prop := s.sdramState = .read → s.ackCount = 0

variable {s : SdramSide bw} {pins : SdramPins} {empty readReqWb : Bool} {wbAdr : BitVec 32}

/-- A port that makes no access may start one, a read with its counter at zero. -/
theorem edge_of_silent (mode : Mode s) (running : pins.sdramRst = false) (silent : s.accO = false) :
    Mode (s.edge pins empty readReqWb wbAdr) ∧ Fresh (s.edge pins empty readReqWb wbAdr) := by
  rw [Fresh]
  cases mode with
  | idle state acc =>
      simp only [SdramSide.edge, running, SdramSide.machine, state, SdramSide.idleBranch]
      cases empty with
      | false => exact ⟨.writing rfl rfl rfl, by simp⟩
      | true =>
          rcases Bool.eq_false_or_eq_true s.readReqSdram with request | request
          · refine ⟨.reading ?_ ?_ ?_, ?_⟩ <;> simp [request]
          · refine ⟨.idle ?_ ?_, ?_⟩ <;> simp [request, acc]
  | reading _ acc => rw [acc] at silent; cases silent
  | writing _ acc => rw [acc] at silent; cases silent
  | waiting state acc =>
      simp only [SdramSide.edge, running, SdramSide.machine, state, SdramSide.sampled]
      rcases Bool.eq_false_or_eq_true s.readReqSdram with request | request
      · refine ⟨.waiting ?_ ?_, ?_⟩ <;> simp [request, acc]
      · refine ⟨.idle ?_ ?_, ?_⟩ <;> simp [request, acc]

/-- A port waits for its acknowledge. -/
theorem edge_of_unacked (mode : Mode s) (running : pins.sdramRst = false)
    (unacked : pins.ackI = false) (access : s.accO = true) :
    Mode (s.edge pins empty readReqWb wbAdr) ∧
      (s.edge pins empty readReqWb wbAdr).sdramState = s.sdramState ∧
      (s.edge pins empty readReqWb wbAdr).accO = true ∧
      (s.edge pins empty readReqWb wbAdr).ackCount = s.ackCount := by
  cases mode with
  | idle _ acc => rw [acc] at access; cases access
  | reading state acc we =>
      have same : (s.edge pins empty readReqWb wbAdr).sdramState = .read ∧
          (s.edge pins empty readReqWb wbAdr).accO = true ∧
          (s.edge pins empty readReqWb wbAdr).weO = false ∧
          (s.edge pins empty readReqWb wbAdr).ackCount = s.ackCount := by
        simp [SdramSide.edge, running, SdramSide.machine, state, SdramSide.readBranch,
          SdramSide.sampled, unacked, acc, we]
      exact ⟨.reading same.1 same.2.1 same.2.2.1, same.1.trans state.symm, same.2.1, same.2.2.2⟩
  | writing state acc we =>
      have same : (s.edge pins empty readReqWb wbAdr).sdramState = .write ∧
          (s.edge pins empty readReqWb wbAdr).accO = true ∧
          (s.edge pins empty readReqWb wbAdr).weO = true ∧
          (s.edge pins empty readReqWb wbAdr).ackCount = s.ackCount := by
        simp [SdramSide.edge, running, SdramSide.machine, state, SdramSide.sampled, unacked, acc, we]
      exact ⟨.writing same.1 same.2.1 same.2.2.1, same.1.trans state.symm, same.2.1, same.2.2.2⟩
  | waiting _ acc => rw [acc] at access; cases access

/-- The acknowledge of a write ends it. -/
theorem edge_of_written (state : s.sdramState = .write) (running : pins.sdramRst = false)
    (acked : pins.ackI = true) :
    Mode (s.edge pins empty readReqWb wbAdr) ∧
      (s.edge pins empty readReqWb wbAdr).accO = false := by
  have ends : (s.edge pins empty readReqWb wbAdr).sdramState = .idle ∧
      (s.edge pins empty readReqWb wbAdr).accO = false := by
    simp [SdramSide.edge, running, SdramSide.machine, state, SdramSide.sampled, acked]
  exact ⟨.idle ends.1 ends.2, ends.2⟩

/-- A word is counted, and the last one ends the read. -/
theorem edge_of_word (state : s.sdramState = .read) (acc : s.accO = true) (we : s.weO = false)
    (running : pins.sdramRst = false) (acked : pins.ackI = true) :
    Mode (s.edge pins empty readReqWb wbAdr) ∧
      if s.ackCount = BitVec.ofNat 32 (2 ^ bw - 1) then
        (s.edge pins empty readReqWb wbAdr).accO = false
      else (s.edge pins empty readReqWb wbAdr).sdramState = .read ∧
        (s.edge pins empty readReqWb wbAdr).ackCount = s.ackCount + 1 := by
  by_cases last : s.ackCount = BitVec.ofNat 32 (2 ^ bw - 1)
  · have ends : (s.edge pins empty readReqWb wbAdr).sdramState = .waitLatency ∧
        (s.edge pins empty readReqWb wbAdr).accO = false := by
      simp [SdramSide.edge, running, SdramSide.machine, state, SdramSide.readBranch,
        SdramSide.sampled, acked, last]
    rw [if_pos last]
    exact ⟨.waiting ends.1 ends.2, ends.2⟩
  · have goes : (s.edge pins empty readReqWb wbAdr).sdramState = .read ∧
        (s.edge pins empty readReqWb wbAdr).accO = true ∧
        (s.edge pins empty readReqWb wbAdr).weO = false ∧
        (s.edge pins empty readReqWb wbAdr).ackCount = s.ackCount + 1 := by
      simp [SdramSide.edge, running, SdramSide.machine, state, SdramSide.readBranch,
        SdramSide.sampled, acked, last, acc, we]
    rw [if_neg last]
    exact ⟨.reading goes.1 goes.2.1 goes.2.2.1, goes.1, goes.2.2.2⟩

theorem Mode.fresh_of_silent (mode : Mode s) (silent : s.accO = false) : Fresh s := by
  intro state
  cases mode with
  | idle other => rw [other] at state; cases state
  | reading _ acc => rw [acc] at silent; cases silent
  | writing other => rw [other] at state; cases state
  | waiting other => rw [other] at state; cases state

/-- An edge without an acknowledge. -/
theorem edge_of_fresh (mode : Mode s) (fresh : Fresh s) (running : pins.sdramRst = false)
    (unacked : pins.ackI = false) :
    Mode (s.edge pins empty readReqWb wbAdr) ∧ Fresh (s.edge pins empty readReqWb wbAdr) := by
  cases access : s.accO with
  | false => exact edge_of_silent mode running access
  | true =>
      obtain ⟨mode', state, -, count⟩ : Mode (s.edge pins empty readReqWb wbAdr) ∧ _ ∧ _ ∧ _ :=
        edge_of_unacked mode running unacked access
      refine ⟨mode', fun reads => ?_⟩
      rw [count]
      exact fresh (state.symm.trans reads)

end

/-! ## The three machines -/

variable {n : Nat} {bw : Fin n → Nat}

/-- How far the wrapper and the selected port have come with a command. -/
inductive Stage (c : Fin n) (s : SdramSide (bw c)) (w : Wrapper) (ledger : Ledger n) : Prop where
  /-- The controller has not been ready since the reset. -/
  | waiting (state : w.state = .waitReady) (noWrite : w.localWriteReq = false)
      (noRead : w.localReadReq = false) (unacked : w.ackW = false ∨ s.accO = false)
      (owner : ledger.owner = none) (toCome : ledger.toCome = []) (fresh : Fresh s)
  /-- No command is with the controller; a write that it did not take is tried again. -/
  | idle (state : w.state = .idle) (noWrite : w.localWriteReq = false)
      (noRead : w.localReadReq = false) (unacked : w.ackW = false)
      (owner : ∀ p, ledger.owner = some p → p = c ∧ s.sdramState = .write)
      (toCome : ledger.toCome = []) (fresh : Fresh s)
  /-- A write is presented, or waits for the controller to be ready again. -/
  | writing (state : w.state = .write) (noRead : w.localReadReq = false)
      (acks : w.ackW = w.localWriteReq) (owner : ledger.owner = some c)
      (toCome : ledger.toCome = []) (port : s.sdramState = .write)
  /-- A read is presented. -/
  | requesting (state : w.state = .read) (noWrite : w.localWriteReq = false)
      (request : w.localReadReq = true) (count : w.count = 0) (owner : ledger.owner = some c)
      (toCome : ledger.toCome = []) (port : s.sdramState = .read) (counted : s.ackCount = 0)
  /-- Words are still to come. -/
  | reading (state : w.state = .read) (noWrite : w.localWriteReq = false)
      (noRead : w.localReadReq = false) (owner : ledger.owner = some c)
      (port : s.sdramState = .read) (counted : s.ackCount = w.count)
      (below : w.count.toNat < 2 ^ bw c)
      (toCome : ledger.toCome = List.replicate (2 ^ bw c - w.count.toNat) c)
  /-- The last word has come. -/
  | finished (state : w.state = .read) (noWrite : w.localWriteReq = false)
      (noRead : w.localReadReq = false) (count : w.count = BitVec.ofNat 32 (2 ^ bw c))
      (owner : ledger.owner = none) (toCome : ledger.toCome = []) (silent : s.accO = false)

/-- The three machines are in step, with port `c` selected. -/
structure InStep (x : System bw) (ledger : Ledger n) (c : Fin n) : Prop where
  selects : x.arbiter.selection.Selects c
  modes : ∀ k, Mode (x.arbiter.ports k).sdram
  fresh : ∀ k, k ≠ c → Fresh (x.arbiter.ports k).sdram
  stage : Stage c (x.arbiter.ports c).sdram x.wrapper ledger

variable {x : System bw} {ledger : Ledger n} {e : Instant n} {c : Fin n} {pins : LocalPins}

theorem selected_of_selects (selects : x.arbiter.selection.Selects c) :
    selected x.arbiter = some c := by
  have enc : x.arbiter.portEnc.toNat = c.val := selects.portEnc
  simp [selected, enc]

theorem command_of_selects (selects : x.arbiter.selection.Selects c) :
    command x.arbiter = ⟨(x.arbiter.ports c).sdram.accO, (x.arbiter.ports c).sdram.weO,
      portAdrO (x.arbiter.ports c), BitVec.ofNat 4 (bw c)⟩ := by
  rw [command, selected_of_selects selects]

theorem getLsbD_accO (s : Arbiter bw) (k : Fin n) : s.accO.getLsbD k = (s.ports k).sdram.accO := by
  rw [Arbiter.accO, BitVec.getLsbD_setWidth, BitVec.getLsbD_ofBoolListLE]
  have place : (List.finRange n)[k.val]? = some k := by simp
  simp only [List.getD_eq_getElem?_getD, List.getElem?_map, place]
  simp

/-- The inputs of port `k` at an edge of `sdram_clk`. -/
def System.portPins (x : System bw) (pins : LocalPins) (k : Fin n) : SdramPins where
  sdramRst := !pins.localResetN
  adrI := x.wrapper.adr
  datI := pins.localRdata
  ackI := x.portAckI pins k

theorem sdram_of_edge (edge : e.sdram = some pins) (k : Fin n) :
    ((x.step e).arbiter.ports k).sdram = (x.arbiter.ports k).sdram.edge (x.portPins pins k)
      (x.arbiter.ports k).empty (x.arbiter.ports k).wb.readReqWb (x.arbiter.ports k).wb.wbAdr := by
  simp [System.step, Arbiter.step, Arbiter.portInstant, System.arbiterInstant, edge, Port.step,
    System.portPins, System.portAckI]

/-- An instant without an edge of `sdram_clk`. -/
theorem step_unclocked (x : System bw) (unclocked : e.sdram = none) :
    (∀ k, ((x.step e).arbiter.ports k).sdram = (x.arbiter.ports k).sdram) ∧
      (x.step e).arbiter.selection = x.arbiter.selection ∧ (x.step e).wrapper = x.wrapper := by
  refine ⟨fun k => ?_, ?_, ?_⟩
  · simp [System.step, Arbiter.step, Arbiter.portInstant, System.arbiterInstant, unclocked,
      Port.step]
  · simp [System.step, Arbiter.selection_step, System.arbiterInstant, unclocked]
  · simp [System.step, unclocked]

theorem wrapper_of_edge (edge : e.sdram = some pins) (running : pins.localResetN = true) :
    (x.step e).wrapper = x.wrapper.machine (command x.arbiter) pins := by
  simp [System.step, edge, Wrapper.edge, running]

/-- The selection changes only in `IDLE` and while the selected port makes no access. -/
theorem selects_step (selects : x.arbiter.selection.Selects c) (edge : e.sdram = some pins)
    (running : pins.localResetN = true) :
    (∃ d, (x.step e).arbiter.selection.Selects d) ∧
      (x.wrapper.state ≠ .idle ∨ (x.arbiter.ports c).sdram.accO = true →
        (x.step e).arbiter.selection.Selects c) := by
  have registers : (x.step e).arbiter.selection =
      x.arbiter.selection.step ⟨false, x.wrapper.idleO, x.arbiter.accO⟩ := by
    simp [System.step, Arbiter.selection_step, System.arbiterInstant, edge, running]
  rw [registers]
  constructor
  · have running' : (⟨false, x.wrapper.idleO, x.arbiter.accO⟩ : WbPortArbiter.Requests n).sdramRst =
        false := rfl
    obtain ⟨d, selects', -⟩ := selects.step running'
    exact ⟨d, selects'⟩
  · intro busy
    have unsafe' : x.arbiter.selection.safeToSwitch
        ⟨false, x.wrapper.idleO, x.arbiter.accO⟩ = false := by
      simp only [Selection.safeToSwitch, selects.portEnc, getLsbD_accO, Wrapper.idleO]
      rcases busy with busy | access
      · simp [busy]
      · simp [access]
    simpa [Selection.step, unsafe'] using selects

theorem portAckI_of_selects (selects : x.arbiter.selection.Selects c) (k : Fin n) :
    x.portAckI pins k = (x.ackO pins && decide (c = k)) := by
  have sel : x.arbiter.portSel = Rotation.oneHot c := selects.portSel
  rw [System.portAckI, sel, Rotation.getLsbD_oneHot]

theorem ackO_of_selects (selects : x.arbiter.selection.Selects c) :
    x.ackO pins =
      if (x.arbiter.ports c).sdram.accO then
        if (x.arbiter.ports c).sdram.weO then pins.localReady && x.wrapper.ackW
        else pins.localRdataValid
      else false := by
  rw [System.ackO, Wrapper.ackO, command_of_selects selects]

/-- Nothing is returned while nothing is to come. -/
theorem Timely.silent (timely : Timely x ledger e) (edge : e.sdram = some pins)
    (none : ledger.toCome = []) : pins.localRdataValid = false := by
  rw [← Bool.not_eq_true]
  exact fun valid => timely.returns pins edge valid none

/-! ## An edge, stage by stage -/

namespace InStep

/-- The ports that are not selected see no acknowledge. -/
theorem unselected (inStep : InStep x ledger c) (edge : e.sdram = some pins)
    (running : pins.localResetN = true) {k : Fin n} (other : k ≠ c) :
    Mode ((x.step e).arbiter.ports k).sdram ∧ Fresh ((x.step e).arbiter.ports k).sdram := by
  rw [sdram_of_edge edge k]
  refine edge_of_fresh (inStep.modes k) (inStep.fresh k other) ?_ ?_
  · simp [System.portPins, running]
  · simp [System.portPins, portAckI_of_selects inStep.selects, Ne.symm other]

/-- The selected port stays selected. -/
theorem stay (inStep : InStep x ledger c) (edge : e.sdram = some pins)
    (running : pins.localResetN = true)
    (busy : x.wrapper.state ≠ .idle ∨ (x.arbiter.ports c).sdram.accO = true)
    (mode : Mode ((x.step e).arbiter.ports c).sdram) {ledger' : Ledger n}
    (stage : Stage c ((x.step e).arbiter.ports c).sdram (x.step e).wrapper ledger') :
    ∃ d, InStep (x.step e) ledger' d := by
  refine ⟨c, (selects_step inStep.selects edge running).2 busy, fun k => ?_, ?_, stage⟩
  · by_cases here : k = c
    · subst here
      exact mode
    · exact (inStep.unselected edge running here).1
  · exact fun k other => (inStep.unselected edge running other).2

/-- The selected port sees no acknowledge and has counted nothing. -/
theorem unacked_fresh (inStep : InStep x ledger c) (edge : e.sdram = some pins)
    (running : pins.localResetN = true) (quiet : x.ackO pins = false)
    (fresh : Fresh (x.arbiter.ports c).sdram) :
    Mode ((x.step e).arbiter.ports c).sdram ∧ Fresh ((x.step e).arbiter.ports c).sdram := by
  rw [sdram_of_edge edge c]
  refine edge_of_fresh (inStep.modes c) fresh ?_ ?_
  · simp [System.portPins, running]
  · simp [System.portPins, portAckI_of_selects inStep.selects, quiet]

/-- The selected port sees no acknowledge and goes on with its access. -/
theorem unacked_access (inStep : InStep x ledger c) (edge : e.sdram = some pins)
    (running : pins.localResetN = true) (quiet : x.ackO pins = false)
    (access : (x.arbiter.ports c).sdram.accO = true) :
    Mode ((x.step e).arbiter.ports c).sdram ∧
      ((x.step e).arbiter.ports c).sdram.sdramState = (x.arbiter.ports c).sdram.sdramState ∧
      ((x.step e).arbiter.ports c).sdram.ackCount = (x.arbiter.ports c).sdram.ackCount := by
  rw [sdram_of_edge edge c]
  have reset : (x.portPins pins c).sdramRst = false := by simp [System.portPins, running]
  have noAck : (x.portPins pins c).ackI = false := by
    simp [System.portPins, portAckI_of_selects inStep.selects, quiet]
  obtain ⟨mode, state, -, count⟩ := edge_of_unacked (inStep.modes c) reset noAck access
  exact ⟨mode, state, count⟩

theorem step_waiting (inStep : InStep x ledger c) (timely : Timely x ledger e)
    (edge : e.sdram = some pins) (state : x.wrapper.state = .waitReady)
    (noRead : x.wrapper.localReadReq = false)
    (unacked : x.wrapper.ackW = false ∨ (x.arbiter.ports c).sdram.accO = false)
    (owner : ledger.owner = none) (toCome : ledger.toCome = [])
    (fresh : Fresh (x.arbiter.ports c).sdram) : ∃ d, InStep (x.step e) (ledger.record x e) d := by
  have running := timely.running pins edge
  have valid := timely.silent edge toCome
  have quiet : x.ackO pins = false := by
    rw [ackO_of_selects inStep.selects, valid]
    rcases unacked with unacked | silent
    · simp [unacked]
    · simp [silent]
  obtain ⟨mode', fresh'⟩ := inStep.unacked_fresh edge running quiet fresh
  have record : ledger.record x e = ⟨none, []⟩ := by
    simp [Ledger.record, edge, valid, toCome, noRead, Wrapper.takes, state, quiet, owner]
  refine inStep.stay edge running (Or.inl (by simp [state])) mode' ?_
  rw [record, wrapper_of_edge edge running]
  by_cases ready : pins.localReady = true
  · refine .idle ?_ ?_ ?_ ?_ (by simp) rfl fresh' <;> simp [Wrapper.machine, state, ready]
  · refine .waiting ?_ ?_ ?_ (Or.inl ?_) rfl rfl fresh' <;> simp [Wrapper.machine, state, ready]

theorem step_idle (inStep : InStep x ledger c) (timely : Timely x ledger e)
    (edge : e.sdram = some pins) (state : x.wrapper.state = .idle)
    (noRead : x.wrapper.localReadReq = false) (unacked : x.wrapper.ackW = false)
    (owner : ∀ p, ledger.owner = some p → p = c ∧ (x.arbiter.ports c).sdram.sdramState = .write)
    (toCome : ledger.toCome = []) (fresh : Fresh (x.arbiter.ports c).sdram) :
    ∃ d, InStep (x.step e) (ledger.record x e) d := by
  have running := timely.running pins edge
  have valid := timely.silent edge toCome
  have quiet : x.ackO pins = false := by
    rw [ackO_of_selects inStep.selects, valid, unacked]
    simp
  have command := command_of_selects inStep.selects
  obtain ⟨mode', fresh'⟩ := inStep.unacked_fresh edge running quiet fresh
  cases access : (x.arbiter.ports c).sdram.accO with
  | false =>
      -- The arbiter may hand over; every port's counter is at zero.
      have none : ledger.owner = none := by
        cases known : ledger.owner with
        | none => rfl
        | some p =>
            have write := (owner p known).2
            cases inStep.modes c with
            | idle other => rw [other] at write; cases write
            | reading _ acc => rw [access] at acc; cases acc
            | writing _ acc => rw [access] at acc; cases acc
            | waiting other => rw [other] at write; cases write
      have record : ledger.record x e = ⟨.none, []⟩ := by
        simp [Ledger.record, edge, valid, toCome, noRead, Wrapper.takes, command, access, quiet, none]
      have all : ∀ k, Mode ((x.step e).arbiter.ports k).sdram ∧
          Fresh ((x.step e).arbiter.ports k).sdram := by
        intro k
        by_cases here : k = c
        · subst here
          exact ⟨mode', fresh'⟩
        · exact inStep.unselected edge running here
      obtain ⟨d, selects⟩ := (selects_step inStep.selects edge running).1
      refine ⟨d, selects, fun k => (all k).1, fun k _ => (all k).2, ?_⟩
      rw [record, wrapper_of_edge edge running]
      refine .idle ?_ ?_ ?_ ?_ (by simp) rfl (all d).2 <;>
        simp [Wrapper.machine, state, command, access]
  | true =>
      obtain ⟨-, same, -⟩ := inStep.unacked_access edge running quiet access
      refine inStep.stay edge running (Or.inr access) mode' ?_
      rw [wrapper_of_edge edge running]
      by_cases ready : pins.localReady = true
      · have record : ledger.record x e = ⟨some c, []⟩ := by
          simp [Ledger.record, edge, valid, toCome, noRead, Wrapper.takes, state, command, access,
            ready, selected_of_selects inStep.selects]
        rw [record]
        cases inStep.modes c with
        | idle _ acc => rw [access] at acc; cases acc
        | reading reads _ we =>
            refine .requesting ?_ ?_ ?_ ?_ rfl rfl (same.trans reads) (fresh' (same.trans reads)) <;>
              simp [Wrapper.machine, state, command, access, ready, we]
        | writing writes _ we =>
            refine .writing ?_ ?_ ?_ rfl rfl (same.trans writes) <;>
              simp [Wrapper.machine, state, command, access, ready, we]
        | waiting _ acc => rw [access] at acc; cases acc
      · have record : ledger.record x e = ⟨ledger.owner, []⟩ := by
          simp [Ledger.record, edge, valid, toCome, noRead, Wrapper.takes, ready, quiet]
        rw [record]
        refine .idle ?_ ?_ ?_ ?_ ?_ rfl fresh'
        case refine_5 => exact fun p known => ⟨(owner p known).1, same.trans (owner p known).2⟩
        all_goals simp [Wrapper.machine, state, ready]

theorem step_writing (inStep : InStep x ledger c) (timely : Timely x ledger e)
    (edge : e.sdram = some pins) (state : x.wrapper.state = .write)
    (noRead : x.wrapper.localReadReq = false) (owner : ledger.owner = some c)
    (toCome : ledger.toCome = []) (port : (x.arbiter.ports c).sdram.sdramState = .write) :
    ∃ d, InStep (x.step e) (ledger.record x e) d := by
  have running := timely.running pins edge
  have valid := timely.silent edge toCome
  have command := command_of_selects inStep.selects
  obtain ⟨access, we⟩ : (x.arbiter.ports c).sdram.accO = true ∧
      (x.arbiter.ports c).sdram.weO = true := by
    cases inStep.modes c with
    | idle other => rw [other] at port; cases port
    | reading other => rw [other] at port; cases port
    | writing _ acc we => exact ⟨acc, we⟩
    | waiting other => rw [other] at port; cases port
  have ackO : x.ackO pins = (pins.localReady && x.wrapper.ackW) := by
    simp [ackO_of_selects inStep.selects, access, we]
  by_cases acked : x.ackO pins = true
  · have ready : pins.localReady = true := (Bool.and_eq_true_iff.mp (ackO.symm.trans acked)).1
    obtain ⟨mode', silent⟩ : Mode ((x.step e).arbiter.ports c).sdram ∧
        ((x.step e).arbiter.ports c).sdram.accO = false := by
      rw [sdram_of_edge edge c]
      refine edge_of_written port ?_ ?_
      · simp [System.portPins, running]
      · simp [System.portPins, portAckI_of_selects inStep.selects, acked]
    have record : ledger.record x e = ⟨none, []⟩ := by
      simp [Ledger.record, edge, valid, toCome, noRead, Wrapper.takes, state, command, we, acked]
    refine inStep.stay edge running (Or.inr access) mode' ?_
    rw [record, wrapper_of_edge edge running]
    refine .idle ?_ ?_ ?_ ?_ (by simp) rfl (mode'.fresh_of_silent silent) <;>
      simp [Wrapper.machine, state, ready]
  · have quiet : x.ackO pins = false := Bool.not_eq_true _ ▸ acked
    obtain ⟨mode', same, -⟩ := inStep.unacked_access edge running quiet access
    have record : ledger.record x e = ⟨some c, []⟩ := by
      simp [Ledger.record, edge, valid, toCome, noRead, Wrapper.takes, state, quiet, owner]
    refine inStep.stay edge running (Or.inr access) mode' ?_
    rw [record, wrapper_of_edge edge running]
    by_cases ready : pins.localReady = true
    · refine .idle ?_ ?_ ?_ ?_ ?_ rfl ?_
      case refine_5 =>
          intro p known
          exact ⟨(Option.some.inj known).symm, same.trans port⟩
      case refine_6 =>
          intro reads
          rw [same, port] at reads
          cases reads
      all_goals simp [Wrapper.machine, state, ready]
    · refine .writing ?_ ?_ ?_ rfl rfl (same.trans port) <;> simp [Wrapper.machine, state, ready]

/-- The port's own side of a read. -/
theorem access_of_reading (inStep : InStep x ledger c)
    (port : (x.arbiter.ports c).sdram.sdramState = .read) :
    (x.arbiter.ports c).sdram.accO = true ∧ (x.arbiter.ports c).sdram.weO = false := by
  cases inStep.modes c with
  | idle other => rw [other] at port; cases port
  | reading _ acc we => exact ⟨acc, we⟩
  | writing other => rw [other] at port; cases port
  | waiting other => rw [other] at port; cases port

end InStep

/-- `1 << buf_width_i`. -/
theorem shift_bufWidth {b : Nat} (narrow : b ≤ 7) :
    (1 : BitVec 32) <<< (BitVec.ofNat 4 b).toNat = BitVec.ofNat 32 (2 ^ b) := by
  apply BitVec.eq_of_toNat_eq
  have small : b % 16 = b := Nat.mod_eq_of_lt (by omega)
  simp [BitVec.toNat_shiftLeft, Nat.shiftLeft_eq, small]

theorem toNat_ofNat_lineLength {b : Nat} (narrow : b ≤ 7) :
    (BitVec.ofNat 32 (2 ^ b)).toNat = 2 ^ b ∧ (BitVec.ofNat 32 (2 ^ b - 1)).toNat = 2 ^ b - 1 := by
  have small : 2 ^ b ≤ 2 ^ 7 := Nat.pow_le_pow_right (by omega) narrow
  constructor <;> rw [BitVec.toNat_ofNat] <;> exact Nat.mod_eq_of_lt (by omega)

namespace InStep

/-- While words are to come, the wrapper stays in `READ`. -/
theorem machine_of_below (inStep : InStep x ledger c) (pins : LocalPins) (narrow : bw c ≤ 7)
    (state : x.wrapper.state = .read) (below : x.wrapper.count.toNat < 2 ^ bw c) :
    let w' := x.wrapper.machine (command x.arbiter) pins
    w'.state = .read ∧ w'.localWriteReq = false ∧ w'.localReadReq = false ∧
      w'.count = if pins.localRdataValid then x.wrapper.count + 1 else x.wrapper.count := by
  have width : (command x.arbiter).bufWidthI.toNat = bw c := by
    simp only [command_of_selects inStep.selects, BitVec.toNat_ofNat]
    exact Nat.mod_eq_of_lt (by omega)
  obtain ⟨state', noWrite', noRead', -, count', -⟩ :=
    Wrapper.machine_of_below pins state (by rw [width]; exact below)
  exact ⟨state', noWrite', noRead', count'⟩

theorem step_requesting (inStep : InStep x ledger c) (narrow : bw c ≤ 7)
    (timely : Timely x ledger e) (edge : e.sdram = some pins) (state : x.wrapper.state = .read)
    (request : x.wrapper.localReadReq = true) (count : x.wrapper.count = 0)
    (owner : ledger.owner = some c) (toCome : ledger.toCome = [])
    (port : (x.arbiter.ports c).sdram.sdramState = .read)
    (counted : (x.arbiter.ports c).sdram.ackCount = 0) :
    ∃ d, InStep (x.step e) (ledger.record x e) d := by
  have running := timely.running pins edge
  have valid := timely.silent edge toCome
  have ready := timely.ready pins edge request
  obtain ⟨access, we⟩ := inStep.access_of_reading port
  have quiet : x.ackO pins = false := by
    simp [ackO_of_selects inStep.selects, access, we, valid]
  obtain ⟨mode', same, ackCount⟩ := inStep.unacked_access edge running quiet access
  have zero : x.wrapper.count.toNat = 0 := by rw [count]; rfl
  obtain ⟨state', noWrite', noRead', count'⟩ := inStep.machine_of_below pins narrow state
    (by rw [zero]; exact Nat.two_pow_pos _)
  rw [valid] at count'
  have record : ledger.record x e = ⟨some c, List.replicate (2 ^ bw c) c⟩ := by
    simp [Ledger.record, edge, valid, toCome, request, ready, Wrapper.takes, state, quiet, owner,
      words]
  refine inStep.stay edge running (Or.inr access) mode' ?_
  rw [record, wrapper_of_edge edge running]
  refine .reading state' noWrite' noRead' rfl (same.trans port) ?_ ?_ ?_
  · rw [ackCount, counted, count']
    exact count.symm
  · rw [count']
    simp only [Bool.false_eq_true, if_false, zero]
    exact Nat.two_pow_pos _
  · rw [count']
    simp only [Bool.false_eq_true, if_false, zero, Nat.sub_zero]

theorem step_reading (inStep : InStep x ledger c) (narrow : bw c ≤ 7)
    (timely : Timely x ledger e) (edge : e.sdram = some pins) (state : x.wrapper.state = .read)
    (noRead : x.wrapper.localReadReq = false) (owner : ledger.owner = some c)
    (port : (x.arbiter.ports c).sdram.sdramState = .read)
    (counted : (x.arbiter.ports c).sdram.ackCount = x.wrapper.count)
    (below : x.wrapper.count.toNat < 2 ^ bw c)
    (toCome : ledger.toCome = List.replicate (2 ^ bw c - x.wrapper.count.toNat) c) :
    ∃ d, InStep (x.step e) (ledger.record x e) d := by
  have running := timely.running pins edge
  obtain ⟨access, we⟩ := inStep.access_of_reading port
  have command := command_of_selects inStep.selects
  have ackO : x.ackO pins = pins.localRdataValid := by
    simp [ackO_of_selects inStep.selects, access, we]
  obtain ⟨state', noWrite', noRead', count'⟩ :=
    inStep.machine_of_below pins narrow state below
  have small : 2 ^ bw c ≤ 2 ^ 7 := Nat.pow_le_pow_right (by omega) narrow
  cases valid : pins.localRdataValid with
  | false =>
      rw [valid] at ackO count'
      obtain ⟨mode', same, ackCount⟩ := inStep.unacked_access edge running ackO access
      have record : ledger.record x e =
          ⟨some c, List.replicate (2 ^ bw c - x.wrapper.count.toNat) c⟩ := by
        simp [Ledger.record, edge, valid, toCome, noRead, Wrapper.takes, state, ackO, owner]
      refine inStep.stay edge running (Or.inr access) mode' ?_
      rw [record, wrapper_of_edge edge running]
      simp only [Bool.false_eq_true, if_false] at count'
      exact .reading state' noWrite' noRead' rfl (same.trans port)
        (by rw [ackCount, counted, count']) (by rw [count']; exact below) (by rw [count'])
  | true =>
      rw [valid] at ackO count'
      simp only [if_true] at count'
      have next : (x.wrapper.count + 1).toNat = x.wrapper.count.toNat + 1 := by
        rw [BitVec.toNat_add]
        exact Nat.mod_eq_of_lt (by simp; omega)
      obtain ⟨mode', word⟩ : Mode ((x.step e).arbiter.ports c).sdram ∧
          if (x.arbiter.ports c).sdram.ackCount = BitVec.ofNat 32 (2 ^ bw c - 1) then
            ((x.step e).arbiter.ports c).sdram.accO = false
          else ((x.step e).arbiter.ports c).sdram.sdramState = .read ∧
            ((x.step e).arbiter.ports c).sdram.ackCount =
              (x.arbiter.ports c).sdram.ackCount + 1 := by
        rw [sdram_of_edge edge c]
        refine edge_of_word port access we ?_ ?_
        · simp [System.portPins, running]
        · simp [System.portPins, portAckI_of_selects inStep.selects, ackO]
      have left : ledger.toCome.tail =
          List.replicate (2 ^ bw c - (x.wrapper.count.toNat + 1)) c := by
        rw [toCome, List.tail_replicate]
        congr 1
      refine inStep.stay edge running (Or.inr access) mode' ?_
      rw [wrapper_of_edge edge running]
      by_cases last : x.wrapper.count.toNat + 1 = 2 ^ bw c
      · have final : (x.arbiter.ports c).sdram.ackCount = BitVec.ofNat 32 (2 ^ bw c - 1) := by
          apply BitVec.eq_of_toNat_eq
          rw [counted, (toNat_ofNat_lineLength narrow).2]
          omega
        rw [if_pos final] at word
        have record : ledger.record x e = ⟨none, []⟩ := by
          simp [Ledger.record, edge, valid, left, last, noRead, Wrapper.takes, state, ackO]
        rw [record]
        refine .finished state' noWrite' noRead' ?_ rfl rfl word
        apply BitVec.eq_of_toNat_eq
        rw [count', next, (toNat_ofNat_lineLength narrow).1, last]
      · have going : ¬(x.arbiter.ports c).sdram.ackCount = BitVec.ofNat 32 (2 ^ bw c - 1) := by
          intro same
          have value := congrArg BitVec.toNat same
          rw [counted, (toNat_ofNat_lineLength narrow).2] at value
          omega
        rw [if_neg going] at word
        have more : 2 ^ bw c - (x.wrapper.count.toNat + 1) ≠ 0 := by omega
        have record : ledger.record x e =
            ⟨some c, List.replicate (2 ^ bw c - (x.wrapper.count.toNat + 1)) c⟩ := by
          simp [Ledger.record, edge, valid, left, more, noRead, Wrapper.takes, state, ackO, command,
            we, owner]
        rw [record]
        refine .reading state' noWrite' noRead' rfl word.1 ?_ ?_ ?_
        · rw [word.2, counted, count']
        · rw [count', next]
          omega
        · rw [count', next]

theorem step_finished (inStep : InStep x ledger c) (narrow : bw c ≤ 7)
    (timely : Timely x ledger e) (edge : e.sdram = some pins) (state : x.wrapper.state = .read)
    (noRead : x.wrapper.localReadReq = false)
    (count : x.wrapper.count = BitVec.ofNat 32 (2 ^ bw c)) (owner : ledger.owner = none)
    (toCome : ledger.toCome = []) (silent : (x.arbiter.ports c).sdram.accO = false) :
    ∃ d, InStep (x.step e) (ledger.record x e) d := by
  have running := timely.running pins edge
  have valid := timely.silent edge toCome
  have quiet : x.ackO pins = false := by simp [ackO_of_selects inStep.selects, silent]
  obtain ⟨mode', fresh'⟩ := inStep.unacked_fresh edge running quiet
    ((inStep.modes c).fresh_of_silent silent)
  have record : ledger.record x e = ⟨none, []⟩ := by
    simp [Ledger.record, edge, valid, toCome, noRead, Wrapper.takes, state, quiet, owner]
  refine inStep.stay edge running (Or.inl (by simp [state])) mode' ?_
  rw [record, wrapper_of_edge edge running]
  simp only [Wrapper.machine, state, command_of_selects inStep.selects, shift_bufWidth narrow,
    count, beq_self_eq_true, if_true, valid]
  exact .idle rfl rfl rfl rfl (by simp) rfl fresh'

/-- **An instant keeps the three machines in step.** -/
theorem step (inStep : InStep x ledger c) (narrow : ∀ k, bw k ≤ 7) (timely : Timely x ledger e) :
    ∃ d, InStep (x.step e) (ledger.record x e) d := by
  cases edge : e.sdram with
  | none =>
      obtain ⟨sdram, selection, wrapper⟩ := step_unclocked x edge
      have record : ledger.record x e = ledger := by simp [Ledger.record, edge]
      refine ⟨c, by rw [selection]; exact inStep.selects, fun k => ?_, fun k other => ?_, ?_⟩
      · rw [sdram k]
        exact inStep.modes k
      · rw [sdram k]
        exact inStep.fresh k other
      · rw [sdram c, wrapper, record]
        exact inStep.stage
  | some pins =>
      cases inStep.stage with
      | waiting state _ noRead unacked owner toCome fresh =>
          exact inStep.step_waiting timely edge state noRead unacked owner toCome fresh
      | idle state _ noRead unacked owner toCome fresh =>
          exact inStep.step_idle timely edge state noRead unacked owner toCome fresh
      | writing state noRead _ owner toCome port =>
          exact inStep.step_writing timely edge state noRead owner toCome port
      | requesting state _ request count owner toCome port counted =>
          exact inStep.step_requesting (narrow c) timely edge state request count owner toCome port
            counted
      | reading state _ noRead owner port counted below toCome =>
          exact inStep.step_reading (narrow c) timely edge state noRead owner port counted below
            toCome
      | finished state _ noRead count owner toCome silent =>
          exact inStep.step_finished (narrow c) timely edge state noRead count owner toCome silent

/-- The owner of a command is the selected port. -/
theorem owner_eq (inStep : InStep x ledger c) {p : Fin n} (owner : ledger.owner = some p) :
    p = c := by
  cases inStep.stage with
  | waiting _ _ _ _ none => rw [none] at owner; cases owner
  | idle _ _ _ _ known => exact (known p owner).1
  | writing _ _ _ known => exact Option.some.inj (owner.symm.trans known)
  | requesting _ _ _ _ known => exact Option.some.inj (owner.symm.trans known)
  | reading _ _ _ known => exact Option.some.inj (owner.symm.trans known)
  | finished _ _ _ _ none => rw [none] at owner; cases owner

/-- An acknowledge answers the command of the selected port. -/
theorem ack (inStep : InStep x ledger c) (timely : Timely x ledger e) (edge : e.sdram = some pins)
    (acked : x.ackO pins = true) : ledger.owner = some c ∧
      if (x.arbiter.ports c).sdram.weO = true then x.wrapper.localWriteReq = true
      else pins.localRdataValid = true ∧ ledger.toCome.head? = some c := by
  rw [ackO_of_selects inStep.selects] at acked
  have valid : ledger.toCome = [] → pins.localRdataValid = false := timely.silent edge
  cases inStep.stage with
  | waiting _ _ _ unacked _ toCome =>
      rw [valid toCome] at acked
      rcases unacked with unacked | silent
      · simp [unacked] at acked
      · simp [silent] at acked
  | idle _ _ _ unacked _ toCome =>
      rw [valid toCome, unacked] at acked
      simp at acked
  | writing _ _ acks owner toCome =>
      rw [valid toCome, acks] at acked
      refine ⟨owner, ?_⟩
      rcases Bool.eq_false_or_eq_true (x.arbiter.ports c).sdram.weO with we | we
      · rw [if_pos we]
        simp only [we, if_true] at acked
        split at acked
        case isTrue => exact (Bool.and_eq_true_iff.mp acked).2
        case isFalse => cases acked
      · simp [we] at acked
  | requesting _ _ _ _ _ toCome port =>
      rw [valid toCome] at acked
      simp [(inStep.access_of_reading port).2] at acked
  | reading _ _ _ owner port _ below toCome =>
      obtain ⟨access, we⟩ := inStep.access_of_reading port
      simp only [access, we, if_true, Bool.false_eq_true, if_false] at acked
      refine ⟨owner, ?_⟩
      rw [if_neg (by simp [we]), toCome, List.head?_replicate, if_neg (by omega)]
      exact ⟨acked, rfl⟩
  | finished _ _ _ _ _ _ silent => simp [silent] at acked

theorem attributed (inStep : InStep x ledger c) (timely : Timely x ledger e) :
    Attributed x ledger e where
  presented := by
    rintro (write | read)
    · cases inStep.stage with
      | waiting _ none => rw [none] at write; cases write
      | idle _ none => rw [none] at write; cases write
      | writing _ _ _ owner => exact ⟨c, owner⟩
      | requesting _ none => rw [none] at write; cases write
      | reading _ none => rw [none] at write; cases write
      | finished _ none => rw [none] at write; cases write
    · cases inStep.stage with
      | waiting _ _ none => rw [none] at read; cases read
      | idle _ _ none => rw [none] at read; cases read
      | writing _ none => rw [none] at read; cases read
      | requesting _ _ _ _ owner => exact ⟨c, owner⟩
      | reading _ _ none => rw [none] at read; cases read
      | finished _ _ none => rw [none] at read; cases read
  selected := by
    intro p owner
    rw [inStep.owner_eq owner]
    exact inStep.selects
  acks := by
    intro pins edge k acked
    rw [portAckI_of_selects inStep.selects] at acked
    obtain ⟨answered, here⟩ := Bool.and_eq_true_iff.mp acked
    obtain rfl : c = k := of_decide_eq_true here
    exact inStep.ack timely edge answered
  idle := by
    intro idle _
    cases inStep.stage with
    | waiting other => rw [other] at idle; cases idle
    | idle _ _ noRead _ _ toCome => exact ⟨noRead, toCome⟩
    | writing other => rw [other] at idle; cases idle
    | requesting other => rw [other] at idle; cases idle
    | reading other => rw [other] at idle; cases idle
    | finished other => rw [other] at idle; cases idle

end InStep

/-! ## Every run -/

/-- A reset edge puts the three machines in step. -/
theorem inStep_of_reset (positive : 0 < n) (x : System bw) (edge : e.sdram = some pins)
    (reset : pins.localResetN = false) : InStep (x.step e) Ledger.empty ⟨0, positive⟩ := by
  have sdram : ∀ k, Mode ((x.step e).arbiter.ports k).sdram ∧
      ((x.step e).arbiter.ports k).sdram.accO = false := by
    intro k
    rw [sdram_of_edge edge k]
    have registers : ((x.arbiter.ports k).sdram.edge (x.portPins pins k) (x.arbiter.ports k).empty
        (x.arbiter.ports k).wb.readReqWb (x.arbiter.ports k).wb.wbAdr).sdramState = .idle ∧
        ((x.arbiter.ports k).sdram.edge (x.portPins pins k) (x.arbiter.ports k).empty
          (x.arbiter.ports k).wb.readReqWb (x.arbiter.ports k).wb.wbAdr).accO = false := by
      simp [SdramSide.edge, SdramSide.resetMachine, System.portPins, reset]
    exact ⟨.idle registers.1 registers.2, registers.2⟩
  refine ⟨?_, fun k => (sdram k).1, fun k _ => (sdram k).1.fresh_of_silent (sdram k).2, ?_⟩
  · have registers : (x.step e).arbiter.selection =
        x.arbiter.selection.step ⟨true, x.wrapper.idleO, x.arbiter.accO⟩ := by
      simp [System.step, Arbiter.selection_step, System.arbiterInstant, edge, reset]
    rw [registers]
    exact Selection.selects_reset rfl ⟨0, positive⟩ rfl
  · have wrapper : (x.step e).wrapper.state = .waitReady ∧
        (x.step e).wrapper.localWriteReq = false ∧ (x.step e).wrapper.localReadReq = false := by
      simp [System.step, edge, Wrapper.edge, reset]
    exact .waiting wrapper.1 wrapper.2.1 wrapper.2.2 (Or.inr (sdram _).2) rfl rfl
      ((sdram _).1.fresh_of_silent (sdram _).2)

/-- **From every reset on, whatever the ports ask for and whenever the controller is ready
or returns a word, each command stays with the port that gave it and each acknowledge
reaches the port it is for.** -/
theorem attributed_always (ports : 0 < n) (narrow : ∀ k, bw k ≤ 7) (x : System bw)
    (edge : e.sdram = some pins) (reset : pins.localResetN = false) {run : List (Instant n)}
    (timely : Trace.Always (Trace.monitored System.step Ledger.record)
      (fun y e => Timely y.1 y.2 e) (x.step e, Ledger.empty) run) :
    Trace.Always (Trace.monitored System.step Ledger.record)
      (fun y e => Attributed y.1 y.2 e) (x.step e, Ledger.empty) run := by
  refine timely.of_invariant (fun y : System bw × Ledger n => ∃ c, InStep y.1 y.2 c) ?_ ?_
    ⟨_, inStep_of_reset ports x edge reset⟩
  · rintro y e ⟨c, inStep⟩ timely
    exact inStep.step narrow timely
  · rintro y e ⟨c, inStep⟩ timely
    exact inStep.attributed timely

/-! ## A refill -/

instance twoPorts_neZero : NeZero 2 := ⟨by decide⟩

/-- Two ports with lines of two words, none of which has been used. -/
def unused : System (n := 2) (fun _ => 1) where
  arbiter :=
    { ports := fun _ =>
        { wb := ⟨0, 0, 0, false, false, false, false, true, .idle, 0, false, false, 0, 0⟩
          sdram := ⟨false, false, .idle, false, false, 0, false, 0, false, 0, 0, 0⟩
          wrfifo := ⟨⟨0, 0, 0, 0, false, fun _ => 0⟩, ⟨0, 0, 0, 0, true, 0⟩⟩
          bufram := fun _ => 0
          wbDatO := 0
          wbDatX := 0 }
      bufw := fun _ => ⟨0, 0, 0, false⟩
      portSel := 1
      portEnc := 0 }
  wrapper := ⟨false, false, false, 1, .waitReady, 0, false, 0⟩

/-- Port 1 reads a word. -/
def readPort1 : Instant 2 where
  wb := some
    { wbRst := false
      bus := fun k => ⟨0x100, 0, 0xf, false, k == 1, k == 1, .classic, .linear⟩ }
  sdram := none

/-- An edge of `local_clk_i`, with or without a word. -/
def localEdge (resetN valid : Bool) : Instant 2 where
  wb := none
  sdram := some ⟨resetN, 0, valid, true⟩

/-- The line of port 1 is fetched. -/
def fetchRun : List (Instant 2) :=
  readPort1 :: List.replicate 6 (localEdge true false) ++
    [localEdge true true, localEdge true true, localEdge true false]

theorem attributed_always_fetchRun :
    Trace.Always (Trace.monitored System.step Ledger.record) (fun y e => Timely y.1 y.2 e)
        (unused.step (localEdge false false), Ledger.empty) fetchRun ∧
      Trace.Always (Trace.monitored System.step Ledger.record) (fun y e => Attributed y.1 y.2 e)
        (unused.step (localEdge false false), Ledger.empty) fetchRun := by
  have timely : Trace.Always (Trace.monitored System.step Ledger.record)
      (fun y e => Timely y.1 y.2 e) (unused.step (localEdge false false), Ledger.empty)
      fetchRun := by
    decide +kernel
  exact ⟨timely, attributed_always (by decide) (by decide) unused rfl rfl timely⟩

end OrpsocCores.WbDdrCtrl
