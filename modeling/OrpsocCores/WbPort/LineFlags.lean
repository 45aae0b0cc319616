import OrpsocCores.WbPort.Handshake

/-!
# The clean flags of a port's line

A refill clears `buf_clean`, sets a flag for every word that arrives and raises
`read_done` with the last one.  The flags cross to the Wishbone side beside
`read_done`, through as many stages, so that outside `REFILL` all three copies agree:
they are clear before the first refill and set after it (`LineFlags`).  This rests on
two things about a refill: it delivers every word of the line (`DeliversLine`), and
its last word is in the buffer RAM when the port leaves `REFILL` (`StoresLine`).
-/

set_option autoImplicit false

namespace OrpsocCores.WbPort

open Wishbone

variable {bw : Nat}

/-! ## What an edge does to the registers of the line -/

namespace WbSide

theorem machine_wbWriteAck (s : WbSide bw) (bus : Bus) (full : Bool)
    (armed : (s.machine bus full).wbWriteAck = true) :
    (s.machine bus full).wbState = .write ∨ (s.machine bus full).wbState = .idle := by
  revert armed
  cases state : s.wbState <;>
    simp only [machine, state, idleBranch, readBranch, refillBranch, writeBranch] <;> grind

theorem machine_firstReq (s : WbSide bw) (bus : Bus) (full : Bool) :
    (s.machine bus full).firstReq = (s.firstReq && !s.entersRefill bus) := by
  cases state : s.wbState <;>
    simp only [machine, state, entersRefill, idleBranch, readBranch, refillBranch, writeBranch] <;>
    grind

theorem machine_wbWriteBufram_refill (s : WbSide bw) (bus : Bus) (full : Bool)
    (refills : (s.machine bus full).wbState = .refill) :
    (s.machine bus full).wbWriteBufram = false := by
  revert refills
  cases state : s.wbState <;>
    simp only [machine, state, idleBranch, readBranch, refillBranch, writeBranch] <;> grind

theorem machine_bufAdr (s : WbSide bw) (bus : Bus) (full : Bool) :
    (s.machine bus full).bufAdr = if s.wbState = .refill then lineOf bw s.wbAdr else s.bufAdr := by
  cases state : s.wbState <;>
    simp only [machine, state, idleBranch, readBranch, refillBranch, writeBranch] <;> grind

theorem machine_wbAdr_refill (s : WbSide bw) (bus : Bus) (full : Bool)
    (refills : s.wbState = .refill) : (s.machine bus full).wbAdr = s.wbAdr := by
  simp only [machine, refills, refillBranch]
  split <;> rfl

end WbSide

namespace SdramSide

theorem machine_bufClean (s : SdramSide bw) (pins : SdramPins) (empty : Bool) (wbAdr : BitVec 32) :
    (s.machine pins empty wbAdr).bufClean =
      match s.sdramState with
      | .idle => if empty && s.readReqSdram then 0 else s.bufClean
      | .read =>
          if pins.ackI then s.bufClean ||| BitVec.twoPow _ (wordOf bw pins.adrI).toNat
          else s.bufClean
      | _ => s.bufClean := by
  cases state : s.sdramState <;>
    simp only [machine, state, idleBranch, readBranch, sampled] <;> grind

theorem machine_sdramWriteBufram (s : SdramSide bw) (pins : SdramPins) (empty : Bool)
    (wbAdr : BitVec 32) :
    (s.machine pins empty wbAdr).sdramWriteBufram = (s.sdramState == .read && pins.ackI) := by
  cases state : s.sdramState <;>
    simp only [machine, state, idleBranch, readBranch, sampled] <;> grind

end SdramSide

/-! ## The invariant -/

variable {p : Port bw} {e : Instant}

/-- A burst ends when every word of the line has arrived. -/
def DeliversLine (p : Port bw) (e : Instant) : Prop :=
  ∀ pins ∈ e.sdram, p.sdram.sdramState = .read → p.sdram.completes pins = true →
    p.sdram.bufClean ||| BitVec.twoPow _ (wordOf bw pins.adrI).toNat = BitVec.allOnes _

/-- The last word of a burst is in the buffer RAM when the port leaves `REFILL`. -/
def StoresLine (p : Port bw) (e : Instant) : Prop :=
  e.wb.isSome = true → p.wb.wbState = .refill → p.wb.readDoneWb = true →
    p.sdram.sdramWriteBufram = false

instance (p : Port bw) (e : Instant) : Decidable (DeliversLine p e) :=
  inferInstanceAs (Decidable (∀ _ ∈ _, _ → _ → _))

instance (p : Port bw) (e : Instant) : Decidable (StoresLine p e) :=
  inferInstanceAs (Decidable (_ → _ → _ → _))

/-- The copies of the clean flags and the registers around them. -/
structure LineFlags (p : Port bw) : Prop where
  handshake : Handshake p
  armed : p.wb.wbWriteAck = true → p.wb.wbState = .write ∨ p.wb.wbState = .idle
  unused : p.wb.firstReq = true → p.wb.wbState ≠ .refill ∧ p.sdram.bufClean = 0 ∧
    p.wb.bufCleanR = 0 ∧ p.wb.bufCleanWb = 0
  done : p.sdram.readDone = true → p.sdram.bufClean = BitVec.allOnes _
  doneR : p.wb.readDoneR = true → p.wb.bufCleanR = BitVec.allOnes _
  doneWb : p.wb.readDoneWb = true → p.wb.bufCleanWb = BitVec.allOnes _
  complete : p.wb.wbState ≠ .refill → p.wb.firstReq = false →
    p.sdram.bufClean = BitVec.allOnes _ ∧ p.wb.bufCleanR = BitVec.allOnes _ ∧
      p.wb.bufCleanWb = BitVec.allOnes _
  stored : p.wb.wbState ≠ .refill → p.sdram.sdramWriteBufram = false
  waiting : p.wb.wbState = .refill → p.wb.wbWriteBufram = false
  moved : p.wb.wbState = .refill → p.wb.bufAdr = lineOf bw p.wb.wbAdr ∨ p.wb.readDoneWb = false

theorem Settled.lineFlags (settled : Settled p) : LineFlags p where
  handshake := settled.handshake
  armed := by simp [settled.wbWriteAck]
  unused := fun _ => ⟨by simp [settled.wbState], settled.bufClean, settled.bufCleanR,
    settled.bufCleanWb⟩
  done := by simp [settled.readDone]
  doneR := by simp [settled.readDoneR]
  doneWb := by simp [settled.readDoneWb]
  complete := by simp [settled.firstReq]
  stored := fun _ => settled.sdramWriteBufram
  waiting := by simp [settled.wbState]
  moved := by simp [settled.wbState]

/-- Outside `REFILL` the SDRAM side does not read. -/
theorem Handshake.not_reading (handshake : Handshake p) (outside : p.wb.wbState ≠ .refill) :
    p.sdram.sdramState ≠ .read ∧ (p.sdram.sdramState = .idle → p.sdram.readReqSdram = false) := by
  have request : p.wb.readReqWb = false := by
    rw [← Bool.not_eq_true]
    exact fun up => outside (handshake.requests.mp up)
  cases handshake.exchange with
  | quiet _ _ synced _ _ state => exact ⟨by rcases state with idle | write <;> simp [*], fun _ => synced⟩
  | requested up => rw [up] at request; cases request
  | answered up => rw [up] at request; cases request
  | withdrawn _ _ _ _ _ state => exact ⟨by simp [state], by simp [state]⟩

/-- A port that sees the answer in `REFILL` has a complete line behind it. -/
theorem Handshake.answered_of_readDoneWb (handshake : Handshake p)
    (refills : p.wb.wbState = .refill) (seen : p.wb.readDoneWb = true) :
    p.sdram.readDone = true ∧ p.wb.readDoneR = true ∧ p.sdram.sdramState = .waitLatency := by
  have request := handshake.requests.mpr refills
  cases handshake.exchange with
  | quiet up => rw [up] at request; cases request
  | requested _ _ _ _ synced => rw [synced] at seen; cases seen
  | answered _ _ _ answer arriving state => exact ⟨answer, arriving seen, state⟩
  | withdrawn up => rw [up] at request; cases request

/-- The Wishbone side after an instant without an edge of its clock, or with one. -/
theorem wb_after (running : Running e) :
    (e.wb = none ∧ (p.step e).wb = p.wb) ∨
      ∃ pins, e.wb = some pins ∧ (p.step e).wb =
        { p.wb.machine pins.bus p.full with
          readDoneR := p.sdram.readDone, readDoneWb := p.wb.readDoneR
          bufCleanR := p.sdram.bufClean, bufCleanWb := p.wb.bufCleanR } := by
  cases edge : e.wb with
  | none => exact Or.inl ⟨rfl, by simp [Port.step, edge]⟩
  | some pins =>
      have noReset : pins.wbRst = false := running.1 pins (by simp [edge])
      exact Or.inr ⟨pins, rfl, by simp [Port.step, edge, WbSide.edge, noReset]⟩

namespace LineFlags

/-- The flags change only while the SDRAM side serves a request. -/
theorem bufClean_step (flags : LineFlags p) (running : Running e)
    (settled : p.wb.wbState ≠ .refill ∨ p.sdram.readDone = true) :
    (p.step e).sdram.bufClean = p.sdram.bufClean := by
  have state : p.sdram.sdramState ≠ .read ∧
      (p.sdram.sdramState = .idle → p.sdram.readReqSdram = false) := by
    rcases settled with outside | done
    · exact flags.handshake.not_reading outside
    · cases flags.handshake.exchange with
      | quiet _ _ _ answer => rw [answer] at done; cases done
      | requested _ _ answer => rw [answer] at done; cases done
      | answered _ _ _ _ _ state => exact ⟨by simp [state], by simp [state]⟩
      | withdrawn _ _ _ _ _ state => exact ⟨by simp [state], by simp [state]⟩
  rcases sdram_after (p := p) running with ⟨-, same⟩ | ⟨pins, -, edge⟩
  · rw [same]
  · rw [edge, SdramSide.machine_bufClean]
    cases phase : p.sdram.sdramState with
    | idle => simp [state.2 phase]
    | read => exact absurd phase state.1
    | write => rfl
    | writeLast => rfl
    | refill => rfl
    | waitLatency => rfl
    | readDone => rfl

theorem done_step (flags : LineFlags p) (running : Running e) (delivers : DeliversLine p e)
    (answer : (p.step e).sdram.readDone = true) :
    (p.step e).sdram.bufClean = BitVec.allOnes _ := by
  by_cases before : p.sdram.readDone = true
  · rw [flags.bufClean_step running (Or.inr before)]
    exact flags.done before
  · rcases sdram_after (p := p) running with ⟨-, same⟩ | ⟨pins, edge, after⟩
    · rw [same] at answer
      exact absurd answer before
    · rw [after, SdramSide.machine_readDone] at answer
      rw [after, SdramSide.machine_bufClean]
      cases phase : p.sdram.sdramState with
      | read =>
          simp only [phase, before, Bool.or_false] at answer
          have last : pins.ackI = true := by
            simp only [SdramSide.completes, Bool.and_eq_true] at answer
            exact answer.2
          simp only [last, if_true]
          exact delivers pins (by simp [edge]) phase answer
      | idle => simp only [phase] at answer; exact absurd answer before
      | write => simp only [phase] at answer; exact absurd answer before
      | writeLast => simp only [phase] at answer; exact absurd answer before
      | refill => simp only [phase] at answer; exact absurd answer before
      | waitLatency => simp only [phase, before, Bool.and_false] at answer; cases answer
      | readDone => simp only [phase] at answer; exact absurd answer before

/-- The port was outside `REFILL` already, or leaves it with the answer in sight. -/
theorem outside_step (running : Running e) (outside : (p.step e).wb.wbState ≠ .refill) :
    (p.wb.wbState ≠ .refill ∧ (p.step e).wb.firstReq = p.wb.firstReq) ∨
      (p.wb.wbState = .refill ∧ p.wb.readDoneWb = true ∧ e.wb.isSome = true) := by
  rcases wb_after (p := p) running with ⟨-, same⟩ | ⟨pins, edge, after⟩
  · rw [same] at outside
    exact Or.inl ⟨outside, by rw [same]⟩
  · rw [after] at outside
    have refills := (p.wb.machine_wbState_refill pins.bus p.full).not.mp outside
    simp only [not_or] at refills
    by_cases state : p.wb.wbState = .refill
    · refine Or.inr ⟨state, ?_, by simp [edge]⟩
      have leaves := refills.2
      simpa [WbSide.staysInRefill, state] using leaves
    · refine Or.inl ⟨state, ?_⟩
      rw [after]
      simp [WbSide.machine_firstReq, refills.1]

/-- **An instant keeps the flags in order.** -/
theorem step (flags : LineFlags p) (running : Running e) (delivers : DeliversLine p e)
    (stores : StoresLine p e) : LineFlags (p.step e) where
  handshake := flags.handshake.step running
  armed := by
    rcases wb_after (p := p) running with ⟨-, same⟩ | ⟨pins, -, after⟩
    · rw [same]
      exact flags.armed
    · rw [after]
      exact p.wb.machine_wbWriteAck pins.bus p.full
  unused := by
    intro first
    have before : p.wb.firstReq = true := by
      rcases wb_after (p := p) running with ⟨-, same⟩ | ⟨pins, -, after⟩
      · rwa [same] at first
      · rw [after, WbSide.machine_firstReq] at first
        exact (Bool.and_eq_true_iff.mp first).1
    obtain ⟨outside, clean, cleanR, cleanWb⟩ := flags.unused before
    have kept := flags.bufClean_step (e := e) running (Or.inl outside)
    rcases wb_after (p := p) running with ⟨-, same⟩ | ⟨pins, -, after⟩
    · rw [same, kept]
      exact ⟨outside, clean, cleanR, cleanWb⟩
    · rw [after, WbSide.machine_firstReq] at first
      refine ⟨?_, by rw [kept, clean], by rw [after]; exact clean, by rw [after]; exact cleanR⟩
      rw [after]
      refine (p.wb.machine_wbState_refill pins.bus p.full).not.mpr ?_
      simp only [Bool.and_eq_true, Bool.not_eq_true'] at first
      simp [first.2, WbSide.staysInRefill, outside]
  done := flags.done_step running delivers
  doneR := by
    rcases wb_after (p := p) running with ⟨-, same⟩ | ⟨pins, -, after⟩
    · rw [same]
      exact flags.doneR
    · rw [after]
      exact flags.done
  doneWb := by
    rcases wb_after (p := p) running with ⟨-, same⟩ | ⟨pins, -, after⟩
    · rw [same]
      exact flags.doneWb
    · rw [after]
      exact flags.doneR
  complete := by
    intro outside first
    rcases outside_step running outside with ⟨before, same⟩ | ⟨refills, seen, -⟩
    · rw [same] at first
      obtain ⟨clean, cleanR, cleanWb⟩ := flags.complete before first
      have kept := flags.bufClean_step (e := e) running (Or.inl before)
      rcases wb_after (p := p) running with ⟨-, same⟩ | ⟨pins, -, after⟩
      · rw [same, kept]
        exact ⟨clean, cleanR, cleanWb⟩
      · rw [after, kept]
        exact ⟨clean, clean, cleanR⟩
    · obtain ⟨answer, arrived, -⟩ := flags.handshake.answered_of_readDoneWb refills seen
      have kept := flags.bufClean_step (e := e) running (Or.inr answer)
      rcases wb_after (p := p) running with ⟨-, same⟩ | ⟨pins, -, after⟩
      · rw [same] at outside
        exact absurd refills outside
      · rw [after, kept]
        exact ⟨flags.done answer, flags.done answer, flags.doneR arrived⟩
  stored := by
    intro outside
    have quiet : p.sdram.sdramState ≠ .read ∧ p.sdram.sdramWriteBufram = false := by
      rcases outside_step running outside with ⟨before, -⟩ | ⟨refills, seen, edge⟩
      · exact ⟨(flags.handshake.not_reading before).1, flags.stored before⟩
      · have state := (flags.handshake.answered_of_readDoneWb refills seen).2.2
        exact ⟨by simp [state], stores edge refills seen⟩
    rcases sdram_after (p := p) running with ⟨-, same⟩ | ⟨pins, -, after⟩
    · rw [same]
      exact quiet.2
    · rw [after]
      simp [SdramSide.machine_sdramWriteBufram, quiet.1]
  waiting := by
    rcases wb_after (p := p) running with ⟨-, same⟩ | ⟨pins, -, after⟩
    · rw [same]
      exact flags.waiting
    · rw [after]
      exact p.wb.machine_wbWriteBufram_refill pins.bus p.full
  moved := by
    intro refills
    rcases wb_after (p := p) running with ⟨-, same⟩ | ⟨pins, -, after⟩
    · rw [same] at refills ⊢
      exact flags.moved refills
    · rw [after] at refills ⊢
      rcases (p.wb.machine_wbState_refill pins.bus p.full).mp refills with enters | stays
      · exact Or.inr (flags.handshake.quiet_of_entersRefill enters).2.2.2.2
      · simp only [WbSide.staysInRefill, Bool.and_eq_true, beq_iff_eq] at stays
        left
        simp only [WbSide.machine_bufAdr, stays.1, if_true,
          WbSide.machine_wbAdr_refill _ _ _ stays.1]

end LineFlags

end OrpsocCores.WbPort
