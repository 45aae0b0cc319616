import OrpsocCores.RamWb.Model

/-!
# How the RAM serves one master

The RAM answers a beat by a registered ack and runs its own copy of the burst
address.  What it holds depends on where the master is in its access: `Phase`.  In
a burst the registered address is already that of the coming beat, and the latch
agrees with it, so that the wrap bursts, which replace only the latch's low bits,
keep the right high bits.

`Serves` says what the registers hold in each phase.  A cycle in which the master
keeps to its protocol moves the phase on and keeps `Serves` (`Serves.edge`); what the
master sees meanwhile is in `Serves.answer`.
-/

set_option autoImplicit false

namespace OrpsocCores.RamWb

open Wishbone

variable {aw m : Nat}

/-- Where a master is in its access. -/
inductive Phase (aw : Nat) where
  /-- Between accesses. -/
  | free
  /-- A beat is presented and not acknowledged; whether the RAM has seen it. -/
  | held (beat : Bus aw) (seen : Bool)
  /-- A beat has just been acknowledged and its burst goes on. -/
  | inBurst (beat : Bus aw)
  /-- The burst waits after this beat; the cycle type of the coming one. -/
  | waiting (beat : Bus aw) (coming : Cti)

/-- The word a burst prescribes after this beat. -/
def nextWord (beat : Bus aw) : Nat := beat.cti.nextWord beat.bte beat.word

/-- The coming beat of a burst, presented at once or announced while `stb` is low. -/
def Announces (beat bus : Bus aw) : Prop :=
  bus.cyc = true ∧ bus.bte = beat.bte ∧ (bus.stb = true → bus.word = nextWord beat)

instance (beat bus : Bus aw) : Decidable (Announces beat bus) :=
  inferInstanceAs (Decidable (_ ∧ _ ∧ _))

/-- What a master may drive in a phase: any access to begin with, the same request
until it is acknowledged, and in a burst the prescribed beats up to the one marked
as the last, with waits between them that announce the coming beat. -/
def Phase.Allows : Phase aw → Bus aw → Prop
  | .free, _ => True
  | .held beat _, bus => bus = beat
  | .inBurst beat, bus =>
      Announces beat bus ∧ (bus.cti = beat.cti ∨ bus.cti = .endBurst)
  | .waiting beat coming, bus => Announces beat bus ∧ bus.cti = coming

instance : (phase : Phase aw) → (bus : Bus aw) → Decidable (phase.Allows bus)
  | .free, _ => .isTrue trivial
  | .held beat _, bus => inferInstanceAs (Decidable (bus = beat))
  | .inBurst _, _ => inferInstanceAs (Decidable (_ ∧ _))
  | .waiting _ _, _ => inferInstanceAs (Decidable (_ ∧ _))

/-- The phase after a cycle. -/
def Phase.next (phase : Phase aw) (bus : Bus aw) (selected ack : Bool) : Phase aw :=
  if bus.valid then
    if ack then if bus.cti.isLast then .free else .inBurst bus
    else .held bus selected
  else
    match phase with
    | .inBurst beat => .waiting beat bus.cti
    | phase => phase

/-- Nothing is under way in the RAM. -/
def Idle (s : B3 m) : Prop := s.wbB3Trans = false ∧ s.wbAckOR = false

/-- What the RAM holds for the master it serves. -/
def Serves (s : B3 m) : Phase aw → Prop
  | .free => Idle s
  | .held beat false => beat.valid = true ∧ Idle s
  | .held beat true =>
      beat.valid = true ∧ s.wbAckOR = true ∧ s.adr = wordOf m beat.adr ∧
        (beat.cti = .classic → s.wbB3Trans = false) ∧
        (beat.cti.isLast = false → s.wbB3Trans = true) ∧
        (s.wbB3Trans = true →
          s.burstAdrCounter = s.adr ∧ s.wbCtiIR = beat.cti ∧ s.wbBteIR = beat.bte)
  | .inBurst beat =>
      beat.cti.isLast = false ∧ s.wbAckOR = true ∧ s.wbB3Trans = true ∧
        s.burstAdrCounter = s.adr ∧ s.adr.toNat = nextWord beat % 2 ^ m ∧
        s.wbCtiIR = beat.cti ∧ s.wbBteIR = beat.bte
  | .waiting beat coming =>
      beat.cti.isLast = false ∧ (coming = beat.cti ∨ coming = .endBurst) ∧
        s.wbAckOR = false ∧ s.wbB3Trans = true ∧
        s.burstAdrCounter = s.adr ∧ s.adr.toNat = nextWord beat % 2 ^ m ∧
        s.wbCtiIR = coming ∧ s.wbBteIR = beat.bte

variable {s : B3 m} {phase : Phase aw} {bus : Bus aw}

/-! ## What the master sees -/

/-- The prescribed word is the one in the address register. -/
theorem adr_eq_of_word {prescribed : Nat} (inRange : bus.adr.toNat < 2 ^ (m + 2))
    (word : bus.word = prescribed) (adr : s.adr.toNat = prescribed % 2 ^ m) :
    s.adr = wordOf m bus.adr := by
  apply BitVec.eq_of_toNat_eq
  have below : bus.word < 2 ^ m := by
    rw [Pins.word, ← toNat_wordOf inRange]
    exact (wordOf m bus.adr).isLt
  rw [toNat_wordOf inRange, adr, ← word, Nat.mod_eq_of_lt below]
  rfl

/-- What the master sees in a cycle. -/
structure Answer (s : B3 m) (phase : Phase aw) (bus : Bus aw) : Prop where
  /-- No access is an error. -/
  noErr : s.wbErrO bus = false
  /-- An ack answers the presented beat, at its own address. -/
  own : s.wbAckO bus = true → bus.valid = true ∧ s.adr = wordOf m bus.adr
  /-- A new beat is not acknowledged before the RAM has seen it. -/
  fresh : phase = .free → s.wbAckO bus = false
  unseen : ∀ beat, phase = .held beat false → s.wbAckO bus = false
  /-- A beat is acknowledged in its second cycle at the latest. -/
  prompt : ∀ beat, phase = .held beat true → s.wbAckO bus = true

theorem Serves.answer (serves : Serves s phase) (allows : phase.Allows bus)
    (inRange : bus.valid = true → bus.adr.toNat < 2 ^ (m + 2)) : Answer s phase bus := by
  cases phase with
  | free =>
      obtain ⟨-, noAck⟩ := serves
      constructor <;> simp [B3.wbErrO, B3.wbAckO, noAck]
  | held beat seen =>
      obtain rfl : bus = beat := allows
      cases seen with
      | false =>
          obtain ⟨-, -, noAck⟩ := serves
          constructor <;> simp [B3.wbErrO, B3.wbAckO, noAck]
      | true =>
          obtain ⟨valid, ack, adr, -⟩ := serves
          have stb : bus.stb = true := (Bool.and_eq_true _ _ ▸ valid : _ ∧ _).2
          constructor <;>
            simp [B3.wbErrO, B3.wbAckO, B3.burstAccessWrongWbAdr, ack, adr, stb, valid]
  | inBurst beat =>
      obtain ⟨-, ack, -, -, adr, -⟩ := serves
      obtain ⟨⟨cyc, -, word⟩, -⟩ := allows
      cases stb : bus.stb with
      | false => constructor <;> simp [B3.wbErrO, B3.wbAckO, stb]
      | true =>
          have valid : bus.valid = true := by simp [Pins.valid, cyc, stb]
          have own := adr_eq_of_word (inRange valid) (word stb) adr
          constructor <;>
            simp [B3.wbErrO, B3.wbAckO, B3.burstAccessWrongWbAdr, ack, own, stb, valid]
  | waiting beat coming =>
      obtain ⟨-, -, noAck, -⟩ := serves
      constructor <;> simp [B3.wbErrO, B3.wbAckO, noAck]

/-! ## The burst address -/

/-- While the latch agrees with the address register, an acknowledged beat moves it
to the prescribed word. -/
theorem settled_toNat (wide : 4 ≤ m) (trans : s.wbB3Trans = true) (ack : s.wbAckO bus = true)
    (latch : s.burstAdrCounter = s.adr) :
    (s.settled bus).toNat = s.wbCtiIR.nextWord s.wbBteIR s.adr.toNat % 2 ^ m := by
  have noStart : s.wbB3TransStart bus = false := by simp [B3.wbB3TransStart, trans]
  have bound := s.adr.isLt
  have four : 2 ≤ m ∧ 3 ≤ m ∧ 4 ≤ m := by omega
  simp only [B3.settled, noStart, trans, ack, Cti.nextWord, Bool.false_eq_true, if_false,
    Bool.and_true, beq_iff_eq]
  split
  · cases s.wbBteIR with
    | linear => simp [Bte.nextWord]
    | wrap4 =>
        simp only [B3.wrapCounter, latch, BitVec.toNat_setWidth, Bte.nextWord]
        rw [toNat_wrapAdd 2 (m - 2) (by omega)]
        rfl
    | wrap8 =>
        simp only [B3.wrapCounter, latch, BitVec.toNat_setWidth, Bte.nextWord]
        rw [toNat_wrapAdd 3 (m - 3) (by omega)]
        rfl
    | wrap16 =>
        simp only [B3.wrapCounter, latch, BitVec.toNat_setWidth, Bte.nextWord]
        rw [toNat_wrapAdd 4 (m - 4) (by omega)]
        rfl
  · rw [latch, Nat.mod_eq_of_lt bound]

/-- Without an ack the latch keeps its value in a burst. -/
theorem settled_eq_of_no_ack (trans : s.wbB3Trans = true) (noAck : s.wbAckO bus = false) :
    s.settled bus = s.burstAdrCounter := by
  simp [B3.settled, B3.wbB3TransStart, trans, noAck]

/-! ## One cycle -/

/-- An idle RAM takes up a presented beat. -/
theorem Idle.takes (idle : Idle s) (valid : bus.valid = true) :
    Serves (s.edge false bus) (.held bus true) := by
  obtain ⟨noTrans, noAck⟩ := idle
  obtain ⟨cyc, stb⟩ : bus.cyc = true ∧ bus.stb = true := by simpa [Pins.valid] using valid
  refine ⟨valid, ?_, ?_, ?_, ?_, ?_⟩
  · cases cti : bus.cti <;> simp [B3.edge, B3.ackAfter, cyc, stb, noAck, cti]
  · simp [B3.edge, noTrans, cyc, stb]
  · intro classic
    simp [B3.edge, B3.wbB3TransStart, noTrans, classic]
  · intro more
    have burst : (bus.cti == .constBurst || bus.cti == .incBurst) = true := by
      cases cti : bus.cti <;> simp_all [Cti.isLast]
    simp [B3.edge, B3.wbB3TransStart, noTrans, burst, stb, cyc]
  · intro started
    have starts : s.wbB3TransStart bus = true := by
      simpa [B3.edge, noTrans] using started
    simp [B3.edge, B3.settled, starts, noTrans, cyc, stb]

/-- An idle RAM stays idle when nothing is presented. -/
theorem Idle.stays (idle : Idle s) (nothing : bus.valid = false) : Idle (s.edge false bus) := by
  obtain ⟨noTrans, noAck⟩ := idle
  constructor
  · have noStart : s.wbB3TransStart bus = false := by
      simp only [Pins.valid] at nothing
      cases cyc : bus.cyc <;> simp_all [B3.wbB3TransStart]
    simp [B3.edge, noStart, noTrans]
  · cases cyc : bus.cyc with
    | false => simp [B3.edge, B3.ackAfter, cyc]
    | true =>
        have stb : bus.stb = false := by simpa [Pins.valid, cyc] using nothing
        cases cti : bus.cti <;> simp [B3.edge, B3.ackAfter, cyc, stb, noAck, cti]

/-- An acknowledged beat leaves the RAM idle when it was the last one, and with the
next address when its burst goes on. -/
theorem serves_of_ack (wide : 4 ≤ m) (valid : bus.valid = true)
    (inRange : bus.adr.toNat < 2 ^ (m + 2)) (up : s.wbAckOR = true) (adr : s.adr = wordOf m bus.adr)
    (classic : bus.cti = .classic → s.wbB3Trans = false)
    (burst : bus.cti.isLast = false → s.wbB3Trans = true ∧ s.burstAdrCounter = s.adr ∧
      s.wbCtiIR = bus.cti ∧ s.wbBteIR = bus.bte) :
    Serves (s.edge false bus) (if bus.cti.isLast then .free else .inBurst bus) := by
  obtain ⟨cyc, stb⟩ : bus.cyc = true ∧ bus.stb = true := by simpa [Pins.valid] using valid
  have ack : s.wbAckO bus = true := by simp [B3.wbAckO, B3.burstAccessWrongWbAdr, up, stb, adr]
  have noErr : s.wbErrO bus = false := by simp [B3.wbErrO, B3.burstAccessWrongWbAdr, adr]
  cases last : bus.cti.isLast with
  | true =>
      simp only [if_true]
      cases cti : bus.cti with
      | classic =>
          simp [Serves, Idle, B3.edge, B3.ackAfter, B3.wbB3TransStart, B3.wbB3TransStop, cti,
            classic cti, noErr, cyc, stb, up]
      | endBurst =>
          simp [Serves, Idle, B3.edge, B3.ackAfter, B3.wbB3TransStart, B3.wbB3TransStop, cti,
            noErr, ack, cyc, stb, up]
      | constBurst => simp [cti, Cti.isLast] at last
      | incBurst => simp [cti, Cti.isLast] at last
  | false =>
      obtain ⟨trans, latch, ctiR, bteR⟩ := burst last
      have notEnd : (bus.cti == .endBurst) = false := by
        cases cti : bus.cti <;> simp_all [Cti.isLast]
      have next := settled_toNat wide trans ack latch
      rw [ctiR, bteR, adr, toNat_wordOf inRange] at next
      simp only [Bool.false_eq_true, if_false]
      refine ⟨last, ?_, ?_, ?_, ?_, rfl, rfl⟩
      · cases cti : bus.cti <;> simp_all [B3.edge, B3.ackAfter, Cti.isLast]
      · simp [B3.edge, B3.wbB3TransStart, B3.wbB3TransStop, trans, notEnd, noErr]
      · simp [B3.edge, trans]
      · simpa [B3.edge, trans, nextWord, Pins.word] using next

/-- The coming beat of a burst is no classic cycle. -/
theorem ne_classic_of_coming {beat : Bus aw} (more : beat.cti.isLast = false)
    (coming : bus.cti = beat.cti ∨ bus.cti = .endBurst) : bus.cti ≠ .classic := by
  intro classic
  rcases coming with same | last
  · rw [← same, classic] at more
    cases more
  · rw [classic] at last
    cases last

/-- The ack register inside a burst. -/
theorem ackAfter_eq (cyc : bus.cyc = true) (burst : bus.cti ≠ .classic) :
    s.ackAfter bus = (bus.stb && !(bus.cti == .endBurst && s.wbAckOR)) := by
  rw [B3.ackAfter, if_pos cyc]
  cases cti : bus.cti with
  | classic => exact absurd cti burst
  | constBurst => simp
  | incBurst => simp
  | endBurst => simp

/-- Between two beats of a burst the RAM waits at the next address. -/
theorem serves_of_wait {beat : Bus aw} (trans : s.wbB3Trans = true)
    (latch : s.burstAdrCounter = s.adr) (adr : s.adr.toNat = nextWord beat % 2 ^ m)
    (more : beat.cti.isLast = false) (announces : Announces beat bus)
    (coming : bus.cti = beat.cti ∨ bus.cti = .endBurst) (low : bus.stb = false) :
    Serves (s.edge false bus) (.waiting beat bus.cti) := by
  obtain ⟨cyc, bte, -⟩ := announces
  have noAck : s.wbAckO bus = false := by simp [B3.wbAckO, low]
  have noErr : s.wbErrO bus = false := by simp [B3.wbErrO, low]
  have notClassic := ne_classic_of_coming more coming
  refine ⟨more, coming, ?_, ?_, ?_, ?_, rfl, bte⟩
  · simp [B3.edge, ackAfter_eq cyc notClassic, low]
  · simp [B3.edge, B3.wbB3TransStart, B3.wbB3TransStop, trans, noAck, noErr]
  · simp [B3.edge, trans]
  · simpa [B3.edge, trans, settled_eq_of_no_ack trans noAck, latch] using adr

/-- A beat that is presented after a wait is taken up at the address the RAM waits
at. -/
theorem serves_of_resume {beat : Bus aw} (valid : bus.valid = true) (trans : s.wbB3Trans = true)
    (noAckR : s.wbAckOR = false) (latch : s.burstAdrCounter = s.adr) (adr : s.adr = wordOf m bus.adr)
    (more : beat.cti.isLast = false) (coming : bus.cti = beat.cti ∨ bus.cti = .endBurst) :
    Serves (s.edge false bus) (.held bus true) := by
  obtain ⟨cyc, stb⟩ : bus.cyc = true ∧ bus.stb = true := by simpa [Pins.valid] using valid
  have noAck : s.wbAckO bus = false := by simp [B3.wbAckO, noAckR]
  have noErr : s.wbErrO bus = false := by simp [B3.wbErrO, noAckR]
  have kept := settled_eq_of_no_ack trans noAck
  have stays : (s.edge false bus).wbB3Trans = true := by
    simp [B3.edge, B3.wbB3TransStart, B3.wbB3TransStop, trans, noAck, noErr]
  have notClassic := ne_classic_of_coming more coming
  refine ⟨valid, ?_, ?_, fun classic => absurd classic notClassic, fun _ => stays, fun _ => ?_⟩
  · simp [B3.edge, ackAfter_eq cyc notClassic, stb, noAckR]
  · simp [B3.edge, trans, kept, latch, adr]
  · exact ⟨by simp [B3.edge, trans], rfl, rfl⟩

/-- **A cycle of a master that keeps to its protocol moves the phase on.** -/
theorem Serves.edge (wide : 4 ≤ m) (serves : Serves s phase) (allows : phase.Allows bus)
    (inRange : bus.valid = true → bus.adr.toNat < 2 ^ (m + 2)) :
    Serves (s.edge false bus) (phase.next bus true (s.wbAckO bus)) := by
  have answer := serves.answer allows inRange
  cases phase with
  | free =>
      cases valid : bus.valid with
      | true => simpa [Phase.next, valid, answer.fresh rfl] using Idle.takes serves valid
      | false =>
          simp only [Phase.next, valid, Bool.false_eq_true, if_false]
          exact Idle.stays serves valid
  | held beat seen =>
      obtain rfl : bus = beat := allows
      cases seen with
      | false =>
          obtain ⟨valid, idle⟩ := serves
          simpa [Phase.next, valid, answer.unseen bus rfl] using idle.takes valid
      | true =>
          obtain ⟨valid, up, adr, classic, burst, registers⟩ := serves
          simp only [Phase.next, valid, answer.prompt bus rfl, if_true]
          exact serves_of_ack wide valid (inRange valid) up adr classic
            fun more => ⟨burst more, registers (burst more)⟩
  | inBurst beat =>
      obtain ⟨more, up, trans, latch, adr, ctiR, bteR⟩ := serves
      obtain ⟨announces, coming⟩ := allows
      cases stb : bus.stb with
      | false =>
          have nothing : bus.valid = false := by simp [Pins.valid, stb]
          simp only [Phase.next, nothing, Bool.false_eq_true, if_false]
          exact serves_of_wait trans latch adr more announces coming stb
      | true =>
          have valid : bus.valid = true := by simp [Pins.valid, announces.1, stb]
          have own := adr_eq_of_word (inRange valid) (announces.2.2 stb) adr
          have ack : s.wbAckO bus = true := by
            simp [B3.wbAckO, B3.burstAccessWrongWbAdr, up, stb, own]
          simp only [Phase.next, valid, ack, if_true]
          refine serves_of_ack wide valid (inRange valid) up own ?_ ?_
          · intro classic
            exact absurd classic (ne_classic_of_coming more coming)
          · intro goesOn
            rcases coming with same | last
            · exact ⟨trans, latch, ctiR.trans same.symm, bteR.trans announces.2.1.symm⟩
            · rw [last] at goesOn
              cases goesOn
  | waiting beat coming =>
      obtain ⟨more, next, noAckR, trans, latch, adr, ctiR, bteR⟩ := serves
      obtain ⟨announces, rfl⟩ := allows
      cases stb : bus.stb with
      | false =>
          have nothing : bus.valid = false := by simp [Pins.valid, stb]
          simp only [Phase.next, nothing, Bool.false_eq_true, if_false]
          exact serves_of_wait trans latch adr more announces next stb
      | true =>
          have valid : bus.valid = true := by simp [Pins.valid, announces.1, stb]
          have own := adr_eq_of_word (inRange valid) (announces.2.2 stb) adr
          have noAck : s.wbAckO bus = false := by simp [B3.wbAckO, noAckR]
          simp only [Phase.next, valid, noAck, if_true, Bool.false_eq_true, if_false]
          exact serves_of_resume valid trans noAckR latch own more next

end OrpsocCores.RamWb
