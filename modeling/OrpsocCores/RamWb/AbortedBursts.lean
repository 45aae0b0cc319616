import OrpsocCores.RamWb.Serving

/-!
# Bursts that are broken off

A master may drop `cyc` in the middle of a burst.  The ack register falls with it, but
`wb_b3_trans` is only cleared by the last beat or by an error, so the RAM goes on as if
the burst were under way: the next access is compared with the address at which the
burst stopped, and an access to any other word ends in `wb_err_o`
(`wbErrO_of_stale`, `aborted_burst_errs`).

`Turn` is where such a master is in its access.  An access that begins while the flag is
left over and happens to be at the word where the burst stopped is served; if it is a
classic one, the flag even outlives it.  When no access meets a left-over flag at another
word, the RAM serves every master as after a reset (`serves_of_fits`).
-/

set_option autoImplicit false

namespace OrpsocCores.RamWb

open Wishbone

variable {aw m : Nat}

/-! ## The master -/

/-- Where a master is that may drop `cyc` at any time. -/
inductive Turn (aw : Nat) where
  /-- Between accesses. -/
  | free
  /-- A beat has been presented and waits for its answer; in a burst, the word that is
  expected. -/
  | held (beat : Bus aw) (expected : Option Nat)
  /-- A beat has just been acknowledged and its burst goes on. -/
  | inBurst (beat : Bus aw)
  /-- The burst waits after this beat; the cycle type of the coming one. -/
  | waiting (beat : Bus aw) (coming : Cti)
  /-- A beat has ended in an error. -/
  | failed
  deriving DecidableEq

namespace Turn

/-- The word that the burst under way expects next. -/
def expected : Turn aw → Option Nat
  | .free => none
  | .held _ expected => expected
  | .inBurst beat => some (nextWord beat)
  | .waiting beat _ => some (nextWord beat)
  | .failed => none

/-- The RAM answers a beat that is presented now. -/
def due : Turn aw → Bool
  | .free => false
  | .held _ _ => true
  | .inBurst _ => true
  | .waiting _ _ => false
  | .failed => false

/-- What a master may drive: nothing is asked of a cycle in which it drops `cyc`.  Else it
holds a request until it is answered, keeps the types of a burst, at whatever address, and
gives the bus up after an error. -/
def Allows (turn : Turn aw) (bus : Bus aw) : Prop :=
  bus.cyc = true →
    match turn with
    | .free => True
    | .held beat _ => bus = beat
    | .inBurst beat => bus.bte = beat.bte ∧ (bus.cti = beat.cti ∨ bus.cti = .endBurst)
    | .waiting beat coming => bus.bte = beat.bte ∧ bus.cti = coming
    | .failed => False

instance (turn : Turn aw) (bus : Bus aw) : Decidable (turn.Allows bus) := by
  unfold Allows
  cases turn <;> exact inferInstance

/-- The turn after a cycle. -/
def next (turn : Turn aw) (bus : Bus aw) (ack err : Bool) : Turn aw :=
  if bus.cyc then
    if bus.stb then
      if err then .failed
      else if ack then if bus.cti.isLast then .free else .inBurst bus
      else .held bus turn.expected
    else
      match turn with
      | .inBurst beat => .waiting beat bus.cti
      | turn => turn
  else .free

/-- The turn beside the RAM. -/
def record (s : B3 m) (bus : Bus aw) (turn : Turn aw) : Turn aw :=
  turn.next bus (s.wbAckO bus) (s.wbErrO bus)

end Turn

/-- The RAM without a reset, and the master's turn beside it. -/
def cycle (x : B3 m × Turn aw) (bus : Bus aw) : B3 m × Turn aw :=
  Trace.monitored (fun s bus => s.edge false bus) Turn.record x bus

/-- The master keeps to its turn, and to addresses in range. -/
def Drives (x : B3 m × Turn aw) (bus : Bus aw) : Prop :=
  x.2.Allows bus ∧ (bus.valid = true → bus.adr.toNat < 2 ^ (m + 2))

instance (x : B3 m × Turn aw) (bus : Bus aw) : Decidable (Drives x bus) :=
  inferInstanceAs (Decidable (_ ∧ _))

/-- What the master is promised in a cycle. -/
structure Promised (x : B3 m × Turn aw) (bus : Bus aw) : Prop where
  /-- An access that begins is not answered at once. -/
  fresh : x.2 = .free → x.1.wbAckO bus = false ∧ x.1.wbErrO bus = false
  /-- It is acknowledged in its second cycle, with the data of its address, and so is each
  beat of a burst that comes at the expected address. -/
  served : x.2.due = true → bus.valid = true →
    (∀ word, x.2.expected = some word → bus.word = word) →
    x.1.wbAckO bus = true ∧ x.1.wbErrO bus = false ∧
      x.1.wbDatO = x.1.mem (wordOf m bus.adr)
  /-- Only a wrong address in a burst is an error. -/
  wrong : x.1.wbErrO bus = true →
    bus.cyc = true ∧ ∃ word, x.2.expected = some word ∧ bus.word ≠ word

/-- While `wb_b3_trans` is set, an access that begins is at the word that is in `adr`, and
so is a strobe that is left standing in the cycle in which `cyc` falls. -/
def Fits (x : B3 m × Turn aw) (bus : Bus aw) : Prop :=
  x.1.wbB3Trans = true →
    (x.2 = .free ∧ bus.valid = true ∨
      bus.cyc = false ∧ bus.stb = true ∧ x.1.wbAckOR = true) →
    x.1.adr = wordOf m bus.adr

instance (x : B3 m × Turn aw) (bus : Bus aw) : Decidable (Fits x bus) :=
  inferInstanceAs (Decidable (_ → _ → _))

/-! ## What holds of every edge -/

variable {s : B3 m} {bus : Bus aw} {turn : Turn aw}

/-- During a burst the latch and the address register move together. -/
theorem burstAdrCounter_edge (trans : (s.edge false bus).wbB3Trans = true) :
    (s.edge false bus).burstAdrCounter = (s.edge false bus).adr := by
  cases before : s.wbB3Trans with
  | true => simp [B3.edge, before]
  | false =>
      have starts : s.wbB3TransStart bus = true := by simpa [B3.edge, before] using trans
      obtain ⟨⟨-, stb⟩, cyc⟩ : (_ ∧ bus.stb = true) ∧ bus.cyc = true := by
        simpa [B3.wbB3TransStart, before] using starts
      simp [B3.edge, B3.settled, before, starts, cyc, stb]

theorem wbAckOR_edge_of_dropped (dropped : bus.cyc = false) :
    (s.edge false bus).wbAckOR = false := by
  simp [B3.edge, B3.ackAfter, dropped]

/-- The answer to the last beat of an access lets the ack register fall. -/
theorem wbAckOR_edge_of_last (cyc : bus.cyc = true) (stb : bus.stb = true)
    (up : s.wbAckOR = true) (last : bus.cti.isLast = true) :
    (s.edge false bus).wbAckOR = false := by
  cases cti : bus.cti with
  | classic => simp [B3.edge, B3.ackAfter, cti, cyc, stb, up]
  | endBurst => simp [B3.edge, B3.ackAfter, cti, cyc, stb, up]
  | constBurst => simp [cti, Cti.isLast] at last
  | incBurst => simp [cti, Cti.isLast] at last

/-- An error ends the burst. -/
theorem wbB3Trans_edge_of_err (err : s.wbErrO bus = true) :
    (s.edge false bus).wbB3Trans = false := by
  have trans : s.wbB3Trans = true := by
    simp only [B3.wbErrO, B3.burstAccessWrongWbAdr, Bool.and_eq_true] at err
    exact err.2.1
  simp [B3.edge, B3.wbB3TransStart, B3.wbB3TransStop, trans, err]

/-- An answer is an ack or an error, by the address. -/
theorem answered (up : s.wbAckOR = true) (stb : bus.stb = true) :
    s.wbAckO bus = !s.burstAccessWrongWbAdr bus ∧ s.wbErrO bus = s.burstAccessWrongWbAdr bus := by
  simp [B3.wbAckO, B3.wbErrO, up, stb]

/-! ## What the RAM holds in each turn -/

/-- What the registers hold in a turn. -/
def RamHolds (s : B3 m) : Turn aw → Prop
  | .free => s.wbAckOR = false
  | .held beat none =>
      beat.valid = true ∧ s.wbAckOR = true ∧ s.adr = wordOf m beat.adr ∧
        (beat.cti.isLast = false → s.wbB3Trans = true) ∧
        (s.wbB3Trans = true → s.wbCtiIR = beat.cti ∧ s.wbBteIR = beat.bte)
  | .held beat (some word) =>
      beat.valid = true ∧ s.wbAckOR = true ∧ s.adr.toNat = word % 2 ^ m ∧
        s.wbB3Trans = true ∧ s.wbCtiIR = beat.cti ∧ s.wbBteIR = beat.bte
  | .inBurst beat => Serves s (.inBurst beat)
  | .waiting beat coming => Serves s (.waiting beat coming)
  | .failed => s.wbB3Trans = false

/-- The registers of the turn, and the latch. -/
structure Keeps (x : B3 m × Turn aw) : Prop where
  latch : x.1.wbB3Trans = true → x.1.burstAdrCounter = x.1.adr
  holds : RamHolds x.1 x.2

/-- An answered beat leaves the RAM at its next word, or done. -/
theorem holds_of_answer (wide : 4 ≤ m) (valid : bus.valid = true)
    (inRange : bus.adr.toNat < 2 ^ (m + 2)) (up : s.wbAckOR = true)
    (latch : s.wbB3Trans = true → s.burstAdrCounter = s.adr)
    (burst : bus.cti.isLast = false →
      s.wbB3Trans = true ∧ s.wbCtiIR = bus.cti ∧ s.wbBteIR = bus.bte) :
    RamHolds (s.edge false bus) (turn.next bus (s.wbAckO bus) (s.wbErrO bus)) := by
  obtain ⟨cyc, stb⟩ : bus.cyc = true ∧ bus.stb = true := by simpa [Pins.valid] using valid
  obtain ⟨ack, err⟩ := answered up stb
  cases wrong : s.burstAccessWrongWbAdr bus with
  | true =>
      rw [wrong] at err
      simpa [RamHolds, Turn.next, cyc, stb, err] using wbB3Trans_edge_of_err err
  | false =>
      rw [wrong] at ack err
      cases last : bus.cti.isLast with
      | true =>
          simpa [RamHolds, Turn.next, cyc, stb, err, ack, last] using
            wbAckOR_edge_of_last cyc stb up last
      | false =>
          obtain ⟨trans, cti, bte⟩ := burst last
          have own : s.adr = wordOf m bus.adr := by
            simpa [B3.burstAccessWrongWbAdr, trans] using wrong
          have classic : bus.cti = .classic → s.wbB3Trans = false := by
            intro classic
            rw [classic] at last
            cases last
          have serves := serves_of_ack wide valid inRange up own classic
            fun _ => ⟨trans, latch trans, cti, bte⟩
          rw [last] at serves
          simpa [RamHolds, Turn.next, cyc, stb, err, ack, last] using serves

/-- An access that begins is taken up, also while the flag of an earlier burst is left, when
it is at the word of that burst. -/
theorem holds_of_begin (valid : bus.valid = true) (down : s.wbAckOR = false)
    (latch : s.wbB3Trans = true → s.burstAdrCounter = s.adr)
    (fits : s.wbB3Trans = true → s.adr = wordOf m bus.adr) :
    RamHolds (s.edge false bus) (.held bus none) := by
  obtain ⟨cyc, stb⟩ : bus.cyc = true ∧ bus.stb = true := by simpa [Pins.valid] using valid
  cases trans : s.wbB3Trans with
  | false =>
      obtain ⟨-, up, own, -, goesOn, registers⟩ := Idle.takes ⟨trans, down⟩ valid
      exact ⟨valid, up, own, goesOn, fun started => (registers started).2⟩
  | true =>
      have noAck : s.wbAckO bus = false := by simp [B3.wbAckO, down]
      have noErr : s.wbErrO bus = false := by simp [B3.wbErrO, down]
      refine ⟨valid, ?_, ?_, fun _ => ?_, fun _ => ⟨rfl, rfl⟩⟩
      · cases cti : bus.cti <;> simp [B3.edge, B3.ackAfter, cyc, stb, down, cti]
      · simp [B3.edge, trans, settled_eq_of_no_ack trans noAck, latch trans, fits trans]
      · simp [B3.edge, B3.wbB3TransStart, B3.wbB3TransStop, trans, noAck, noErr]

/-- A beat that comes after a wait is taken up at the word at which the RAM waits, whatever
its own address. -/
theorem holds_of_resume {beat : Bus aw} {coming : Cti} (serves : Serves s (.waiting beat coming))
    (valid : bus.valid = true) (cti : bus.cti = coming) :
    RamHolds (s.edge false bus) (.held bus (some (nextWord beat))) := by
  obtain ⟨cyc, stb⟩ : bus.cyc = true ∧ bus.stb = true := by simpa [Pins.valid] using valid
  obtain ⟨more, next, down, trans, latch, adr, -, -⟩ := serves
  have noAck : s.wbAckO bus = false := by simp [B3.wbAckO, down]
  have noErr : s.wbErrO bus = false := by simp [B3.wbErrO, down]
  have notClassic : bus.cti ≠ .classic := by
    rw [← cti] at next
    exact ne_classic_of_coming more next
  refine ⟨valid, ?_, ?_, ?_, rfl, rfl⟩
  · simp [B3.edge, ackAfter_eq cyc notClassic, stb, down]
  · simpa [B3.edge, trans, settled_eq_of_no_ack trans noAck, latch] using adr
  · simp [B3.edge, B3.wbB3TransStart, B3.wbB3TransStop, trans, noAck, noErr]

/-- An idle ack register stays down while nothing is presented. -/
theorem wbAckOR_edge_of_quiet (down : s.wbAckOR = false) (low : bus.stb = false) :
    (s.edge false bus).wbAckOR = false := by
  cases cyc : bus.cyc with
  | false => exact wbAckOR_edge_of_dropped cyc
  | true => cases cti : bus.cti <;> simp [B3.edge, B3.ackAfter, cyc, low, down, cti]

/-! ## One cycle -/

/-- **A cycle that meets the condition keeps what the registers hold.** -/
theorem Keeps.cycle (wide : 4 ≤ m) {x : B3 m × Turn aw} (keeps : Keeps x)
    (drives : Drives x bus) (fits : Fits x bus) : Keeps (RamWb.cycle x bus) := by
  obtain ⟨s, turn⟩ := x
  obtain ⟨latch, holds⟩ := keeps
  obtain ⟨allows, inRange⟩ := drives
  refine ⟨burstAdrCounter_edge, ?_⟩
  change RamHolds (s.edge false bus) (turn.next bus (s.wbAckO bus) (s.wbErrO bus))
  cases cyc : bus.cyc with
  | false => simpa [RamHolds, Turn.next, cyc] using wbAckOR_edge_of_dropped cyc
  | true =>
      have allowed := allows cyc
      cases turn with
      | free =>
          cases stb : bus.stb with
          | false => simpa [RamHolds, Turn.next, cyc, stb] using wbAckOR_edge_of_quiet holds stb
          | true =>
              have valid : bus.valid = true := by simp [Pins.valid, cyc, stb]
              have down : s.wbAckOR = false := holds
              have started := holds_of_begin valid down latch fun trans =>
                fits trans (Or.inl ⟨rfl, valid⟩)
              simpa [Turn.next, Turn.expected, cyc, stb, B3.wbAckO, B3.wbErrO, down] using started
      | held beat expected =>
          obtain rfl : bus = beat := allowed
          cases expected with
          | none =>
              obtain ⟨valid, up, -, goesOn, registers⟩ := holds
              exact holds_of_answer wide valid (inRange valid) up latch
                fun more => ⟨goesOn more, registers (goesOn more)⟩
          | some word =>
              obtain ⟨valid, up, -, trans, registers⟩ := holds
              exact holds_of_answer wide valid (inRange valid) up latch
                fun _ => ⟨trans, registers⟩
      | inBurst beat =>
          obtain ⟨bte, coming⟩ := allowed
          obtain ⟨more, up, trans, counter, adr, ctiR, bteR⟩ := holds
          cases stb : bus.stb with
          | false =>
              have waits := serves_of_wait trans counter adr more ⟨cyc, bte, by simp [stb]⟩ coming
                stb
              simpa [RamHolds, Turn.next, cyc, stb] using waits
          | true =>
              have valid : bus.valid = true := by simp [Pins.valid, cyc, stb]
              refine holds_of_answer wide valid (inRange valid) up latch fun goesOn => ?_
              rcases coming with same | last
              · exact ⟨trans, ctiR.trans same.symm, bteR.trans bte.symm⟩
              · rw [last] at goesOn
                cases goesOn
      | waiting beat coming =>
          obtain ⟨bte, cti⟩ := allowed
          have serves : Serves s (.waiting beat coming) := holds
          have resumed (valid : bus.valid = true) := holds_of_resume serves valid cti
          obtain ⟨more, next, down, trans, counter, adr, -, -⟩ := serves
          cases stb : bus.stb with
          | false =>
              have waits := serves_of_wait trans counter adr more ⟨cyc, bte, by simp [stb]⟩
                (cti ▸ next) stb
              simpa [RamHolds, Turn.next, cyc, stb, cti] using waits
          | true =>
              have valid : bus.valid = true := by simp [Pins.valid, cyc, stb]
              simpa [Turn.next, Turn.expected, cyc, stb, B3.wbAckO, B3.wbErrO, down] using
                resumed valid
      | failed => exact absurd allowed id

/-! ## What the master sees -/

/-- An answer at the address in the register is an ack with its data. -/
theorem ack_of_own (up : s.wbAckOR = true) (stb : bus.stb = true) (own : s.adr = wordOf m bus.adr) :
    s.wbAckO bus = true ∧ s.wbErrO bus = false ∧ s.wbDatO = s.mem (wordOf m bus.adr) := by
  obtain ⟨ack, err⟩ := answered up stb
  have right : s.burstAccessWrongWbAdr bus = false := by simp [B3.burstAccessWrongWbAdr, own]
  exact ⟨by rw [ack, right]; rfl, err.trans right, by rw [B3.wbDatO, own]⟩

/-- **What the registers hold gives the master what it is promised.** -/
theorem Keeps.promised {x : B3 m × Turn aw} (keeps : Keeps x) (drives : Drives x bus)
    (fits : Fits x bus) : Promised x bus := by
  obtain ⟨s, turn⟩ := x
  obtain ⟨-, holds⟩ := keeps
  obtain ⟨allows, inRange⟩ := drives
  constructor
  case fresh =>
      rintro rfl
      have down : s.wbAckOR = false := holds
      simp [B3.wbAckO, B3.wbErrO, down]
  case served =>
      intro due valid right
      obtain ⟨cyc, stb⟩ : bus.cyc = true ∧ bus.stb = true := by simpa [Pins.valid] using valid
      have allowed := allows cyc
      cases turn with
      | free => cases due
      | held beat expected =>
          obtain rfl : bus = beat := allowed
          cases expected with
          | none => exact ack_of_own holds.2.1 stb holds.2.2.1
          | some word =>
              exact ack_of_own holds.2.1 stb
                (adr_eq_of_word (inRange valid) (right word rfl) holds.2.2.1)
      | inBurst beat =>
          obtain ⟨-, up, -, -, adr, -⟩ := holds
          exact ack_of_own up stb (adr_eq_of_word (inRange valid) (right _ rfl) adr)
      | waiting beat coming => cases due
      | failed => cases due
  case wrong =>
      intro err
      obtain ⟨⟨up, stb⟩, trans, elsewhere⟩ :
          (s.wbAckOR = true ∧ bus.stb = true) ∧ s.wbB3Trans = true ∧
            s.adr ≠ wordOf m bus.adr := by
        simpa [B3.wbErrO, B3.burstAccessWrongWbAdr] using err
      have cyc : bus.cyc = true := by
        by_contra low
        exact elsewhere (fits trans (Or.inr ⟨by simpa using low, stb, up⟩))
      have valid : bus.valid = true := by simp [Pins.valid, cyc, stb]
      have differs {word : Nat} (adr : s.adr.toNat = word % 2 ^ m) : bus.word ≠ word :=
        fun same => elsewhere (adr_eq_of_word (inRange valid) same adr)
      have allowed := allows cyc
      refine ⟨cyc, ?_⟩
      cases turn with
      | free =>
          have down : s.wbAckOR = false := holds
          rw [down] at up
          cases up
      | held beat expected =>
          obtain rfl : bus = beat := allowed
          cases expected with
          | none => exact absurd holds.2.2.1 elsewhere
          | some word => exact ⟨word, rfl, differs holds.2.2.1⟩
      | inBurst beat => exact ⟨nextWord beat, rfl, differs holds.2.2.2.2.1⟩
      | waiting beat coming =>
          have down : s.wbAckOR = false := holds.2.2.1
          rw [down] at up
          cases up
      | failed => exact absurd allowed id

/-- An access at another word meets the left-over flag, and ends in an error. -/
theorem wbErrO_of_stale (latch : s.wbB3Trans = true → s.burstAdrCounter = s.adr)
    (down : s.wbAckOR = false) (trans : s.wbB3Trans = true) (valid : bus.valid = true)
    (elsewhere : s.adr ≠ wordOf m bus.adr) : (s.edge false bus).wbErrO bus = true := by
  obtain ⟨cyc, stb⟩ : bus.cyc = true ∧ bus.stb = true := by simpa [Pins.valid] using valid
  have noAck : s.wbAckO bus = false := by simp [B3.wbAckO, down]
  have noErr : s.wbErrO bus = false := by simp [B3.wbErrO, down]
  have up : (s.edge false bus).wbAckOR = true := by
    cases cti : bus.cti <;> simp [B3.edge, B3.ackAfter, cyc, stb, down, cti]
  have still : (s.edge false bus).wbB3Trans = true := by
    simp [B3.edge, B3.wbB3TransStart, B3.wbB3TransStop, trans, noAck, noErr]
  have waits : (s.edge false bus).adr = s.adr := by
    simp [B3.edge, trans, settled_eq_of_no_ack trans noAck, latch trans]
  simp [(answered up stb).2, B3.burstAccessWrongWbAdr, still, waits, elsewhere]

/-! ## Every run -/

/-- **In every run in which no access meets a left-over `wb_b3_trans` at another word, every
access is served as after a reset, and only a wrong address in a burst is an error.** -/
theorem serves_of_fits (wide : 4 ≤ m) (before : B3 m) (atReset : Bus aw) (run : List (Bus aw))
    (drives : Trace.Always cycle Drives (before.edge true atReset, .free) run)
    (fits : Trace.Always cycle Fits (before.edge true atReset, .free) run) :
    Trace.Always cycle Promised (before.edge true atReset, .free) run := by
  refine Trace.Always.of_invariant Keeps ?_ ?_ ?_ (drives.and fits)
  · rintro x bus keeps ⟨drives, fits⟩
    exact keeps.cycle wide drives fits
  · rintro x bus keeps ⟨drives, fits⟩
    exact keeps.promised drives fits
  · exact ⟨fun trans => (nomatch trans), rfl⟩

/-- The RAM of the default size after a reset. -/
def cleared : B3 13 := (⟨5, true, 9, .wrap8, .endBurst, true, fun _ => 7⟩ : B3 13).edge true
  (Pins.idle : Bus 32)

/-- A read of the word at this address. -/
def readAt (adr : BitVec 32) (cti : Cti) : Bus 32 :=
  ⟨adr, 0, 0b1111, false, true, true, cti, .linear⟩

/-- The first beat of a burst, and the end of `cyc`. -/
def brokenOff : List (Bus 32) := [readAt 0x100 .incBurst, readAt 0x100 .incBurst, Pins.idle]

theorem serves_of_fits_same_word :
    Trace.Always cycle Promised (cleared, .free)
      (brokenOff ++ [readAt 0x104 .endBurst, readAt 0x104 .endBurst, readAt 0x200 .classic]) :=
  serves_of_fits (by decide) _ _ _ (by decide) (by decide)

/-- A read that begins after a burst was broken off ends in an error. -/
theorem aborted_burst_errs :
    ¬ ∀ (before : B3 13) (atReset : Bus 32) (run : List (Bus 32)),
      Trace.Always cycle Drives (before.edge true atReset, .free) run →
        Trace.Always cycle Promised (before.edge true atReset, .free) run := by
  intro claim
  have promised := claim ⟨5, true, 9, .wrap8, .endBurst, true, fun _ => 7⟩ Pins.idle
    (brokenOff ++ [readAt 0x200 .classic] ++ [readAt 0x200 .classic]) (by decide)
  obtain ⟨-, word, expected, -⟩ := promised.last.wrong (by decide)
  cases expected

end OrpsocCores.RamWb
