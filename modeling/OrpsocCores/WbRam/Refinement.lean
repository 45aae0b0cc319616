import OrpsocCores.WbRam.Model

/-!
# The on-chip RAM is a byte store

A journal beside the RAM keeps a store of bytes that only acknowledged write beats
change.  `Refines` says what the store's user may rely on in a cycle: an
acknowledged read shows the bytes of the store, the memory holds exactly the
store's bytes, a beat that is kept is acknowledged in its second cycle, and the
ack of an access's last beat is not repeated.

The RAM runs one beat ahead of the master, so the invariant (`Ahead`) speaks of
the beat that the last cycle announced: when `wb_ack_o` is up, `adr_r` is the
address of that beat and `wb_dat_o` its word, unless the last cycle wrote.
-/

set_option autoImplicit false

namespace OrpsocCores.WbRam

open Wishbone

variable {n : Nat}

/-! ## The journal and the master -/

/-- What the last cycle showed and whether it was acknowledged, and the bytes the
acknowledged writes have left. -/
structure Journal (n : Nat) where
  last : Option (Bus n × Bool)
  store : ByteStore (BitVec n)

def Journal.record (s : State n) (c : Inputs n) (j : Journal n) : Journal n where
  last := some (c.bus, s.acks c.bus)
  store :=
    if s.acks c.bus && c.bus.we then j.store.write (wordOf c.bus.adr) c.bus.sel c.bus.dat
    else j.store

/-- What a master may show after a cycle that presented `last`: the same request
until it is acknowledged, then the beat the burst prescribes.  In place of either it
may present nothing, and after that anything. -/
def MayFollow (last : Bus n) (acked : Bool) (bus : Bus n) : Prop :=
  last.valid = true → bus.valid = true →
    if acked then last.cti.isLast = true ∨ last.Continues bus else bus = last

instance (last : Bus n) (acked : Bool) (bus : Bus n) : Decidable (MayFollow last acked bus) :=
  inferInstanceAs (Decidable (_ → _ → _))

def Master (x : State n × Journal n) (c : Inputs n) : Prop :=
  c.wbRstI = false ∧ ∀ l ∈ x.2.last, MayFollow l.1 l.2 c.bus

instance (x : State n × Journal n) (c : Inputs n) : Decidable (Master x c) :=
  inferInstanceAs (Decidable (_ ∧ _))

/-- What the user of the store may rely on in a cycle. -/
structure Refines (x : State n × Journal n) (c : Inputs n) : Prop where
  /-- An acknowledged read shows the bytes of the store. -/
  read : x.1.acks c.bus = true → c.bus.we = false →
    ∀ b, lane x.1.wbDatO b = x.2.store (wordOf c.bus.adr) b
  /-- The memory holds the bytes of the store. -/
  memory : ByteStore.Represents x.1.mem x.2.store
  /-- Only an acknowledged write changes the memory. -/
  frame : (x.1.acks c.bus && c.bus.we) = false → (x.1.step c).mem = x.1.mem
  /-- A beat that is kept is acknowledged in its second cycle. -/
  prompt : ∀ l ∈ x.2.last, l.1.valid = true → l.2 = false → c.bus.valid = true →
    x.1.acks c.bus = true
  /-- After the last beat of an access the ack is taken back. -/
  once : ∀ l ∈ x.2.last, l.2 = true → l.1.cti.isLast = true → x.1.wbAckO = false

/-! ## One beat ahead -/

/-- What the registers hold after a cycle that showed `bus`. -/
structure After (s : State n) (bus : Bus n) (acked : Bool) : Prop where
  presented : acked = true → bus.valid = true
  validR : s.validR = bus.valid
  isLastR : s.isLastR = bus.cti.isLast
  wbAckO : s.wbAckO = (bus.valid && (!bus.cti.isLast || !acked))
  adrR : s.wbAckO = true →
    s.adrR.toNat / 4 =
      if acked then bus.cti.nextWord bus.bte bus.word % 2 ^ n else bus.word
  wbDatO : s.wbAckO = true → (acked = true → bus.we = false) → s.wbDatO = s.mem (wordOf s.adrR)

/-- The memory holds the store, and the registers are one beat ahead of the last
cycle. -/
structure Ahead (s : State n) (j : Journal n) : Prop where
  memory : ByteStore.Represents s.mem j.store
  start : j.last = none → s.wbAckO = false ∧ s.validR = false
  after : ∀ l, j.last = some l → After s l.1 l.2

variable {s : State n} {j : Journal n} {c : Inputs n}

/-- Without an ack a presented beat starts a new access. -/
theorem Ahead.newCycle (ahead : Ahead s j) (valid : c.bus.valid = true) (waits : s.wbAckO = false) :
    s.newCycle c.bus = true := by
  cases last : j.last with
  | none =>
      obtain ⟨-, fresh⟩ := ahead.start last
      simp [State.newCycle, valid, fresh]
  | some l =>
      have after := ahead.after l last
      have low := after.wbAckO
      rw [waits] at low
      rw [State.newCycle, after.validR, after.isLastR]
      revert low
      cases l.1.valid <;> cases l.1.cti.isLast <;> simp [valid]

/-- An acknowledged beat finds its address in `adr_r`. -/
theorem Ahead.adrR_eq (ahead : Ahead s j) (master : Master (s, j) c) (acks : s.acks c.bus = true) :
    wordOf s.adrR = wordOf c.bus.adr := by
  simp only [State.acks, Bool.and_eq_true] at acks
  obtain ⟨valid, up⟩ := acks
  apply BitVec.eq_of_toNat_eq
  rw [toNat_wordOf, toNat_wordOf]
  cases last : j.last with
  | none =>
      rw [(ahead.start last).1] at up
      cases up
  | some l =>
      have after := ahead.after l last
      have address := after.adrR up
      have follows := master.2 l last
      have formula := after.wbAckO
      rw [up, eq_comm, Bool.and_eq_true] at formula
      have beat := follows formula.1 valid
      cases acked : l.2 with
      | false =>
          simp only [acked, Bool.false_eq_true, if_false] at beat address
          rw [address, beat]
          rfl
      | true =>
          simp only [acked, Bool.not_true, Bool.or_false, Bool.not_eq_true'] at formula
          simp only [acked, if_true, formula.2, Bool.false_eq_true, false_or] at beat address
          rw [address]
          exact beat.2.2.2.symm

/-- The RAM is written exactly when a write is acknowledged. -/
theorem ramWe_eq (s : State n) (bus : Bus n) : s.ramWe bus = (s.acks bus && bus.we) := by
  rw [State.ramWe, State.acks, Bool.and_assoc, Bool.and_comm]

theorem mem_step_of_not_write (idle : (s.acks c.bus && c.bus.we) = false) :
    (s.step c).mem = s.mem := by
  simp [State.step, State.memAfter, ramWe_eq, idle]

/-- The memory after a cycle is the store after it. -/
theorem Ahead.memory_step (ahead : Ahead s j) (master : Master (s, j) c) :
    ByteStore.Represents (s.step c).mem (Journal.record s c j).store := by
  simp only [State.step, State.memAfter, Journal.record, ramWe_eq]
  split
  · rename_i writes
    simp only [Bool.and_eq_true] at writes
    rw [ahead.adrR_eq master writes.1]
    exact ahead.memory.update _ _ _
  · exact ahead.memory

/-- The ack after a cycle. -/
theorem wbAckO_step (running : c.wbRstI = false) :
    (s.step c).wbAckO = (c.bus.valid && (!c.bus.cti.isLast || !s.acks c.bus)) := by
  have last : (c.bus.cti == .classic || c.bus.cti == .endBurst) = c.bus.cti.isLast := by
    cases c.bus.cti <;> rfl
  simp only [State.step, State.acks, running, last]
  cases c.bus.valid <;> simp

/-- The read address that a cycle announces for the next ack. -/
theorem Ahead.adr_eq (integer : n + 2 ≤ 32) (ahead : Ahead s j) (master : Master (s, j) c)
    (announces : (c.bus.valid && (!c.bus.cti.isLast || !s.acks c.bus)) = true) :
    (s.adr c.bus).toNat / 4 =
      if s.acks c.bus then c.bus.cti.nextWord c.bus.bte c.bus.word % 2 ^ n else c.bus.word := by
  simp only [Bool.and_eq_true, Bool.or_eq_true, Bool.not_eq_true'] at announces
  obtain ⟨valid, goesOn⟩ := announces
  cases acks : s.acks c.bus with
  | false =>
      have waits : s.wbAckO = false := by simpa [State.acks, valid] using acks
      simp [State.adr, ahead.newCycle valid waits, Pins.word]
  | true =>
      -- The burst goes on, so this is no new access.
      have address := congrArg BitVec.toNat (ahead.adrR_eq master acks)
      rw [toNat_wordOf, toNat_wordOf] at address
      have more : c.bus.cti.isLast = false := by simpa [acks] using goesOn
      have up : s.wbAckO = true := by simpa [State.acks, valid] using acks
      have old : s.newCycle c.bus = false := by
        cases last : j.last with
        | none =>
            rw [(ahead.start last).1] at up
            cases up
        | some l =>
            have after := ahead.after l last
            have formula := after.wbAckO
            rw [up, eq_comm, Bool.and_eq_true] at formula
            have beat := master.2 l last formula.1 valid
            rw [State.newCycle, after.validR, after.isLastR, formula.1]
            cases acked : l.2 with
            | false =>
                simp only [acked, Bool.false_eq_true, if_false] at beat
                simp [← beat, more]
            | true => simpa [acked] using formula.2
      simp only [State.adr, old, Bool.false_eq_true, if_false, if_true, toNat_nextAdr integer, address]
      rfl

/-- **One cycle keeps the RAM one beat ahead.** -/
theorem Ahead.step (integer : n + 2 ≤ 32) (ahead : Ahead s j) (master : Master (s, j) c) :
    Ahead (s.step c) (Journal.record s c j) where
  memory := ahead.memory_step master
  start := fun none => by cases none
  after := by
    intro l recorded
    obtain rfl := Option.some.inj recorded
    have running := master.1
    have formula := wbAckO_step (s := s) running
    have adrR : (s.step c).adrR = s.adr c.bus := by simp [State.step, running]
    refine ⟨?_, by simp [State.step, running], by simp [State.step], formula, ?_, ?_⟩
    · intro acks
      simp only [State.acks, Bool.and_eq_true] at acks
      exact acks.1
    · intro up
      rw [adrR]
      exact ahead.adr_eq integer master (formula ▸ up)
    · intro _ reads
      rw [mem_step_of_not_write, adrR]
      · rfl
      · cases acks : s.acks c.bus with
        | false => rfl
        | true => exact reads acks

theorem Settled.ahead (settled : Settled s) : Ahead s ⟨none, ByteStore.ofWords s.mem⟩ where
  memory := ByteStore.represents_ofWords s.mem
  start := fun _ => ⟨settled.wbAckO, settled.validR⟩
  after := fun l none => by cases none

/-- What being one beat ahead gives in a cycle. -/
theorem Ahead.refines (ahead : Ahead s j) (master : Master (s, j) c) : Refines (s, j) c where
  read := by
    intro acks reads b
    have up : s.wbAckO = true := by
      simp only [State.acks, Bool.and_eq_true] at acks
      exact acks.2
    rw [← ahead.adrR_eq master acks, ← ahead.memory]
    cases last : j.last with
    | none =>
        rw [(ahead.start last).1] at up
        cases up
    | some l =>
        have after := ahead.after l last
        have formula := after.wbAckO
        rw [up, eq_comm, Bool.and_eq_true] at formula
        simp only [State.acks, Bool.and_eq_true] at acks
        have beat := master.2 l last formula.1 acks.1
        show lane s.wbDatO b = lane (s.mem (wordOf s.adrR)) b
        rw [after.wbDatO up]
        intro acked
        simp only [acked, Bool.not_true, Bool.or_false, Bool.not_eq_true'] at formula
        simp only [acked, if_true, formula.2, Bool.false_eq_true, false_or] at beat
        rw [← beat.1, reads]
  memory := ahead.memory
  frame := mem_step_of_not_write
  prompt := by
    intro l last presented waited valid
    have formula := (ahead.after l last).wbAckO
    simp only [presented, waited, Bool.not_false, Bool.or_true, Bool.and_true] at formula
    show (c.bus.valid && s.wbAckO) = true
    rw [valid, formula]
    rfl
  once := by
    intro l last acked final
    have formula := (ahead.after l last).wbAckO
    simpa [acked, final] using formula

/-! ## Every run -/

/-- **The RAM refines a store of bytes**: in every cycle of every run of a master
that keeps to the protocol, from any memory contents. -/
theorem refines_byteStore (integer : n + 2 ≤ 32) (settled : Settled s)
    (cycles : List (Inputs n))
    (permitted : Trace.Always (Trace.monitored State.step Journal.record) Master
      (s, ⟨none, ByteStore.ofWords s.mem⟩) cycles) :
    Trace.Always (Trace.monitored State.step Journal.record) Refines
      (s, ⟨none, ByteStore.ofWords s.mem⟩) cycles :=
  Trace.Always.of_invariant (fun x : State n × Journal n => Ahead x.1 x.2)
    (fun _ _ ahead master => ahead.step integer master)
    (fun _ _ ahead master => ahead.refines master) settled.ahead permitted

/-- A RAM of sixteen bytes after reset. -/
def smallRam : State 2 := ⟨0, false, true, false, fun _ => 0, 0⟩

def beat (adr : BitVec 4) (dat : BitVec 32) (we : Bool) (cti : Cti) : Inputs 2 :=
  ⟨false, ⟨adr, dat, 0b0110, we, true, true, cti, .wrap4⟩⟩

/-- A write burst that wraps from the last word to the first, with a wait before its
last beat, and a read of the word it started at. -/
def wrapRun : List (Inputs 2) :=
  [beat 12 0x11223344 true .incBurst, beat 12 0x11223344 true .incBurst, ⟨false, Pins.idle⟩,
    beat 0 0x55667788 true .endBurst, beat 0 0x55667788 true .endBurst,
    beat 12 0 false .classic, beat 12 0 false .classic]

theorem refines_byteStore_wrapRun :
    Trace.Always (Trace.monitored State.step Journal.record) Master
        (smallRam, ⟨none, ByteStore.ofWords smallRam.mem⟩) wrapRun ∧
      Trace.Always (Trace.monitored State.step Journal.record) Refines
        (smallRam, ⟨none, ByteStore.ofWords smallRam.mem⟩) wrapRun := by
  have permitted : Trace.Always (Trace.monitored State.step Journal.record) Master
      (smallRam, ⟨none, ByteStore.ofWords smallRam.mem⟩) wrapRun := by
    decide
  exact ⟨permitted, refines_byteStore (by decide) ⟨rfl, rfl⟩ wrapRun permitted⟩

/-- The read shows the two bytes the burst selected. -/
example : (Trace.after State.step smallRam (wrapRun.take 6)).wbDatO = 0x00223300 := by decide

end OrpsocCores.WbRam
