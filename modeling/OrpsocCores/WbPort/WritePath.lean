import OrpsocCores.WbPort.Model

/-!
# The write path of a port

A write beat is acknowledged in the cycle it is pushed into `wrfifo`.  The push is
armed one cycle earlier by `wb_write_ack` and samples the live bus, so the path is
right only when the bus still shows the beat the push was armed for.

The path is stated on the Wishbone side alone, against every pattern of `full` and
of what the SDRAM side returns.  A journal beside the machine keeps the write beats
the master has presented and the words that have been pushed.  Two situations leave
the push armed when the beat it was armed for is gone: `IDLE` accepts a write while
`read_done_wb` is still up and accepts the same beat again (`AcceptsOnce` excludes
it), and a burst's next beat is late (`Prompt` excludes it).  Without them every beat
is pushed exactly once (`pushed_exactly_once`); with a late beat a word is pushed
that nobody presented (`late_beat_pushes_phantom`).
-/

set_option autoImplicit false

namespace OrpsocCores.WbPort

open Wishbone

variable {bw : Nat}

/-! ## Cycles and the journal -/

/-- One cycle of `wb_clk`: the pins, and what is sampled of the FIFO and of the
SDRAM side. -/
structure Cycle (bw : Nat) where
  pins : WbPins
  full : Bool
  readDone : Bool
  bufClean : BitVec (2 ^ bw)

def Cycle.bus (c : Cycle bw) : Bus := c.pins.bus

def WbSide.cycle (s : WbSide bw) (c : Cycle bw) : WbSide bw :=
  s.edge c.pins c.full c.readDone c.bufClean

/-- What the cycles so far have shown. -/
structure Journal where
  /-- The request of the last cycle, when it was not acknowledged. -/
  held : Option Bus
  /-- The last cycle acknowledged a beat of a burst that goes on; whether of writes. -/
  burst : Option Bool
  /-- The write beats, each once, in the order in which they were first presented. -/
  beats : List (BitVec 72)
  /-- The words pushed into `wrfifo`. -/
  pushed : List (BitVec 72)
  /-- For how many cycles a write has been presented with nothing in its way. -/
  waited : Nat

def Journal.empty : Journal := ⟨none, none, [], [], 0⟩

/-- The FIFO has room, no line is being fetched and the buffer is complete. -/
def WbSide.unhindered (s : WbSide bw) (c : Cycle bw) : Bool :=
  !c.full && s.wbState != .refill && s.bufCleanWb == BitVec.allOnes _

def Journal.record (s : WbSide bw) (c : Cycle bw) (j : Journal) : Journal where
  held := if c.bus.valid && !s.wbAckO c.full then some c.bus else none
  burst :=
    if c.bus.valid && s.wbAckO c.full && !c.bus.cti.isLast then some c.bus.we else none
  beats := if c.bus.writes && j.held.isNone then j.beats ++ [fifoWord c.bus] else j.beats
  pushed := if s.wrfifoWrreq c.full then j.pushed ++ [fifoWord c.bus] else j.pushed
  waited :=
    if c.bus.writes && !s.wrfifoWrreq c.full && s.unhindered c then j.waited + 1 else 0

/-- The word of the write beat that is presented and not yet acknowledged. -/
def Journal.outstanding (j : Journal) : List (BitVec 72) :=
  (j.held.toList.filter Pins.we).map fifoWord

/-! ## The master -/

/-- A request is held until it is acknowledged, and a burst does not turn from
reads to writes from one cycle to the next. -/
def Master (x : WbSide bw × Journal) (c : Cycle bw) : Prop :=
  c.pins.wbRst = false ∧ (∀ bus ∈ x.2.held, c.bus = bus) ∧
    ∀ we ∈ x.2.burst, c.bus.valid = true → c.bus.we = we

instance (x : WbSide bw × Journal) (c : Cycle bw) : Decidable (Master x c) :=
  inferInstanceAs (Decidable (_ ∧ _ ∧ _))

/-- `IDLE` does not arm a push while `read_done_wb` keeps it from leaving. -/
def AcceptsOnce (s : WbSide bw) (c : Cycle bw) : Prop :=
  s.wbState = .idle → c.bus.writes = true → s.acceptsWrite c.bus = true →
    s.readDoneWb = true → c.full = true

/-- The next beat of a write burst follows at once, or the FIFO is full. -/
def Prompt (j : Journal) (c : Cycle bw) : Prop :=
  j.burst = some true → c.bus.writes = true ∨ c.full = true

instance (s : WbSide bw) (c : Cycle bw) : Decidable (AcceptsOnce s c) :=
  inferInstanceAs (Decidable (_ → _ → _ → _ → _))

instance (j : Journal) (c : Cycle bw) : Decidable (Prompt j c) :=
  inferInstanceAs (Decidable (_ → _))

/-- After this cycle every write beat has been pushed once, in order, except the
one that is still presented; nothing is pushed that is not presented, and a beat
with nothing in its way is pushed in its third cycle at the latest. -/
def Exact (x : WbSide bw × Journal) (c : Cycle bw) : Prop :=
  let j := Journal.record x.1 c x.2
  j.beats = j.pushed ++ j.outstanding ∧
    (x.1.wrfifoWrreq c.full = true → c.bus.writes = true) ∧ j.waited ≤ 2

instance (x : WbSide bw × Journal) (c : Cycle bw) : Decidable (Exact x c) :=
  inferInstanceAs (Decidable (_ ∧ _ ∧ _))

/-! ## What is armed in which state -/

/-- What the registers promise about the next cycle, state by state. -/
def Armed (s : WbSide bw) (j : Journal) : Prop :=
  match s.wbState with
  | .idle => s.wbReadAck = false ∧ s.wbWriteAck = false ∧ j.waited ≤ 1
  | .read | .readDone =>
      s.wbReadAck = true ∧ s.wbWriteAck = false ∧ j.waited = 0 ∧
        ((∃ bus, j.held = some bus ∧ bus.we = false) ∨ j.burst = some false)
  | .write =>
      s.wbReadAck = false ∧ j.waited ≤ 2 ∧ (s.wbWriteAck = false → j.waited = 0) ∧
        (s.wbWriteAck = true →
          (∃ bus, j.held = some bus ∧ bus.we = true) ∨ j.burst = some true)
  | .writeLast => s.wbReadAck = false ∧ s.wbWriteAck = false ∧ j.waited = 0
  | .refill => s.wbReadAck = false ∧ s.wbWriteAck = false ∧ j.waited = 0
  | .waitLatency => False

/-- The journal is complete and the registers keep their promise. -/
structure Complete (s : WbSide bw) (j : Journal) : Prop where
  beats : j.beats = j.pushed ++ j.outstanding
  held : ∀ bus, j.held = some bus → bus.valid = true
  armed : Armed s j

variable {s : WbSide bw} {j : Journal} {c : Cycle bw}

/-- An armed push finds a write on the bus. -/
theorem Complete.writes_of_push (complete : Complete s j) (master : Master (s, j) c)
    (prompt : Prompt j c) (push : s.wrfifoWrreq c.full = true) : c.bus.writes = true := by
  have armed := complete.armed
  have held := complete.held
  obtain ⟨-, same, -⟩ := master
  simp only [WbSide.wrfifoWrreq, Bool.and_eq_true, Bool.not_eq_true'] at push
  simp only [Armed] at armed
  cases state : s.wbState <;> simp only [state] at armed <;>
    simp only [Prompt, Pins.writes, Pins.valid, Option.mem_def] at * <;> grind

/-- An acknowledgement of a read does not meet a write. -/
theorem Complete.push_of_ack (complete : Complete s j) (master : Master (s, j) c)
    (writes : c.bus.writes = true) (ack : s.wbAckO c.full = true) :
    s.wrfifoWrreq c.full = true := by
  have armed := complete.armed
  obtain ⟨-, same, kind⟩ := master
  simp only [Armed] at armed
  cases state : s.wbState <;> simp only [state] at armed <;>
    simp only [WbSide.wbAckO, WbSide.wrfifoWrreq, Pins.writes, Pins.valid, Option.mem_def] at * <;>
    grind

/-- The journal's lists after a cycle. -/
theorem Complete.beats_record (complete : Complete s j) (master : Master (s, j) c)
    (prompt : Prompt j c) :
    (Journal.record s c j).beats =
      (Journal.record s c j).pushed ++ (Journal.record s c j).outstanding := by
  have before := complete.beats
  have pushWrites := complete.writes_of_push master prompt
  have ackPush := complete.push_of_ack master
  have valid := complete.held
  obtain ⟨-, same, -⟩ := master
  have acks : s.wrfifoWrreq c.full = true → s.wbAckO c.full = true := by
    intro push
    simp [WbSide.wbAckO, push]
  have kinds : c.bus.writes = (c.bus.valid && c.bus.we) := rfl
  simp only [Journal.outstanding, Journal.record] at before ⊢
  cases held : j.held with
  | none =>
      simp only [held, Option.toList_none, List.filter_nil, List.map_nil, List.append_nil] at before
      rw [before]
      grind
  | some bus =>
      obtain rfl : c.bus = bus := same bus held
      have presented := valid c.bus held
      simp only [held, Option.toList_some, List.filter_cons, List.filter_nil] at before
      rw [before]
      grind

/-- A write with nothing in its way is accepted. -/
theorem WbSide.acceptsWrite_of_unhindered (free : s.unhindered c = true) :
    c.full = false ∧ s.wbState ≠ .refill ∧ s.acceptsWrite c.bus = true := by
  simp only [unhindered, Bool.and_eq_true, Bool.not_eq_true', bne_iff_ne, beq_iff_eq] at free
  obtain ⟨⟨room, state⟩, complete⟩ := free
  refine ⟨room, state, ?_⟩
  have inside : (wordOf bw c.bus.adr).toNat < 2 ^ bw := (wordOf bw c.bus.adr).isLt
  have clean : s.clean c.bus.adr = true := by simp [clean, complete, inside]
  by_cases same : s.bufAdr = lineOf bw c.bus.adr
  · simp [acceptsWrite, bufhit, clean, complete, same]
  · simp [acceptsWrite, same]

/-- Without reset only the machine decides what is armed. -/
theorem armed_cycle (running : c.pins.wbRst = false) :
    Armed (s.cycle c) j ↔ Armed (s.machine c.bus c.full) j := by
  simp only [Armed, WbSide.cycle, WbSide.edge, Cycle.bus, running, Bool.false_eq_true, if_false]

theorem isLast_iff (cti : Cti) : cti.isLast = (cti == .classic || cti == .endBurst) := by
  cases cti <;> rfl

/-- The registers keep their promise. -/
theorem Complete.armed_step (complete : Complete s j) (master : Master (s, j) c)
    (prompt : Prompt j c) (once : AcceptsOnce s c) : Armed (s.cycle c) (Journal.record s c j) := by
  have armed := complete.armed
  have pushWrites := complete.writes_of_push master prompt
  have ackPush := complete.push_of_ack master
  have valid := complete.held
  have accepts := WbSide.acceptsWrite_of_unhindered (s := s) (c := c)
  have last := isLast_iff c.bus.cti
  obtain ⟨running, same, kind⟩ := master
  have kinds : c.bus.writes = (c.bus.valid && c.bus.we) ∧ c.bus.reads = (c.bus.valid && !c.bus.we) :=
    ⟨rfl, rfl⟩
  rw [armed_cycle running]
  simp only [Armed] at armed
  simp only [AcceptsOnce, Option.mem_def] at same kind once
  simp only [WbSide.wbAckO, WbSide.wrfifoWrreq] at pushWrites ackPush
  cases state : s.wbState with
  | idle =>
      simp only [state] at armed
      simp only [WbSide.machine, state, WbSide.idleBranch]
      split
      · split
        · split <;> simp [Armed, Journal.record, WbSide.wbAckO, WbSide.wrfifoWrreq] <;> grind
        · split <;> simp [Armed, Journal.record, WbSide.wbAckO, WbSide.wrfifoWrreq] <;> grind
      · split
        · split <;> simp [Armed, Journal.record, WbSide.wbAckO, WbSide.wrfifoWrreq] <;> grind
        · simp [Armed, Journal.record, WbSide.wbAckO, WbSide.wrfifoWrreq]
          grind
  | read =>
      simp only [state] at armed
      simp only [WbSide.machine, state, WbSide.readBranch]
      split <;> simp [Armed, Journal.record, WbSide.wbAckO, WbSide.wrfifoWrreq] <;> grind
  | readDone =>
      simp only [state] at armed
      simp only [WbSide.machine, state]
      simp [Armed, Journal.record, WbSide.wbAckO, WbSide.wrfifoWrreq]
      grind
  | write =>
      simp only [state] at armed
      simp only [WbSide.machine, state, WbSide.writeBranch]
      simp [Armed, Journal.record, WbSide.wbAckO, WbSide.wrfifoWrreq]
      grind
  | writeLast =>
      simp only [state] at armed
      simp only [WbSide.machine, state]
      simp [Armed, Journal.record, WbSide.wbAckO, WbSide.wrfifoWrreq]
      grind
  | refill =>
      simp only [state] at armed
      simp only [WbSide.machine, state, WbSide.refillBranch]
      split <;> simp [Armed, Journal.record, WbSide.wbAckO, WbSide.wrfifoWrreq] <;> grind
  | waitLatency => simp only [state] at armed

/-- **One cycle keeps the journal complete.** -/
theorem Complete.step (complete : Complete s j) (master : Master (s, j) c) (prompt : Prompt j c)
    (once : AcceptsOnce s c) : Complete (s.cycle c) (Journal.record s c j) where
  beats := complete.beats_record master prompt
  held := by
    intro bus held
    simp only [Journal.record] at held
    split at held
    · rename_i presented
      obtain rfl := Option.some.inj held
      simp only [Bool.and_eq_true] at presented
      exact presented.1
    · cases held
  armed := complete.armed_step master prompt once

/-- What the promise leaves of the time a beat has waited. -/
theorem Armed.waited_le (armed : Armed s j) : j.waited ≤ 2 := by
  simp only [Armed] at armed
  cases state : s.wbState <;> simp only [state] at armed <;> omega

theorem Settled.complete {p : Port bw} (settled : Settled p) : Complete p.wb Journal.empty where
  beats := rfl
  held := fun bus held => by cases held
  armed := by simp [Armed, settled.wbState, settled.wbReadAck, settled.wbWriteAck, Journal.empty]

/-! ## Every run -/

/-- **When `IDLE` accepts no write under `read_done_wb` and no beat of a write burst
is late, every write beat is pushed exactly once, in order, and nothing else is
pushed**, in every run and for every pattern of the FIFO's flag. -/
theorem pushed_exactly_once {p : Port bw} (settled : Settled p) (cycles : List (Cycle bw))
    (permitted : Trace.Always (Trace.monitored WbSide.cycle Journal.record)
      (fun x c => Master x c ∧ AcceptsOnce x.1 c ∧ Prompt x.2 c) (p.wb, Journal.empty) cycles) :
    Trace.Always (Trace.monitored WbSide.cycle Journal.record) Exact (p.wb, Journal.empty)
      cycles := by
  refine Trace.Always.of_invariant (fun x : WbSide bw × Journal => Complete x.1 x.2)
    (fun x c complete allowed => complete.step allowed.1 allowed.2.2 allowed.2.1)
    (fun x c complete allowed => ?_) settled.complete permitted
  obtain ⟨master, once, prompt⟩ := allowed
  exact ⟨complete.beats_record master prompt, complete.writes_of_push master prompt,
    (complete.armed_step master prompt once).waited_le⟩

/-! ## A prompt burst and a late one -/

/-- A cycle in which the FIFO has room and no refill is in sight. -/
def quietCycle (bus : Bus) : Cycle 3 where
  pins := ⟨false, bus, 0, 0, 0, false⟩
  full := false
  readDone := false
  bufClean := 0

/-- A beat of a write burst to consecutive words. -/
def burstBeat (adr : BitVec 32) (cti : Cti) : Cycle 3 :=
  quietCycle ⟨adr, 0xdeadbeef, 0xf, true, true, true, cti, .linear⟩

/-- The master waits for a cycle after the first beat of its burst. -/
def lateRun : List (Cycle 3) :=
  [burstBeat 0x100 .incBurst, burstBeat 0x100 .incBurst, quietCycle Pins.idle]

theorem late_beat_pushes_phantom :
    ¬ ∀ cycles : List (Cycle 3),
      Trace.Always (Trace.monitored WbSide.cycle Journal.record) Master
        (afterReset.wb, Journal.empty) cycles →
      Trace.Always (Trace.monitored WbSide.cycle Journal.record) Exact
        (afterReset.wb, Journal.empty) cycles := by
  intro always
  have exact := always lateRun (by decide)
  revert exact
  decide

/-- The same burst without a wait, and with its last beat. -/
def promptRun : List (Cycle 3) :=
  [burstBeat 0x100 .incBurst, burstBeat 0x100 .incBurst, burstBeat 0x104 .endBurst,
    quietCycle Pins.idle]

theorem pushed_exactly_once_promptRun :
    Trace.Always (Trace.monitored WbSide.cycle Journal.record)
        (fun x c => Master x c ∧ AcceptsOnce x.1 c ∧ Prompt x.2 c)
        (afterReset.wb, Journal.empty) promptRun ∧
      Trace.Always (Trace.monitored WbSide.cycle Journal.record) Exact
        (afterReset.wb, Journal.empty) promptRun := by
  have permitted : Trace.Always (Trace.monitored WbSide.cycle Journal.record)
      (fun x c => Master x c ∧ AcceptsOnce x.1 c ∧ Prompt x.2 c)
      (afterReset.wb, Journal.empty) promptRun := by
    decide
  exact ⟨permitted, pushed_exactly_once settled_afterReset promptRun permitted⟩

end OrpsocCores.WbPort
