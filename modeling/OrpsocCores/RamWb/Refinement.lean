import Mathlib.Data.Fintype.Basic
import Mathlib.Tactic.FinCases
import OrpsocCores.RamWb.Serving

/-!
# Three masters share one byte store

The arbitration selects at most one port and keeps it while the port holds `cyc`.
A master finishes its bursts before it drops `cyc`, so the RAM is idle whenever it is
handed over, and each master sees the RAM as if it were alone.

A journal beside the machine keeps the phase of every master and a store of bytes
that only acknowledged writes change.  `refines_sharedStore` says that in every run
of three masters that keep to their protocols every acknowledged read shows the
bytes of that store.
-/

set_option autoImplicit false

namespace OrpsocCores.RamWb

open Wishbone

variable {aw m : Nat}

/-! ## The journal and the masters -/

/-- Where every master is in its access, and the bytes the acknowledged writes have
left. -/
structure Journal (aw m : Nat) where
  phases : Fin 3 → Phase aw
  store : ByteStore (BitVec m)

/-- The store after the writes that are acknowledged in a cycle. -/
def storeAfter (s : State m) (c : Inputs aw) (store : ByteStore (BitVec m)) :
    ByteStore (BitVec m) :=
  (List.finRange 3).foldl (fun store i =>
    if s.wbmAckO c i && (c.bus i).we then
      store.write (wordOf m (c.bus i).adr) (c.bus i).sel (c.bus i).dat
    else store) store

def Journal.record (s : State m) (c : Inputs aw) (j : Journal aw m) : Journal aw m where
  phases := fun i =>
    (j.phases i).next (c.bus i) (s.inputSelect.getLsbD i) (s.wbmAckO c i)
  store := storeAfter s c j.store

/-- Every master keeps to its protocol and to addresses below `size`. -/
def Masters (size : Nat) (x : State m × Journal aw m) (c : Inputs aw) : Prop :=
  c.wbRstI = false ∧ (∀ i, (x.2.phases i).Allows (c.bus i)) ∧
    ∀ i, (c.bus i).valid = true → (c.bus i).adr.toNat < size

instance (size : Nat) (x : State m × Journal aw m) (c : Inputs aw) :
    Decidable (Masters size x c) :=
  inferInstanceAs (Decidable (_ ∧ _ ∧ _))

/-- The select code of a port. -/
def hot (i : Fin 3) : BitVec 3 := 1#3 <<< i.val

/-- What the masters may rely on in a cycle. -/
structure Refines (x : State m × Journal aw m) (c : Inputs aw) : Prop where
  /-- At most one port is selected. -/
  oneHot : x.1.inputSelect = 0 ∨ ∃ i, x.1.inputSelect = hot i
  /-- The selection stays while the selected master holds `cyc`. -/
  stable : ∀ i, x.1.inputSelect = hot i → (c.bus i).cyc = true →
    (x.1.step c).inputSelect = x.1.inputSelect
  /-- An acknowledged read shows the bytes of the store. -/
  read : ∀ i, x.1.wbmAckO c i = true → (c.bus i).we = false →
    ∀ b, lane x.1.wbmDatO b = x.2.store (wordOf m (c.bus i).adr) b
  /-- The memory holds the bytes of the store. -/
  memory : ByteStore.Represents x.1.ram.mem x.2.store
  /-- Only an acknowledged write changes the memory. -/
  frame : (∀ i, (x.1.wbmAckO c i && (c.bus i).we) = false) → (x.1.step c).ram.mem = x.1.ram.mem
  /-- An ack answers a beat that its master presents, and reaches no other master. -/
  own : ∀ i, x.1.wbmAckO c i = true → (c.bus i).valid = true ∧ x.1.inputSelect = hot i
  /-- After its last beat an access is not acknowledged again. -/
  once : ∀ i, x.2.phases i = .free → x.1.wbmAckO c i = false
  /-- A selected master's beat is acknowledged in its second cycle at the latest. -/
  prompt : ∀ i beat, x.2.phases i = .held beat true → x.1.wbmAckO c i = true
  noErr : ∀ i, x.1.wbmErrO c i = false

/-! ## The arbitration -/

theorem getLsbD_hot (i k : Fin 3) : (hot i).getLsbD k = decide (i = k) := by
  revert i k
  decide

theorem hot_ne_zero (i : Fin 3) : hot i ≠ 0#3 := by
  revert i
  decide

variable {s : State m} {c : Inputs aw}

theorem ramBus_of_none (none : s.inputSelect = 0) : s.ramBus c = Pins.idle := by
  simp [State.ramBus, none]

theorem ramBus_of_hot {i : Fin 3} (selected : s.inputSelect = hot i) : s.ramBus c = c.bus i := by
  rw [State.ramBus, selected]
  fin_cases i <;> rfl

theorem wbmAckO_of_none (none : s.inputSelect = 0) (k : Fin 3) : s.wbmAckO c k = false := by
  simp [State.wbmAckO, none]

theorem wbmAckO_of_hot {i : Fin 3} (selected : s.inputSelect = hot i) (k : Fin 3) :
    s.wbmAckO c k = (s.ram.wbAckO (c.bus i) && decide (i = k)) := by
  rw [State.wbmAckO, ramBus_of_hot selected, selected, getLsbD_hot]

/-- A selected port stays selected until it drops `cyc`. -/
theorem inputSelect_of_hot {i : Fin 3} (running : c.wbRstI = false)
    (selected : s.inputSelect = hot i) :
    (s.step c).inputSelect = if (c.bus i).cyc then hot i else 0 := by
  have noPick : s.picks c = none := by
    simp [State.picks, State.arbFor, selected, hot_ne_zero]
  have releases : s.releases c = !(c.bus i).cyc := by
    rw [State.releases, selected]
    fin_cases i <;> simp [hot]
  simp only [State.step, running, noPick, releases, selected, Option.getD_none]
  cases (c.bus i).cyc <;> rfl

/-- From no selection the next one is none or a single port. -/
theorem inputSelect_of_none (running : c.wbRstI = false) (none : s.inputSelect = 0) :
    (s.step c).inputSelect = 0 ∨ ∃ i, (s.step c).inputSelect = hot i := by
  have releases : s.releases c = false := by simp [State.releases, none]
  simp only [State.step, running, releases, Bool.false_eq_true, if_false, none, State.picks]
  split
  · exact Or.inr ⟨0, rfl⟩
  · split
    · exact Or.inr ⟨1, rfl⟩
    · split
      · exact Or.inr ⟨2, rfl⟩
      · exact Or.inl rfl

/-! ## Masters that are not selected -/

/-- Where a master can be while it is not selected. -/
def Outside : Phase aw → Prop
  | .free => True
  | .held beat seen => beat.valid = true ∧ seen = false
  | .inBurst _ => False
  | .waiting _ _ => False

/-- A master that is not selected keeps its request or stays between accesses. -/
theorem Outside.next {phase : Phase aw} {bus : Bus aw} (outside : Outside phase)
    (allows : phase.Allows bus) : Outside (phase.next bus false false) := by
  cases valid : bus.valid with
  | true => simp [Phase.next, valid, Outside]
  | false =>
      cases phase with
      | free => simp [Phase.next, valid, Outside]
      | held beat seen =>
          obtain rfl : bus = beat := allows
          rw [outside.1] at valid
          cases valid
      | inBurst beat => exact outside.elim
      | waiting beat coming => exact outside.elim

/-- An idle RAM can be handed to any master that waits for it. -/
theorem Outside.serves {phase : Phase aw} {ram : B3 m} (outside : Outside phase) (idle : Idle ram) :
    Serves ram phase := by
  cases phase with
  | free => exact idle
  | held beat seen =>
      obtain ⟨valid, rfl⟩ := outside
      exact ⟨valid, idle⟩
  | inBurst beat => exact outside.elim
  | waiting beat coming => exact outside.elim

/-- A served master that drops `cyc` has finished its access. -/
theorem Serves.free_of_dropped {phase : Phase aw} {bus : Bus aw} {ram : B3 m}
    (serves : Serves ram phase) (allows : phase.Allows bus) (dropped : bus.cyc = false) :
    phase = .free := by
  cases phase with
  | free => rfl
  | held beat seen =>
      obtain rfl : bus = beat := allows
      have valid : bus.valid = true := by cases seen <;> exact serves.1
      simp [Pins.valid, dropped] at valid
  | inBurst beat =>
      rw [allows.1.1] at dropped
      cases dropped
  | waiting beat coming =>
      rw [allows.1.1] at dropped
      cases dropped

/-! ## One cycle -/

/-- At most one master is served, and the others wait outside. -/
inductive Ports (s : State m) (phases : Fin 3 → Phase aw) : Prop where
  | none (unselected : s.inputSelect = 0) (idle : Idle s.ram)
      (outside : ∀ i, Outside (phases i)) : Ports s phases
  | one (i : Fin 3) (selected : s.inputSelect = hot i) (serves : Serves s.ram (phases i))
      (outside : ∀ k, k ≠ i → Outside (phases k)) : Ports s phases

/-- The memory holds the store, and the ports are in order. -/
structure Shares (s : State m) (j : Journal aw m) : Prop where
  memory : ByteStore.Represents s.ram.mem j.store
  ports : Ports s j.phases

variable {j : Journal aw m} {size : Nat}

theorem Ports.step (wide : 4 ≤ m) (fits : size ≤ 2 ^ (m + 2)) (ports : Ports s j.phases)
    (masters : Masters size (s, j) c) : Ports (s.step c) (Journal.record s c j).phases := by
  obtain ⟨running, allows, inRange⟩ := masters
  cases ports with
  | none unselected idle outside =>
      have idle' : Idle (s.step c).ram := by
        simp only [State.step, running, ramBus_of_none unselected]
        exact idle.stays rfl
      have outside' : ∀ i, Outside ((Journal.record s c j).phases i) := by
        intro i
        simpa [Journal.record, wbmAckO_of_none unselected, unselected] using
          (outside i).next (allows i)
      rcases inputSelect_of_none running unselected with still | ⟨i, selected⟩
      · exact .none still idle' outside'
      · exact .one i selected ((outside' i).serves idle') fun k _ => outside' k
  | one i selected serves outside =>
      have served : Serves (s.step c).ram ((Journal.record s c j).phases i) := by
        simp only [State.step, Journal.record, running, ramBus_of_hot selected,
          wbmAckO_of_hot selected, selected, getLsbD_hot, decide_true, Bool.and_true]
        exact serves.edge wide (allows i) fun valid => lt_of_lt_of_le (inRange i valid) fits
      have outside' : ∀ k, k ≠ i → Outside ((Journal.record s c j).phases k) := by
        intro k other
        simp only [Journal.record, wbmAckO_of_hot selected, selected, getLsbD_hot, other.symm,
          decide_false, Bool.and_false]
        exact (outside k other).next (allows k)
      have select := inputSelect_of_hot running selected
      cases cyc : (c.bus i).cyc with
      | true =>
          simp only [cyc, if_true] at select
          exact .one i select served outside'
      | false =>
          simp only [cyc, Bool.false_eq_true, if_false] at select
          have free := serves.free_of_dropped (allows i) cyc
          have free' : (Journal.record s c j).phases i = .free := by
            simp [Journal.record, free, Phase.next, Pins.valid, cyc]
          rw [free'] at served
          refine .none select served fun k => ?_
          by_cases same : k = i
          · rw [same, free']
            trivial
          · exact outside' k same

theorem storeAfter_of_none (unselected : s.inputSelect = 0) (store : ByteStore (BitVec m)) :
    storeAfter s c store = store := by
  simp [storeAfter, wbmAckO_of_none unselected]

theorem storeAfter_of_hot {i : Fin 3} (selected : s.inputSelect = hot i)
    (store : ByteStore (BitVec m)) :
    storeAfter s c store =
      if s.ram.wbAckO (c.bus i) && (c.bus i).we then
        store.write (wordOf m (c.bus i).adr) (c.bus i).sel (c.bus i).dat
      else store := by
  simp only [storeAfter, wbmAckO_of_hot selected]
  fin_cases i <;> simp [List.finRange_succ]

theorem Shares.memory_step (fits : size ≤ 2 ^ (m + 2)) (shares : Shares s j)
    (masters : Masters size (s, j) c) :
    ByteStore.Represents (s.step c).ram.mem (Journal.record s c j).store := by
  obtain ⟨-, allows, inRange⟩ := masters
  cases shares.ports with
  | none unselected idle outside =>
      simp only [Journal.record, storeAfter_of_none unselected, State.step, B3.edge,
        ramBus_of_none unselected]
      simpa [Pins.idle] using shares.memory
  | one i selected serves outside =>
      have answer := serves.answer (allows i) fun valid => lt_of_lt_of_le (inRange i valid) fits
      simp only [Journal.record, storeAfter_of_hot selected, State.step, B3.edge,
        ramBus_of_hot selected, Bool.and_comm (c.bus i).we]
      split
      · rename_i writes
        rw [Bool.and_eq_true] at writes
        rw [← (answer.own writes.1).2]
        exact shares.memory.update _ _ _
      · exact shares.memory

/-- **One cycle keeps the ports in order and the memory in step with the store.** -/
theorem Shares.step (wide : 4 ≤ m) (fits : size ≤ 2 ^ (m + 2)) (shares : Shares s j)
    (masters : Masters size (s, j) c) : Shares (s.step c) (Journal.record s c j) :=
  ⟨shares.memory_step fits masters, shares.ports.step wide fits masters⟩

theorem Settled.shares (settled : Settled s) :
    Shares s (⟨fun _ => .free, ByteStore.ofWords s.ram.mem⟩ : Journal aw m) where
  memory := ByteStore.represents_ofWords s.ram.mem
  ports := .none settled.inputSelect ⟨settled.wbB3Trans, settled.wbAckOR⟩ fun _ => trivial

/-! ## What the masters see -/

/-- The memory changes only when the RAM acknowledges a write. -/
theorem mem_edge_of_not_write {ram : B3 m} {bus : Bus aw} {rst : Bool}
    (idle : (ram.wbAckO bus && bus.we) = false) : (ram.edge rst bus).mem = ram.mem := by
  simp [B3.edge, Bool.and_comm bus.we, idle]

theorem Shares.refines (fits : size ≤ 2 ^ (m + 2)) (shares : Shares s j)
    (masters : Masters size (s, j) c) : Refines (s, j) c := by
  obtain ⟨running, allows, inRange⟩ := masters
  cases shares.ports with
  | none unselected idle outside =>
      have noAck := wbmAckO_of_none (c := c) unselected
      constructor
      case oneHot => exact Or.inl unselected
      case stable =>
        intro i selected
        exact absurd (selected.symm.trans unselected) (hot_ne_zero i)
      case read => simp [noAck]
      case memory => exact shares.memory
      case frame =>
        intro _
        simp only [State.step, ramBus_of_none unselected]
        exact mem_edge_of_not_write (by simp [Pins.idle])
      case own => simp [noAck]
      case once => simp [noAck]
      case prompt =>
        intro i beat held
        have := outside i
        simp only [] at held
        rw [held] at this
        cases this.2
      case noErr => simp [State.wbmErrO, unselected]
  | one i selected serves outside =>
      have answer := serves.answer (allows i) fun valid => lt_of_lt_of_le (inRange i valid) fits
      have acks := wbmAckO_of_hot (c := c) selected
      constructor
      case oneHot => exact Or.inr ⟨i, selected⟩
      case stable =>
        intro k same cyc
        rw [inputSelect_of_hot running same, if_pos cyc]
        exact same.symm
      case read =>
        intro k ack reads b
        simp only [acks, Bool.and_eq_true, decide_eq_true_eq] at ack
        obtain ⟨ack, rfl⟩ := ack
        rw [← (answer.own ack).2, ← shares.memory]
        rfl
      case memory => exact shares.memory
      case frame =>
        intro noWrite
        have mine := noWrite i
        simp only [acks, decide_true, Bool.and_true] at mine
        simp only [State.step, ramBus_of_hot selected]
        exact mem_edge_of_not_write mine
      case own =>
        intro k ack
        simp only [acks, Bool.and_eq_true, decide_eq_true_eq] at ack
        obtain ⟨ack, rfl⟩ := ack
        exact ⟨(answer.own ack).1, selected⟩
      case once =>
        intro k free
        simp only [acks, Bool.and_eq_false_iff, decide_eq_false_iff_not]
        by_cases same : i = k
        · subst same
          exact Or.inl (answer.fresh free)
        · exact Or.inr same
      case prompt =>
        intro k beat held
        simp only [acks, Bool.and_eq_true, decide_eq_true_eq]
        by_cases same : i = k
        · subst same
          exact ⟨answer.prompt beat held, rfl⟩
        · have := outside k (Ne.symm same)
          simp only [] at held
          rw [held] at this
          cases this.2
      case noErr =>
        intro k
        simp [State.wbmErrO, ramBus_of_hot selected, answer.noErr]

/-! ## Every run -/

/-- **The three ports refine one shared store of bytes**, in every cycle of every run
of masters that keep to their protocols. -/
theorem refines_sharedStore (wide : 4 ≤ m) (fits : size ≤ 2 ^ (m + 2)) (settled : Settled s)
    (cycles : List (Inputs aw))
    (permitted : Trace.Always (Trace.monitored State.step Journal.record) (Masters size)
      (s, ⟨fun _ => .free, ByteStore.ofWords s.ram.mem⟩) cycles) :
    Trace.Always (Trace.monitored State.step Journal.record) Refines
      (s, ⟨fun _ => .free, ByteStore.ofWords s.ram.mem⟩) cycles :=
  Trace.Always.of_invariant (fun x : State m × Journal aw m => Shares x.1 x.2)
    (fun _ _ shares masters => shares.step wide fits masters)
    (fun _ _ shares masters => shares.refines fits masters) settled.shares permitted

/-- A RAM of sixteen words after reset. -/
def smallRam : State 4 where
  inputSelect := 0
  lastSelected := 0
  ram := ⟨0, false, 9, .wrap8, .endBurst, false, fun _ => 0⟩

/-- A cycle in which the first two masters drive these signals. -/
def twoMasters (first second : Bus 8) : Inputs 8 where
  wbRstI := false
  bus := fun i => if i.val = 0 then first else if i.val = 1 then second else Pins.idle

def beat (adr : BitVec 8) (dat : BitVec 32) (we stb : Bool) (cti : Cti) : Bus 8 :=
  ⟨adr, dat, 0b0110, we, true, stb, cti, .wrap4⟩

/-- The first master writes a burst that wraps from word three to word zero, with a
wait before its last beat; the second one reads word zero and waits for the RAM. -/
def sharedRun : List (Inputs 8) :=
  let first := beat 12 0x11223344 true true .incBurst
  let last := beat 0 0x55667788 true true .endBurst
  let read := beat 0 0 false true .classic
  [twoMasters first read, twoMasters first read, twoMasters first read,
    twoMasters (beat 0 0 true false .endBurst) read, twoMasters last read, twoMasters last read,
    twoMasters Pins.idle read, twoMasters Pins.idle read, twoMasters Pins.idle read,
    twoMasters Pins.idle read]

theorem refines_sharedStore_sharedRun :
    Trace.Always (Trace.monitored State.step Journal.record) (Masters 64)
        (smallRam, ⟨fun _ => .free, ByteStore.ofWords smallRam.ram.mem⟩) sharedRun ∧
      Trace.Always (Trace.monitored State.step Journal.record) Refines
        (smallRam, ⟨fun _ => .free, ByteStore.ofWords smallRam.ram.mem⟩) sharedRun := by
  have permitted : Trace.Always (Trace.monitored State.step Journal.record) (Masters 64)
      (smallRam, ⟨fun _ => .free, ByteStore.ofWords smallRam.ram.mem⟩) sharedRun := by
    decide
  exact ⟨permitted, refines_sharedStore (by decide) (by decide) ⟨rfl, rfl, rfl⟩ sharedRun permitted⟩

/-- The read shows the two bytes the burst's last beat selected. -/
example : (Trace.after State.step smallRam (sharedRun.take 9)).wbmDatO = 0x00667700 := by decide

end OrpsocCores.RamWb
