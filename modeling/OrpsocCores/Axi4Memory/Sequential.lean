import OrpsocCores.Axi4Memory.Model

/-!
# The AXI memory is a sequential memory

`Op` is an operation of a memory that does one thing at a time, and `Legal` says that every
read of a list of operations returns what the memory holds there.  What a master sees of
the AXI memory (`History`) is always what some legal list explains: the requests are those
the master showed, in its order and each once, the data it received are the results of the
reads, and every acknowledged write is one of the list (`Served`).  No response comes before
the transfer of its request.
-/

set_option autoImplicit false

namespace OrpsocCores.Axi4Memory

open EarlyLatch Trace

/-! ## A sequential memory -/

abbrev Contents := BitVec 14 → Word

/-- A read with its result, or a write. -/
inductive Op
  | read (request : Word × Bool) (data : Word)
  | write (address : Word) (data : Word × BitVec 4)

/-- The memory with the selected bytes of a word written. -/
def store (memory : Contents) (address : Word) (data : Word × BitVec 4) : Contents :=
  if inMemory address then
    Function.update memory (index address) (merge data.2 data.1 (memory (index address)))
  else memory

/-- The memory after operations. -/
def replay : Contents → List Op → Contents
  | memory, [] => memory
  | memory, .read _ _ :: ops => replay memory ops
  | memory, .write address data :: ops => replay (store memory address data) ops

/-- Every read returns what the memory holds. -/
def Legal : Contents → List Op → Prop
  | _, [] => True
  | memory, .read request data :: ops => data = memory (index request.1) ∧ Legal memory ops
  | memory, .write address data :: ops => Legal (store memory address data) ops

/-- The reads, with their results. -/
def reads : List Op → List ((Word × Bool) × Word)
  | [] => []
  | .read request data :: ops => (request, data) :: reads ops
  | .write _ _ :: ops => reads ops

def writes : List Op → List (Word × (Word × BitVec 4))
  | [] => []
  | .read _ _ :: ops => writes ops
  | .write address data :: ops => (address, data) :: writes ops

theorem replay_append (memory : Contents) (ops ops' : List Op) :
    replay memory (ops ++ ops') = replay (replay memory ops) ops' := by
  induction ops generalizing memory with
  | nil => rfl
  | cons op ops ih => cases op <;> exact ih _

theorem legal_append (memory : Contents) (ops ops' : List Op) :
    Legal memory (ops ++ ops') ↔ Legal memory ops ∧ Legal (replay memory ops) ops' := by
  induction ops generalizing memory with
  | nil => simp [Legal, replay]
  | cons op ops ih =>
      cases op with
      | read request data => simp [Legal, replay, ih, and_assoc]
      | write address data => exact ih _

theorem reads_append (ops ops' : List Op) : reads (ops ++ ops') = reads ops ++ reads ops' := by
  induction ops with
  | nil => rfl
  | cons op ops ih => cases op <;> simp [reads, ih]

theorem writes_append (ops ops' : List Op) : writes (ops ++ ops') = writes ops ++ writes ops' := by
  induction ops with
  | nil => rfl
  | cons op ops ih => cases op <;> simp [writes, ih]

/-- The contents of a memory after its writes. -/
theorem replay_eq_foldl (memory : Contents) (ops : List Op) :
    replay memory ops = (writes ops).foldl (fun memory op => store memory op.1 op.2) memory := by
  induction ops generalizing memory with
  | nil => rfl
  | cons op ops ih => cases op <;> exact ih _

/-- Without writes every read returns what the memory held at first. -/
theorem reads_eq_of_writes_eq_nil (memory : Contents) (ops : List Op) (legal : Legal memory ops)
    (none : writes ops = []) :
    (reads ops).map (·.2) = (reads ops).map fun op => memory (index op.1.1) := by
  induction ops with
  | nil => rfl
  | cons op ops ih =>
      cases op with
      | read request data =>
          obtain ⟨same, legal⟩ := legal
          simp only [reads, List.map_cons, same, ih legal none]
      | write address data => cases none

/-! ## What the master sees -/

/-- What the master has transferred and received. -/
structure History where
  ar : Channel (Word × Bool)
  aw : Channel Word
  w : Channel (Word × BitVec 4)
  delivered : List Word
  acknowledged : Nat

def History.empty : History := ⟨.empty, .empty, .empty, [], 0⟩

def record (s : Regs) (edge : Edge) (h : History) : History :=
  if s.finished then h
  else match edge with
    | .negedge i =>
        { h with
          ar := h.ar.shows i.arvalid (i.araddr, i.arinsn)
          aw := h.aw.shows i.awvalid i.awaddr
          w := h.w.shows i.wvalid (i.wdata, i.wstrb) }
    | .posedge i =>
        { ar := h.ar.transfers s.ar i.arvalid (i.araddr, i.arinsn)
          aw := h.aw.transfers s.aw i.awvalid i.awaddr
          w := h.w.transfers s.w i.wvalid (i.wdata, i.wstrb)
          delivered := if s.rvalid && i.rready then h.delivered ++ [s.rdata] else h.delivered
          acknowledged := h.acknowledged + (s.bvalid && i.bready).toNat }

/-- The master keeps what it shows until it is transferred. -/
structure Follows (h : History) (i : Inputs) : Prop where
  ar : h.ar.Follows i.arvalid (i.araddr, i.arinsn)
  aw : h.aw.Follows i.awvalid i.awaddr
  w : h.w.Follows i.wvalid (i.wdata, i.wstrb)

instance (h : History) (i : Inputs) : Decidable (Follows h i) :=
  decidable_of_iff (h.ar.Follows i.arvalid (i.araddr, i.arinsn) ∧ h.aw.Follows i.awvalid i.awaddr ∧
      h.w.Follows i.wvalid (i.wdata, i.wstrb))
    ⟨fun ⟨ar, aw, w⟩ => ⟨ar, aw, w⟩, fun ⟨ar, aw, w⟩ => ⟨ar, aw, w⟩⟩

/-! ## The invariant -/

/-- **The operations explain what the master sees.** -/
structure Served (memory : Contents) (s : Regs) (h : History) (ops : List Op) : Prop where
  legal : Legal memory ops
  contents : replay memory ops = s.memory
  ar : h.ar.Kept ((reads ops).map (·.1)) s.ar
  aw : h.aw.Kept ((writes ops).map (·.1)) s.aw
  w : h.w.Kept ((writes ops).map (·.2)) s.w
  delivered : (reads ops).map (·.2) = h.delivered ++ if s.rvalid then [s.rdata] else []
  acknowledged : (writes ops).length = h.acknowledged + s.bvalid.toNat
  arEarly : (s.ar.ready && !s.ar.en) = true → s.rvalid = true
  awEarly : (s.aw.ready && !s.aw.en) = true → s.bvalid = true
  wEarly : (s.w.ready && !s.w.en) = true → s.bvalid = true

namespace Served

variable {memory : Contents} {s : Regs} {h : History} {ops : List Op}

/-- A read that is due is done. -/
theorem handleAxiRvalid (served : Served memory s h ops) (free : s.rvalid = false)
    (due : s.ar.en = true) :
    ∃ new, Served memory (handleAxiRvalid s s.memory) h (ops ++ new) := by
  rw [Axi4Memory.handleAxiRvalid]
  split
  · refine ⟨[.read s.ar.latched (s.memory (index s.ar.latched.1))], ?_⟩
    have delivered := served.delivered
    rw [free, if_neg Bool.false_ne_true, List.append_nil] at delivered
    have done : writes (ops ++ [.read s.ar.latched (s.memory (index s.ar.latched.1))]) =
        writes ops := by rw [writes_append, writes, writes, List.append_nil]
    refine ⟨?_, ?_, ?_, ?_, ?_, ?_, ?_, fun _ => rfl, served.awEarly, served.wEarly⟩
    · rw [legal_append]
      exact ⟨served.legal, by rw [served.contents], trivial⟩
    · rw [replay_append, served.contents]
      rfl
    · rw [reads_append, List.map_append]
      exact served.ar.take due
    · rw [done]
      exact served.aw
    · rw [done]
      exact served.w
    · rw [reads_append, List.map_append, delivered]
      rfl
    · rw [done]
      exact served.acknowledged
  · exact ⟨[], by rw [List.append_nil]; exact { served with }⟩

/-- A write that is due is done. -/
theorem handleAxiBvalid (served : Served memory s h ops) (free : s.bvalid = false)
    (dueAddress : s.aw.en = true) (dueData : s.w.en = true) :
    ∃ new, Served memory (handleAxiBvalid s) h (ops ++ new) := by
  have stored : (Axi4Memory.handleAxiBvalid s).memory = store s.memory s.aw.latched s.w.latched ∧
      Axi4Memory.handleAxiBvalid s = { Axi4Memory.handleAxiBvalid s with
        ar := s.ar, aw := s.aw.take, w := s.w.take, rvalid := s.rvalid, rdata := s.rdata,
        bvalid := true } := by
    rw [Axi4Memory.handleAxiBvalid, store]
    dsimp only
    split
    · exact ⟨rfl, rfl⟩
    · split
      · exact ⟨rfl, rfl⟩
      · exact ⟨rfl, rfl⟩
  refine ⟨[.write s.aw.latched s.w.latched], ?_⟩
  rw [stored.2]
  have done : reads (ops ++ [.write s.aw.latched s.w.latched]) = reads ops := by
    rw [reads_append, reads, reads, List.append_nil]
  have acknowledged := served.acknowledged
  refine ⟨?_, ?_, ?_, ?_, ?_, ?_, ?_, served.arEarly, fun _ => rfl, fun _ => rfl⟩
  · rw [legal_append]
    exact ⟨served.legal, trivial⟩
  · rw [replay_append, served.contents]
    exact stored.1.symm
  · rw [done]
    exact served.ar
  · rw [writes_append, List.map_append]
    exact served.aw.take dueAddress
  · rw [writes_append, List.map_append]
    exact served.w.take dueData
  · rw [done]
    exact served.delivered
  · rw [free] at acknowledged
    rw [writes_append, List.length_append, acknowledged]
    rfl

theorem handleAxiRvalid_bvalid (s : Regs) (memory : Contents) :
    (Axi4Memory.handleAxiRvalid s memory).bvalid = s.bvalid := by
  rw [Axi4Memory.handleAxiRvalid]
  split <;> rfl

theorem respond (served : Served memory s h ops) {rvalid bvalid : Bool}
    (freeRead : rvalid = false → s.rvalid = false) (freeWrite : bvalid = false → s.bvalid = false)
    (read write : Bool) :
    ∃ new, Served memory (respond s rvalid bvalid read write) h (ops ++ new) := by
  have afterRead : ∃ new, Served memory
      (if !rvalid && s.ar.en && read then Axi4Memory.handleAxiRvalid s s.memory else s) h
      (ops ++ new) := by
    split
    · next due =>
        simp only [Bool.and_eq_true, Bool.not_eq_true'] at due
        exact served.handleAxiRvalid (freeRead due.1.1) due.1.2
    · exact ⟨[], by rwa [List.append_nil]⟩
  have afterWrite {x : Regs} {ops : List Op} (served : Served memory x h ops)
      (same : x.bvalid = s.bvalid) : ∃ new, Served memory
        (if !bvalid && x.aw.en && x.w.en && write then Axi4Memory.handleAxiBvalid x else x)
        h (ops ++ new) := by
    split
    · next due =>
        simp only [Bool.and_eq_true, Bool.not_eq_true'] at due
        obtain ⟨⟨⟨free, address⟩, data⟩, _⟩ := due
        exact served.handleAxiBvalid (same.trans (freeWrite free)) address data
    · exact ⟨[], by rwa [List.append_nil]⟩
  obtain ⟨read, served⟩ := afterRead
  obtain ⟨write, served⟩ := afterWrite served (by
    split
    · exact handleAxiRvalid_bvalid s s.memory
    · rfl)
  exact ⟨read ++ write, by rw [← List.append_assoc]; exact served⟩

/-! ## The edges -/

/-- An edge without transfers leaves a latch that was emptied early as it is. -/
theorem early_ready {α : Type} (l : Latch α) (valid permitted : Bool) (payload : α)
    (emptied : ((l.early valid payload permitted).ready &&
      !(l.early valid payload permitted).en) = true) : (l.ready && !l.en) = true := by
  rw [Latch.early] at emptied
  split at emptied
  · exact absurd emptied Bool.false_ne_true
  · exact emptied

/-- After an edge with transfers a latch that shows ready holds the payload. -/
theorem transfer_ready {α : Type} (l : Latch α) (valid permitted : Bool) (payload : α) :
    ((l.transfer valid payload permitted).ready &&
      !(l.transfer valid payload permitted).en) = false := by
  have either (taken : Bool) (late : Latch α) :
      ((if taken then Latch.accept payload else { late with ready := false, fast := false }).ready
        && !(if taken then Latch.accept payload
          else { late with ready := false, fast := false }).en) = false := by
    cases taken <;> rfl
  exact either _ _

theorem negedge (served : Served memory s h ops) {i : Inputs} (running : s.finished = false)
    (follows : Follows h i) :
    ∃ new, Served memory (negedge s i) (record s (.negedge i) h) (ops ++ new) := by
  have simulated : ¬ s.finished = true := by rw [running]; exact Bool.false_ne_true
  rw [Axi4Memory.negedge, record, if_neg simulated]
  refine @respond memory _ _ ops ?_ _ _ id id _ _
  exact
    { legal := served.legal
      contents := served.contents
      ar := served.ar.early follows.ar
      aw := served.aw.early follows.aw
      w := served.w.early follows.w
      delivered := served.delivered
      acknowledged := served.acknowledged
      arEarly := fun emptied => served.arEarly (early_ready _ _ _ _ emptied)
      awEarly := fun emptied => served.awEarly (early_ready _ _ _ _ emptied)
      wEarly := fun emptied => served.wEarly (early_ready _ _ _ _ emptied) }

theorem posedge (served : Served memory s h ops) {i : Inputs} (running : s.finished = false)
    (axiTest : Bool) (follows : Follows h i) :
    ∃ new, Served memory (posedge axiTest s i) (record s (.posedge i) h) (ops ++ new) := by
  have simulated : ¬ s.finished = true := by rw [running]; exact Bool.false_ne_true
  rw [Axi4Memory.posedge, record, if_neg simulated]
  refine @respond memory _ _ ops ?_ _ _ (fun free => by rw [free, Bool.false_and])
    (fun free => by rw [free, Bool.false_and]) _ _
  exact
    { legal := served.legal
      contents := served.contents
      ar := served.ar.transfer follows.ar
      aw := served.aw.transfer follows.aw
      w := served.w.transfer follows.w
      delivered := by
        have delivered := served.delivered
        cases shown : s.rvalid <;> cases taken : i.rready <;> rw [shown] at delivered <;>
          simpa using delivered
      acknowledged := by
        have acknowledged := served.acknowledged
        cases shown : s.bvalid <;> cases taken : i.bready <;> rw [shown] at acknowledged <;>
          simpa using acknowledged
      arEarly := fun emptied =>
        absurd ((transfer_ready _ _ _ _).symm.trans emptied) Bool.false_ne_true
      awEarly := fun emptied =>
        absurd ((transfer_ready _ _ _ _).symm.trans emptied) Bool.false_ne_true
      wEarly := fun emptied =>
        absurd ((transfer_ready _ _ _ _).symm.trans emptied) Bool.false_ne_true }

theorem step (served : Served memory s h ops) (axiTest : Bool) (edge : Edge)
    (follows : Follows h edge.inputs) :
    ∃ new, Served memory (step axiTest s edge) (record s edge h) (ops ++ new) := by
  cases running : s.finished with
  | true =>
      have stopped : Axi4Memory.step axiTest s edge = s := if_pos running
      have unseen : record s edge h = h := if_pos running
      rw [stopped, unseen]
      exact ⟨[], by rwa [List.append_nil]⟩
  | false =>
      have simulated : ¬ s.finished = true := by rw [running]; exact Bool.false_ne_true
      cases edge with
      | negedge i =>
          have stepped : Axi4Memory.step axiTest s (.negedge i) = Axi4Memory.negedge s i :=
            if_neg simulated
          rw [stepped]
          exact served.negedge running follows
      | posedge i =>
          have stepped : Axi4Memory.step axiTest s (.posedge i) = Axi4Memory.posedge axiTest s i :=
            if_neg simulated
          rw [stepped]
          exact served.posedge running axiTest follows

end Served

/-! ## Runs -/

/-- No request is in the memory and no response is shown. -/
structure Idle (s : Regs) : Prop where
  ar : s.ar.ready = false ∧ s.ar.fast = false ∧ s.ar.en = false
  aw : s.aw.ready = false ∧ s.aw.fast = false ∧ s.aw.en = false
  w : s.w.ready = false ∧ s.w.fast = false ∧ s.w.en = false
  rvalid : s.rvalid = false
  bvalid : s.bvalid = false

theorem Idle.kept {α : Type} {l : Latch α}
    (idle : l.ready = false ∧ l.fast = false ∧ l.en = false) : Channel.empty.Kept [] l := by
  obtain ⟨ready, fast, en, payload⟩ := l
  obtain ⟨rfl, rfl, rfl⟩ := idle
  exact Channel.Kept.empty payload

theorem Idle.served {s : Regs} (idle : Idle s) : Served s.memory s .empty [] where
  legal := trivial
  contents := rfl
  ar := kept idle.ar
  aw := kept idle.aw
  w := kept idle.w
  delivered := by rw [idle.rvalid]; rfl
  acknowledged := by rw [idle.bvalid]; rfl
  arEarly := by rw [idle.ar.1]; exact fun emptied => absurd emptied Bool.false_ne_true
  awEarly := by rw [idle.aw.1]; exact fun emptied => absurd emptied Bool.false_ne_true
  wEarly := by rw [idle.w.1]; exact fun emptied => absurd emptied Bool.false_ne_true

/-- The run of the memory and of what the master sees of it. -/
abbrev observed (axiTest : Bool) : Regs × History → Edge → Regs × History :=
  monitored (step axiTest) record

/-- A master that keeps what it shows. -/
abbrev Permitted (axiTest : Bool) (s : Regs) (edges : List Edge) : Prop :=
  Always (observed axiTest) (fun x edge => Follows x.2 edge.inputs) (s, .empty) edges

/-- The operations of a run, edge by edge: none is ever taken back. -/
theorem served_after (axiTest : Bool) {s : Regs} (idle : Idle s) {edges : List Edge}
    (permitted : Permitted axiTest s edges) :
    ∃ done : Nat → List Op, (∀ n, done n <+: done (n + 1)) ∧ ∀ n,
      Served s.memory (after (observed axiTest) (s, .empty) (edges.take n)).1
        (after (observed axiTest) (s, .empty) (edges.take n)).2 (done n) := by
  obtain ⟨done, _, grows, served⟩ := permitted.timeline
    (fun x ops => Served s.memory x.1 x.2 ops) (fun ops ops' => ops <+: ops')
    (fun ops => List.prefix_refl ops)
    (fun _ edge _ held follows =>
      (held.step axiTest edge follows).elim fun new served => ⟨_, List.prefix_append _ new, served⟩)
    idle.served
  exact ⟨done, grows, served⟩

/-- What a master saw is what operations of a sequential memory explain. -/
structure Explained (memory : Contents) (s : Regs) (h : History) (ops : List Op) : Prop where
  legal : Legal memory ops
  contents : replay memory ops = s.memory
  /-- The reads are those the master asked for, in its order and each once. -/
  requested : (reads ops).map (·.1) <+: h.ar.shown
  /-- The data received are their results. -/
  delivered : h.delivered <+: (reads ops).map (·.2)
  /-- The writes are the addresses with the data, in the master's order. -/
  written : writes ops <+: h.aw.shown.zip h.w.shown
  /-- What is acknowledged is done. -/
  acknowledged : h.acknowledged ≤ (writes ops).length
  /-- Responses come after the transfers of their requests. -/
  readsTransferred : h.delivered.length ≤ h.ar.transferred.length
  addressesTransferred : h.acknowledged ≤ h.aw.transferred.length
  dataTransferred : h.acknowledged ≤ h.w.transferred.length

theorem zip_prefix {α β : Type} {pairs : List (α × β)} {first : List α} {second : List β}
    (firsts : pairs.map (·.1) <+: first) (seconds : pairs.map (·.2) <+: second) :
    pairs <+: first.zip second := by
  obtain ⟨first', rfl⟩ := firsts
  obtain ⟨second', rfl⟩ := seconds
  rw [List.zip_append (by simp), ← List.unzip_fst, ← List.unzip_snd, List.zip_unzip]
  exact List.prefix_append _ _

theorem Served.explained {memory : Contents} {s : Regs} {h : History} {ops : List Op}
    (served : Served memory s h ops) : Explained memory s h ops where
  legal := served.legal
  contents := served.contents
  requested := served.ar.consumed_prefix
  delivered := ⟨_, served.delivered.symm⟩
  written := zip_prefix served.aw.consumed_prefix served.w.consumed_prefix
  acknowledged := by
    have acknowledged := served.acknowledged
    omega
  readsTransferred := by
    have lengths := congrArg List.length served.delivered
    have consumed := served.ar.length_consumed_le
    have early := served.arEarly
    simp only [List.length_map, List.length_append] at lengths consumed
    cases emptied : s.ar.ready && !s.ar.en with
    | false =>
        simp only [emptied, Bool.toNat_false] at consumed
        omega
    | true =>
        simp only [emptied, Bool.toNat_true] at consumed
        simp only [early emptied, ↓reduceIte, List.length_cons, List.length_nil] at lengths
        omega
  addressesTransferred := by
    have acknowledged := served.acknowledged
    have consumed := served.aw.length_consumed_le
    have early := served.awEarly
    simp only [List.length_map] at consumed
    cases emptied : s.aw.ready && !s.aw.en with
    | false =>
        simp only [emptied, Bool.toNat_false] at consumed
        omega
    | true =>
        simp only [emptied, Bool.toNat_true] at consumed
        simp only [early emptied, Bool.toNat_true] at acknowledged
        omega
  dataTransferred := by
    have acknowledged := served.acknowledged
    have consumed := served.w.length_consumed_le
    have early := served.wEarly
    simp only [List.length_map] at consumed
    cases emptied : s.w.ready && !s.w.en with
    | false =>
        simp only [emptied, Bool.toNat_false] at consumed
        omega
    | true =>
        simp only [emptied, Bool.toNat_true] at consumed
        simp only [early emptied, Bool.toNat_true] at acknowledged
        omega

/-- **Whatever a master asks for in whatever order, at every moment it has seen what a
sequential memory would have done, and nothing done is ever taken back.** -/
theorem sequential (axiTest : Bool) {s : Regs} (idle : Idle s) {edges : List Edge}
    (permitted : Permitted axiTest s edges) :
    ∃ done : Nat → List Op, (∀ n, done n <+: done (n + 1)) ∧ ∀ n,
      Explained s.memory (after (observed axiTest) (s, .empty) (edges.take n)).1
        (after (observed axiTest) (s, .empty) (edges.take n)).2 (done n) := by
  obtain ⟨done, grows, served⟩ := served_after axiTest idle permitted
  exact ⟨done, grows, fun n => (served n).explained⟩

theorem idle_initial (raddr : Word × Bool) (waddr : Word) (wdata : Word × BitVec 4)
    (rdata : Word) (memory : Contents) : Idle (.initial raddr waddr wdata rdata memory) :=
  ⟨⟨rfl, rfl, rfl⟩, ⟨rfl, rfl, rfl⟩, ⟨rfl, rfl, rfl⟩, rfl, rfl⟩

/-- A master that only asks to read the word at `address`. -/
def Inputs.reading (address : Word) : Inputs :=
  ⟨false, 0, false, 0, 0, true, true, address, false, true⟩

/-- A master that only asks to write a word. -/
def Inputs.writing (address data : Word) : Inputs :=
  ⟨true, address, true, data, 0b1111, true, false, 0, false, true⟩

theorem sequential_reading :
    let s := Regs.initial (0, false) 0 (0, 0) 0 fun _ => 7
    let edges := [Edge.negedge (.reading 4), .posedge (.reading 4), .posedge (.reading 8)]
    ∃ done : Nat → List Op, (∀ n, done n <+: done (n + 1)) ∧ ∀ n,
      Explained s.memory (after (observed true) (s, .empty) (edges.take n)).1
        (after (observed true) (s, .empty) (edges.take n)).2 (done n) :=
  sequential true (idle_initial _ _ _ _ _) (by decide)

/-! ## Reading back -/

/-- Everything that was shown is transferred and answered. -/
structure Quiet (h : History) : Prop where
  ar : h.ar.owed = none
  aw : h.aw.owed = none
  w : h.w.owed = none
  reads : h.delivered.length = h.ar.transferred.length
  addresses : h.acknowledged = h.aw.transferred.length
  data : h.acknowledged = h.w.transferred.length

/-- What the acknowledged writes of a master leave in the memory. -/
def History.contents (h : History) (memory : Contents) : Contents :=
  (h.aw.transferred.zip h.w.transferred).foldl (fun memory op => store memory op.1 op.2) memory

/-- A master that has its answers leaves an idle memory, which holds its writes. -/
theorem Served.idle {memory : Contents} {s : Regs} {h : History} {ops : List Op}
    (served : Served memory s h ops) (quiet : Quiet h) : Idle s ∧ s.memory = h.contents memory := by
  have delivered := congrArg List.length served.delivered
  have acknowledged := served.acknowledged
  have reads := quiet.reads
  have addresses := quiet.addresses
  have data := quiet.data
  simp only [List.length_map, List.length_append] at delivered
  obtain ⟨arReady, arEn, arAll⟩ := served.ar.idle_of_consumed quiet.ar (by
    rw [List.length_map]
    omega)
  obtain ⟨awReady, awEn, awAll⟩ := served.aw.idle_of_consumed quiet.aw (by
    rw [List.length_map]
    omega)
  obtain ⟨wReady, wEn, wAll⟩ := served.w.idle_of_consumed quiet.w (by
    rw [List.length_map]
    omega)
  have rvalid : s.rvalid = false := by
    have lengths := congrArg List.length arAll
    rw [List.length_map] at lengths
    cases shown : s.rvalid with
    | false => rfl
    | true =>
        rw [shown] at delivered
        simp only [↓reduceIte, List.length_cons, List.length_nil] at delivered
        omega
  have bvalid : s.bvalid = false := by
    have lengths := congrArg List.length awAll
    rw [List.length_map] at lengths
    cases shown : s.bvalid with
    | false => rfl
    | true =>
        rw [shown, Bool.toNat_true] at acknowledged
        omega
  have written : writes ops = h.aw.transferred.zip h.w.transferred := by
    rw [← awAll, ← wAll, ← List.unzip_fst, ← List.unzip_snd, List.zip_unzip]
  refine ⟨⟨⟨arReady, served.ar.fast.trans arReady, arEn⟩, ⟨awReady, served.aw.fast.trans awReady, awEn⟩,
    ⟨wReady, served.w.fast.trans wReady, wEn⟩, rvalid, bvalid⟩, ?_⟩
  rw [← served.contents, replay_eq_foldl, written, History.contents]

/-- A master that shows no address to write to has written nothing. -/
theorem aw_empty (axiTest : Bool) (x : Regs × History) (edges : List Edge)
    (nothing : x.2.aw = .empty) (unwritten : ∀ edge ∈ edges, edge.inputs.awvalid = false) :
    (after (observed axiTest) x edges).2.aw = .empty := by
  induction edges generalizing x with
  | nil => exact nothing
  | cons edge edges ih =>
      refine ih _ ?_ fun edge later => unwritten edge (List.mem_cons_of_mem _ later)
      have invalid := unwritten edge List.mem_cons_self
      show (record x.1 edge x.2).aw = .empty
      cases edge with
      | negedge i =>
          have shows : x.2.aw.shows i.awvalid i.awaddr = .empty := by
            have invalid : i.awvalid = false := invalid
            rw [nothing, invalid]
            rfl
          rw [record]
          split
          · exact nothing
          · exact shows
      | posedge i =>
          have transfers : x.2.aw.transfers x.1.aw i.awvalid i.awaddr = .empty := by
            have invalid : i.awvalid = false := invalid
            rw [nothing, invalid]
            rfl
          rw [record]
          split
          · exact nothing
          · exact transfers

/-- **Once a master's writes are acknowledged, what it reads is what it wrote.** -/
theorem reads_return_writes (axiTest : Bool) {s : Regs} (idle : Idle s) {edges : List Edge}
    (permitted : Permitted axiTest s edges)
    (quiet : Quiet (after (observed axiTest) (s, .empty) edges).2) {edges' : List Edge}
    (permitted' : Permitted axiTest (after (observed axiTest) (s, .empty) edges).1 edges')
    (unwritten : ∀ edge ∈ edges', edge.inputs.awvalid = false) :
    let h := (after (observed axiTest) (s, .empty) edges).2
    let h' := (after (observed axiTest)
      ((after (observed axiTest) (s, .empty) edges).1, .empty) edges').2
    h'.delivered <+:
      h'.ar.transferred.map fun request => h.contents s.memory (index request.1) := by
  intro h h'
  obtain ⟨_, _, served⟩ := served_after axiTest idle permitted
  have served := served edges.length
  rw [List.take_length] at served
  obtain ⟨idle', contents⟩ := served.idle quiet
  obtain ⟨done, _, served'⟩ := served_after axiTest idle' permitted'
  have served' := served' edges'.length
  rw [List.take_length] at served'
  have explained := served'.explained
  have none : writes (done edges'.length) = [] := by
    have shown := explained.written
    rw [aw_empty axiTest _ edges' rfl unwritten] at shown
    exact List.prefix_nil.mp shown
  have results := reads_eq_of_writes_eq_nil _ _ explained.legal none
  have asked := explained.requested.map
    fun request => h.contents s.memory (index request.1)
  rw [List.map_map] at asked
  have answered : h'.delivered <+:
      h'.ar.shown.map fun request => h.contents s.memory (index request.1) := by
    refine explained.delivered.trans ?_
    rw [results, contents]
    exact asked
  refine List.prefix_of_prefix_length_le answered ?_ ?_
  · exact (List.prefix_append _ _).map _
  · rw [List.length_map]
    exact explained.readsTransferred

theorem reads_return_writes_once :
    let s := Regs.initial (0, false) 0 (0, 0) 0 fun _ => 7
    let x := after (observed false) (s, .empty) [.negedge (.writing 4 42), .posedge (.writing 4 42)]
    (after (observed false) (x.1, .empty)
      [.negedge (.reading 4), .posedge (.reading 4)]).2.delivered <+: [x.2.contents s.memory 1] :=
  reads_return_writes false (idle_initial _ _ _ _ _) (by decide)
    ⟨by decide, by decide, by decide, by decide, by decide, by decide⟩ (by decide) (by decide)

end OrpsocCores.Axi4Memory
