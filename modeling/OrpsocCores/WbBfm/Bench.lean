import OrpsocCores.WbBfm.BoundedMemory
import OrpsocCores.WbBfm.Fixture

/-!
# The transactor on the memory

The transactor drives the master and the master drives `wb_bfm_memory`.  `Bursts` follows the
addresses of a burst through the two models; here the data go with them (`Transfers.step`),
whatever the delays of the memory, so that the two serve the transactor (`serves_memory`).

`memory_passes`: a run of any number of transactions whose beats are inside the memory comes
to `done`, and no comparison on the way fails.
-/

set_option autoImplicit false

namespace OrpsocCores.WbBfm

open Wishbone AlignedBlock

variable {aw : Nat}

/-! ## The array and the words -/

/-- The array has these words below the bound. -/
def Shows (size : Nat) (array : BitVec 30 → BitVec 32) (mem : Words aw) : Prop :=
  ∀ a : BitVec aw, a.toNat % 4 = 0 → a.toNat < size → array (wordOf a) = mem a

/-- In a memory of at most `2 ^ 32` bytes a word has one place. -/
theorem wordOf_inj {size : Nat} (small : size ≤ 2 ^ 32) {a a' : BitVec aw}
    (aligned : a.toNat % 4 = 0) (aligned' : a'.toNat % 4 = 0) (below : a.toNat < size)
    (below' : a'.toNat < size) : wordOf a = wordOf a' ↔ a = a' := by
  rw [← BitVec.toNat_inj, toNat_wordOf, toNat_wordOf, ← BitVec.toNat_inj]
  omega

theorem Shows.update {size : Nat} (small : size ≤ 2 ^ 32) {array : BitVec 30 → BitVec 32}
    {mem : Words aw} (shows : Shows size array mem) {a : BitVec aw} (aligned : a.toNat % 4 = 0)
    (below : a.toNat < size) (word : BitVec 32) :
    Shows size (Function.update array (wordOf a) word) (Function.update mem a word) := by
  intro a' aligned' below'
  by_cases same : a' = a
  · rw [same, Function.update_self, Function.update_self]
  · rw [Function.update_of_ne same,
      Function.update_of_ne (mt (wordOf_inj small aligned' aligned below' below).mp same),
      shows a' aligned' below']

/-! ## The data at a stage of the burst -/

/-- The data of `k` beats have gone to the other side. -/
structure Exchanged (size : Nat) (op : Bool) (args : Burst aw) (before : Words aw) (b : Bench aw)
    (k : Nat) : Prop where
  mem : Shows size b.memory.mem (if op then args.writes before k else before)
  dataO : op = false → ∀ j < k, b.master.dataO (BitVec.ofNat 32 j) = args.reads before j

/-- What the memory has read, while it waits and when it answers. -/
def BfmMemory.fetched (m : BfmMemory aw) : BitVec 32 :=
  if m.phase = .answering then m.bfm0.wbDatO else m.data

/-- The memory has the `k`-th beat, and the data of the beats before are exchanged. -/
structure Holding (size : Nat) (op : Bool) (args : Burst aw) (before : Words aw) (b : Bench aw)
    (k : Nat) : Prop extends Exchanged size op args before b k where
  carrying : Carrying op args b.master k
  mask : b.memory.bfm0.mask = args.maskI
  fetched : op = false → b.memory.fetched = args.reads before k

/-- The data at a stage of a burst inside the memory. -/
def Transfers (size : Nat) (op : Bool) (args : Burst aw) (before : Words aw) (b : Bench aw) :
    Stage → Prop
  | .opened => Exchanged size op args before b 0 ∧ Carrying op args b.master 0
  | .delaying k _ => Holding size op args before b k
  | .answering k => Holding size op args before b k
  | .failed _ => False
  | .stuck _ => False
  | .closed => Exchanged size op args before b args.beats

variable {size : Nat} {op : Bool} {args : Burst aw} {before : Words aw} {b : Bench aw}
  {stage : Stage}

theorem Holding.head {k delay : Nat} {inside : Nat → Prop} [DecidablePred inside]
    (holding : Holding size op args before b k) (here : inside k) :
    Transfers size op args before b (Stage.head inside op k delay) := by
  unfold Stage.head
  rw [if_pos here]
  split
  · exact holding
  · cases delay with
    | zero => exact holding
    | succ delay => exact holding

/-- The head of the loop with a beat of a read. -/
theorem fetched_loop {memWords : Nat} {m : BfmMemory aw} (hasNext : m.bfm0.hasNext = true)
    (err : m.bfm0.err = false) (reads : m.bfm0.op = false) (inside : Inside memWords m.address)
    (delay : Nat) :
    (m.loop memWords delay).fetched = merge m.bfm0.mask (m.mem (wordOf m.address)) 0 := by
  rw [BfmMemory.loop, if_pos hasNext, if_pos inside, if_neg (by rw [reads]; exact Bool.false_ne_true)]
  cases delay with
  | zero => simp [BfmMemory.fetched, BfmMemory.readAck, Slave.next, err, reads]
  | succ delay => simp [BfmMemory.fetched]

/-- An edge of the bench behind the call. -/
theorem Bench.step_of_stands {memWords : Nat} (stands : Stands op args b.memory stage)
    (drives : Drives op args b.master stage) (positive : 0 < args.beats)
    (passed : StagePassed memWords args stage) (delay : Nat) :
    b.step memWords ⟨none, delay⟩ =
      ⟨b.master.edge none b.memory.bfm0.wbAckO b.memory.bfm0.wbDatO,
        b.memory.edge memWords b.master.out delay⟩ := by
  have master := drives.edge stands passed delay
  refine Bench.step_eq (stands.edge drives positive passed delay) master ?_
  cases stage with
  | closed => exact .inr master.2
  | _ => exact .inl (Counting.cyc (Driving.toCounting drives))

/-! ## Bursts that stay in the memory -/

section

variable (wide : 32 ≤ aw) (small : size ≤ 2 ^ 32) (whole : size % 4 = 0) (plain : args.Plain size)

include wide plain in
/-- The two sides step alike. -/
theorem derives_eq {k : Nat} (more : k < args.beats) : args.derives k = args.drives k :=
  (derives_eq_drives_iff wide plain.positive).mpr (.inl plain.moves) k more

include small whole plain in
theorem word_inside {k : Nat} (more : k < args.beats) :
    (wordOf (args.drives k)).toNat < size / 4 := by
  have below := plain.below k more
  rw [toNat_wordOf]
  omega

include wide small whole plain in
/-- Every beat passes the check of the memory. -/
theorem inside_derives {k : Nat} (more : k < args.beats) : Inside (size / 4) (args.derives k) := by
  rw [derives_eq wide plain more]
  exact Nat.not_lt.mpr (Nat.le_of_lt (word_inside small whole plain more))

include wide plain in
/-- The words show what a beat reads. -/
theorem merge_array {array : BitVec 30 → BitVec 32} (shows : Shows size array before) {k : Nat}
    (more : k < args.beats) :
    merge args.maskI (array (wordOf (args.drives k))) 0 = args.reads before k := by
  rw [shows _ (drives_aligned (by omega) plain.aligned k) (plain.below k more)]
  rfl

include wide small whole plain in
/-- The beat that is acknowledged is exchanged. -/
theorem Holding.exchanged {k : Nat} (holding : Holding size op args before b k)
    (serving : Serving op args b.memory k) (answering : b.memory.phase = .answering)
    (more : k < args.beats) (delay : Nat) :
    Exchanged size op args before
      ⟨(b.master.beat b.memory.bfm0.wbDatO).loop,
        (b.memory.beatDone (size / 4) b.master.out).loop (size / 4) delay⟩ (k + 1) := by
  have carrying := holding.carrying
  have address : b.memory.address = args.drives k :=
    serving.address.trans (derives_eq wide plain more)
  have within : (wordOf b.memory.address).toNat < size / 4 :=
    address ▸ word_inside small whole plain more
  have aligned := drives_aligned (by omega) plain.aligned k
  constructor
  case mem =>
    rw [mem_loop]
    show Shows size (if b.memory.bfm0.op && !b.memory.bfm0.err then
      b.memory.written (size / 4) b.master.out.dat else b.memory.mem) _
    rw [serving.sameOp, serving.err, BfmMemory.written, if_pos within, holding.mask, carrying.dat,
      address]
    have mem := holding.mem
    cases op with
    | false => exact mem
    | true =>
        simp only [if_true, Bool.not_false, Bool.and_true, Burst.writes] at mem ⊢
        rw [mem _ aligned (plain.below k more)]
        exact mem.update small aligned (plain.below k more) _
  case dataO =>
    intro reads j less
    have bound : args.beats < 2 ^ 32 := args.burstLengthI.isLt
    show (b.master.beat b.memory.bfm0.wbDatO).loop.dataO _ = _
    rw [Master.loop_dataO]
    show (if b.master.op then b.master.dataO
      else Function.update b.master.dataO b.master.index b.memory.bfm0.wbDatO) _ = _
    rw [carrying.sameOp, carrying.index, reads, if_neg Bool.false_ne_true]
    rcases Nat.lt_or_eq_of_le (Nat.le_of_lt_succ less) with earlier | rfl
    · rw [Function.update_of_ne (ofNat_ne (by omega) (by omega) (Nat.ne_of_lt earlier))]
      exact holding.dataO reads j earlier
    · have answered := holding.fetched reads
      rw [BfmMemory.fetched, if_pos answering] at answered
      rw [Function.update_self, answered]

include wide small whole plain in
/-- **Edge by edge the data go with the stages.** -/
theorem Transfers.step (transfers : Transfers size op args before b stage)
    (stands : Stands op args b.memory stage) (drives : Drives op args b.master stage)
    (passed : StagePassed (size / 4) args stage) (delay : Nat) :
    Transfers size op args before (b.step (size / 4) ⟨none, delay⟩)
      (stageNext (size / 4) op args delay stage) := by
  rw [Bench.step_of_stands stands drives plain.positive passed]
  cases stage with
  | opened =>
      obtain ⟨exchanged, carrying⟩ := transfers
      obtain ⟨phase, unacked, err⟩ := stands
      have serving := Serving.of_decode (m := b.memory) carrying.toDriving err plain.positive
      have edge : b.memory.edge (size / 4) b.master.out delay =
          { b.memory with
            bfm0 := b.memory.bfm0.decode b.master.out
            address := (b.memory.bfm0.decode b.master.out).address }.loop (size / 4) delay := by
        simp only [BfmMemory.edge, phase, carrying.cyc, if_true]
      have here : Inside (size / 4) (args.derives 0) :=
        inside_derives wide small whole plain plain.positive
      rw [unacked, carrying.edge_unacked, edge, stageNext, Stage.next]
      refine Holding.head ⟨⟨?_, exchanged.dataO⟩, carrying, ?_, fun reads => ?_⟩ here
      · rw [mem_loop]
        exact exchanged.mem
      · rw [(loop_keeps ..).2.2.2.1]
        exact carrying.sel
      · have mem := exchanged.mem
        rw [reads] at mem
        rw [fetched_loop serving.hasNext serving.err (serving.sameOp.trans reads)
          (serving.address ▸ here)]
        show merge b.master.out.sel (b.memory.mem (wordOf b.master.out.adr)) 0 = _
        rw [carrying.sel, carrying.adr]
        exact merge_array wide plain mem plain.positive
  | delaying k edges =>
      obtain ⟨serving, phase, unacked⟩ := stands
      rw [unacked, transfers.carrying.edge_unacked]
      have waited : op = false → b.memory.data = args.reads before k := by
        intro reads
        have fetched := transfers.fetched reads
        rwa [BfmMemory.fetched, if_neg (by rw [phase]; exact MemoryPhase.noConfusion)] at fetched
      cases edges with
      | zero =>
          have edge : b.memory.edge (size / 4) b.master.out delay = b.memory.readAck := by
            simp only [BfmMemory.edge, phase]
          rw [edge]
          refine ⟨⟨transfers.mem, transfers.dataO⟩, transfers.carrying, transfers.mask,
            fun reads => ?_⟩
          show (if !b.memory.bfm0.err && !b.memory.bfm0.op then b.memory.data else 0) = _
          rw [serving.err, serving.sameOp, reads]
          exact waited reads
      | succ edges =>
          have edge : b.memory.edge (size / 4) b.master.out delay =
              { b.memory with phase := .delaying edges } := by
            simp only [BfmMemory.edge, phase]
          rw [edge]
          exact ⟨⟨transfers.mem, transfers.dataO⟩, transfers.carrying, transfers.mask, waited⟩
  | answering k =>
      obtain ⟨serving, phase, acked⟩ := stands
      have carrying := transfers.carrying
      have counted : k < args.beats := passed.1
      have edge : b.memory.edge (size / 4) b.master.out delay =
          (b.memory.beatDone (size / 4) b.master.out).loop (size / 4) delay := by
        simp only [BfmMemory.edge, phase, serving.cycleType, if_true]
      have exchanged := transfers.exchanged wide small whole plain serving phase counted delay
      rw [acked, carrying.edge_acked, edge, stageNext, Stage.next]
      split
      case isTrue more =>
        have here : Inside (size / 4) (args.derives (k + 1)) :=
          inside_derives wide small whole plain more
        have next : Serving op args (b.memory.beatDone (size / 4) b.master.out) (k + 1) :=
          serving.beatDone carrying.toDriving more
        refine Holding.head ⟨exchanged, ?_, ?_, fun reads => ?_⟩ here
        · exact (carrying.beat _).carrying more carrying.sel carrying.dataI
        · rw [(loop_keeps ..).2.2.2.1]
          exact transfers.mask
        · have mem := exchanged.mem
          rw [mem_loop, reads] at mem
          rw [fetched_loop next.hasNext next.err (next.sameOp.trans reads) (next.address ▸ here),
            next.address, derives_eq wide plain more]
          show merge b.memory.bfm0.mask _ 0 = _
          rw [transfers.mask]
          exact merge_array wide plain mem more
      case isFalse last =>
        have all : k + 1 = args.beats := Nat.le_antisymm counted (Nat.le_of_not_lt last)
        rw [all] at exchanged
        exact exchanged
  | failed k => exact transfers.elim
  | stuck k => exact transfers.elim
  | closed =>
      have master : b.master.edge none b.memory.bfm0.wbAckO b.memory.bfm0.wbDatO = b.master := by
        simp only [Master.edge, drives.1]
      have memory : b.memory.edge (size / 4) b.master.out delay = b.memory := by
        simp only [BfmMemory.edge, stands.1]
      rw [master, memory]
      exact transfers

/-! ## Whole bursts -/

/-- The call of a burst. -/
theorem Bench.step_call {memWords : Nat} (op : Bool) (idle : b.Idle) (positive : 0 < args.beats)
    (delay : Nat) :
    b.step memWords ⟨some (.burst op args), delay⟩ =
      ⟨b.master.call (.burst op args), { b.memory with phase := .caught }⟩ := by
  obtain ⟨m, loop, counting, -⟩ := counting_of_call op positive b.master
  have driving : Driving op args m.loop 0 := counting.loop positive
  have master : b.master.edge (some (.burst op args)) b.memory.bfm0.wbAckO b.memory.bfm0.wbDatO =
      b.master.call (.burst op args) := by
    simp only [Master.edge, idle.phase]
  have memory : b.memory.edge memWords b.master.out delay = b.memory := by
    simp only [BfmMemory.edge, idle.catching]
  have caught : b.memory.settle memWords b.master.out m.loop.out delay =
      { b.memory with phase := .caught } := by
    simp [BfmMemory.settle, idle.catching, idle.cyc, driving.cyc]
  simp only [Bench.step, master, memory, loop, caught]
  congr 1
  exact if_neg fun h => Drives.notReleasing (show Drives op args m.loop .opened from driving) h.1

include wide small whole plain in
/-- The stage and the data `n` edges after the call. -/
theorem transfers_run (idle : b.Idle) (shows : Shows size b.memory.mem before)
    (delays : Nat → Nat) (n : Nat) :
    Transfers size op args before (run (size / 4) b op args delays (n + 1)).1
      (stageAfter (size / 4) op args delays n) := by
  induction n with
  | zero =>
      obtain ⟨m, loop, counting, sel, dataI⟩ := counting_of_call op plain.positive b.master
      show Transfers size op args before (b.step (size / 4) ⟨some (.burst op args), delays 0⟩) .opened
      rw [Bench.step_call op idle plain.positive, loop]
      refine ⟨⟨?_, fun _ j less => absurd less (Nat.not_lt_zero j)⟩,
        counting.carrying plain.positive sel dataI⟩
      cases op with
      | false => exact shows
      | true => exact shows
  | succ n ih =>
      have reached := run_at (size / 4) op idle plain.positive delays n
      rw [run_succ, if_neg (Nat.succ_ne_zero n)]
      exact ih.step wide small whole plain reached.memory reached.master
        (stagePassed_after (size / 4) op plain.positive delays n) (delays (n + 1))

include wide small whole plain in
/-- **A burst inside the memory comes to its end, and its data are exchanged**; the master is
busy until then. -/
theorem burst_completes (op : Bool) (idle : b.Idle) (shows : Shows size b.memory.mem before)
    (delays : Nat → Nat) :
    ∃ n, (∀ i < n, (run (size / 4) b op args delays (i + 1)).1.master.phase ≠ .idle) ∧
      (run (size / 4) b op args delays (n + 1)).1.Idle ∧
      Exchanged size op args before (run (size / 4) b op args delays (n + 1)).1 args.beats := by
  have ends : ∃ n, stageAfter (size / 4) op args delays n = .closed :=
    Stage.closed_of_inside plain.positive (fun k more => inside_derives wide small whole plain more)
      delays
  have closed := Nat.find_spec ends
  have reached := run_at (size / 4) op idle plain.positive delays (Nat.find ends)
  have transfers : Transfers size op args before _ _ :=
    transfers_run wide small whole plain idle shows delays (Nat.find ends)
  rw [closed] at reached transfers
  obtain ⟨memory, master, -⟩ := reached
  refine ⟨Nat.find ends, fun i earlier phase => ?_,
    ⟨master.1, master.2, memory.1, memory.2.1, memory.2.2⟩, transfers⟩
  exact Nat.find_min ends earlier
    ((run_at (size / 4) op idle plain.positive delays i).master.closed_of_idle phase)

end

/-! ## The bench -/

/-- The master connected to `wb_bfm_memory`, whose delays come from outside. -/
def memoryFixture (aw memWords : Nat) : Fixture aw (Bench aw) Nat where
  master := Bench.master
  step b request delay := b.step memWords ⟨request, delay⟩

/-- No access is going on, and the array has these words. -/
def Bench.Rests (size : Nat) (b : Bench aw) (mem : Words aw) : Prop :=
  b.Idle ∧ Shows size b.memory.mem mem

theorem burst_eq_run {memWords : Nat} (b : Bench aw) (op : Bool) (args : Burst aw)
    (delays : Nat → Nat) (n : Nat) :
    (memoryFixture aw memWords).burst op args b delays n =
      (run memWords b op args delays (n + 1)).1 := by
  induction n with
  | zero => rfl
  | succ n ih =>
      rw [Fixture.burst, ih, run_succ memWords b op args delays (n + 1),
        if_neg (Nat.succ_ne_zero n)]
      rfl

/-- Between the bursts nothing changes. -/
theorem Bench.step_idle {memWords : Nat} (idle : b.Idle) (delay : Nat) :
    b.step memWords ⟨none, delay⟩ = b := by
  have master : b.master.edge none b.memory.bfm0.wbAckO b.memory.bfm0.wbDatO = b.master := by
    simp only [Master.edge, idle.phase]
  have memory : b.memory.edge memWords b.master.out delay = b.memory := by
    simp only [BfmMemory.edge, idle.catching]
  simp [Bench.step, master, memory, BfmMemory.settle, idle.catching, idle.cyc, Master.settle,
    idle.phase]

/-- **The master and the memory serve the transactor.** -/
theorem serves_memory (wide : 32 ≤ aw) (small : size ≤ 2 ^ 32) (whole : size % 4 = 0) :
    Serves (memoryFixture aw (size / 4)) size (Bench.Rests size) where
  idle rests := rests.1.phase
  waits := by
    intro b mem rests delay
    show Bench.Rests size (b.step (size / 4) ⟨none, delay⟩) mem
    rw [Bench.step_idle rests.1]
    exact rests
  performs := by
    intro b mem op args ⟨idle, shows⟩ plain delays
    obtain ⟨n, busy, idleAgain, exchanged⟩ :=
      burst_completes wide small whole plain op idle shows delays
    simp only [burst_eq_run]
    exact ⟨n, busy, ⟨idleAgain, exchanged.mem⟩, exchanged.dataO⟩

/-- **The bench of the models passes.**  For every list of transactions inside the memory and
all delays of the memory, no comparison of the transactor fails, the run comes to `done`, and
then the array has what the transactions have written in their order. -/
theorem memory_passes (wide : 32 ≤ aw) (small : size ≤ 2 ^ 32) (whole : size % 4 = 0)
    {draws : List (Draw aw)} (fits : ∀ d ∈ draws, d.Fits size) (idle : b.Idle)
    (shows : Shows size b.memory.mem before) (expected : BitVec 32 → BitVec 32)
    (delays : Nat → Nat) :
    Transactor.Passes (memoryFixture aw (size / 4)) (Bench.Rests size)
      ⟨b, expected, draws, .atHead⟩ delays (draws.foldl (fun mem d => d.writes mem) before) := by
  let t : Transactor aw (Bench aw) := ⟨b, expected, draws, .atHead⟩
  have start : t.proceed ((memoryFixture aw (size / 4)).master t.system) = t.head := rfl
  exact Transactor.passes wide (serves_memory wide small whole) fits ⟨idle, shows⟩ start rfl delays

/-- Five words round a block of four, and three in a row that lie over them. -/
def twoDraws : List (Draw 32) :=
  [⟨0x18, fun word => word, 5, .wrap4⟩, ⟨0x14, fun word => word + 7, 3, .linear⟩]

theorem twoDraws_fit : ∀ d ∈ twoDraws, d.Fits 0x8000 := by
  intro d drawn
  rcases List.mem_pair.mp drawn with rfl | rfl
  · exact ⟨by decide, by decide, by decide, by decide, by decide⟩
  · exact ⟨by decide, by decide, by decide, by decide, by decide⟩

theorem memory_passes_twoDraws :
    Transactor.Passes (memoryFixture 32 (0x8000 / 4)) (Bench.Rests 0x8000)
      ⟨atRest, fun _ => 0, twoDraws, .atHead⟩ (fun n => n % 3)
      (twoDraws.foldl (fun mem d => d.writes mem) fun _ => 0) :=
  memory_passes (by decide) (by decide) (by decide) twoDraws_fit idle_atRest (fun _ _ _ => rfl)
    (fun _ => 0) fun n => n % 3

end OrpsocCores.WbBfm
