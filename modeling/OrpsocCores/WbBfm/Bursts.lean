import Mathlib.Logic.Function.Iterate
import OrpsocCores.Foundation.Trace
import OrpsocCores.WbBfm.Model

/-!
# Bursts between the master and the memory

The master steps its address with the type of the burst.  The memory steps its own, from
the address of the first beat and with the type that the slave decodes from `wb_cti` and
`wb_bte` at that beat.  `Agree` says that after a burst both have gone through the same
addresses and that `has_next` fell with the last of them.

Between the call and the end an access is in one of a few stages, whatever the delays of
the memory: `Stage.next` moves between them, and the two models follow it edge by edge
(`At.step`).  What an access comes to is then read off the stages (`agrees_iff`): the two
agree unless a constant burst has more than one beat, as long as the memory does not
answer an address with an error.
-/

set_option autoImplicit false

namespace OrpsocCores.WbBfm

open Wishbone

variable {aw : Nat}

/-! ## What is compared -/

/-- What the two sides have gone through. -/
structure Log (aw : Nat) where
  /-- The address on the bus in every beat that the master has counted. -/
  driven : List (BitVec aw)
  /-- The address of every beat that the memory has ended, and `has_next` after it. -/
  derived : List (BitVec aw × Bool)

/-- The beat that ends at an edge, on either side. -/
def record (b : Bench aw) (_ : Inputs aw) (log : Log aw) : Log aw where
  driven :=
    if b.master.phase = .awaiting ∧ b.memory.bfm0.wbAckO = true then
      log.driven ++ [b.master.out.adr]
    else log.driven
  derived :=
    if b.memory.phase = .answering ∧ b.memory.bfm0.cycleType = .burst then
      log.derived ++ [(b.memory.address, (b.memory.bfm0.nextDone b.master.out).hasNext)]
    else log.derived

/-- Both sides have gone through the same addresses, as many as the burst has beats, and
`has_next` was true after each but the last. -/
def Log.Agree (log : Log aw) (args : Burst aw) : Prop :=
  log.derived.map Prod.fst = log.driven ∧
    log.derived.map Prod.snd =
      (List.range args.burstLengthI.toNat).map fun k => decide (k + 1 < args.burstLengthI.toNat)

/-- The inputs of `n` edges, at the first of which a burst is called. -/
def inputs (op : Bool) (args : Burst aw) (delays : Nat → Nat) (n : Nat) : List (Inputs aw) :=
  (List.range n).map fun i => ⟨if i = 0 then some (.burst op args) else none, delays i⟩

/-- The models and the log after `n` edges. -/
def run (memWords : Nat) (b : Bench aw) (op : Bool) (args : Burst aw) (delays : Nat → Nat)
    (n : Nat) : Bench aw × Log aw :=
  Trace.after (Trace.monitored (Bench.step memWords) record) (b, ⟨[], []⟩)
    (inputs op args delays n)

/-- Whatever the delays, the burst comes to an end at which the two sides agree. -/
def Agrees (memWords : Nat) (b : Bench aw) (op : Bool) (args : Burst aw) : Prop :=
  ∀ delays : Nat → Nat, ∃ n, (run memWords b op args delays n).1.Idle ∧
    (run memWords b op args delays n).2.Agree args

theorem run_succ (memWords : Nat) (b : Bench aw) (op : Bool) (args : Burst aw)
    (delays : Nat → Nat) (n : Nat) :
    run memWords b op args delays (n + 1) =
      Trace.monitored (Bench.step memWords) record (run memWords b op args delays n)
        ⟨if n = 0 then some (.burst op args) else none, delays n⟩ := by
  rw [run, inputs, List.range_succ, List.map_append, List.map_singleton, Trace.after_concat]
  rfl

namespace Burst

variable (args : Burst aw)

/-- The number of beats. -/
def beats : Nat := args.burstLengthI.toNat

/-- The address of the `k`-th beat, for the master. -/
def drives (k : Nat) : BitVec aw := (fun a => nextAddr a args.burstTypeI)^[k] args.addrI

/-- The type that the slave decodes. -/
def slaveType : BurstType :=
  if args.beats = 1 then .linear else .ofBte args.burstTypeI.bte

/-- The address of the `k`-th beat, for the memory. -/
def derives (k : Nat) : BitVec aw := (fun a => nextAddr a args.slaveType)^[k] args.addrI

@[simp] theorem drives_zero : args.drives 0 = args.addrI := rfl

@[simp] theorem derives_zero : args.derives 0 = args.addrI := rfl

theorem drives_succ (k : Nat) : args.drives (k + 1) = nextAddr (args.drives k) args.burstTypeI :=
  Function.iterate_succ_apply' _ _ _

theorem derives_succ (k : Nat) : args.derives (k + 1) = nextAddr (args.derives k) args.slaveType :=
  Function.iterate_succ_apply' _ _ _

end Burst

/-! ## Stages -/

/-- How far an access has come. -/
inductive Stage where
  /-- The slave has seen `wb_cyc_i` rise. -/
  | opened
  /-- The memory delays the `k`-th beat, a read, for `edges + 1` edges more. -/
  | delaying (k edges : Nat)
  /-- The `k`-th beat is acknowledged. -/
  | answering (k : Nat)
  /-- The `k`-th beat gets an error. -/
  | failed (k : Nat)
  /-- The slave waits for a new cycle, the master for its `k`-th beat. -/
  | stuck (k : Nat)
  | closed
  deriving DecidableEq

namespace Stage

variable (inside : Nat → Prop) [DecidablePred inside] (op : Bool) (beats : Nat)

/-- The memory at the head of its loop, before the `k`-th beat. -/
def head (k delay : Nat) : Stage :=
  if inside k then
    if op then .answering k
    else
      match delay with
      | 0 => .answering k
      | delay + 1 => .delaying k delay
  else .failed k

/-- An edge. -/
def next (delay : Nat) : Stage → Stage
  | .opened => head inside op 0 delay
  | .delaying k 0 => .answering k
  | .delaying k (edges + 1) => .delaying k edges
  | .answering k => if k + 1 < beats then head inside op (k + 1) delay else .closed
  | .failed k => .stuck k
  | .stuck k => .stuck k
  | .closed => .closed

/-- The stage `n` edges after the call. -/
def after (delays : Nat → Nat) : Nat → Stage
  | 0 => .opened
  | n + 1 => (after delays n).next inside op beats (delays (n + 1))

/-- What a stage says of the beats so far. -/
def Passed : Stage → Prop
  | .opened => True
  | .delaying k _ => k < beats ∧ ∀ j ≤ k, inside j
  | .answering k => k < beats ∧ ∀ j ≤ k, inside j
  | .failed k => k < beats
  | .stuck _ => True
  | .closed => ∀ j < beats, inside j

variable {inside op beats}

/-- What can come of a beat at the head of the loop. -/
theorem head_cases {motive : Stage → Prop} {k : Nat}
    (delaying : inside k → ∀ edges, motive (.delaying k edges))
    (answering : inside k → motive (.answering k)) (failed : motive (.failed k)) (delay : Nat) :
    motive (head inside op k delay) := by
  unfold head
  split
  case isTrue here =>
    split
    · exact answering here
    · cases delay with
      | zero => exact answering here
      | succ delay => exact delaying here delay
  case isFalse => exact failed

theorem passed_head {k : Nat} (more : k < beats) (before : ∀ j < k, inside j) (delay : Nat) :
    Passed inside beats (head inside op k delay) := by
  have upTo (here : inside k) : ∀ j ≤ k, inside j := by
    intro j le
    rcases Nat.lt_or_eq_of_le le with less | rfl
    · exact before j less
    · exact here
  exact head_cases (fun here _ => ⟨more, upTo here⟩) (fun here => ⟨more, upTo here⟩) more delay

theorem passed_next (positive : 0 < beats) (delay : Nat) {stage : Stage}
    (passed : Passed inside beats stage) :
    Passed inside beats (stage.next inside op beats delay) := by
  cases stage with
  | opened => exact passed_head positive (fun _ none => absurd none (Nat.not_lt_zero _)) delay
  | delaying k edges =>
      cases edges with
      | zero => exact passed
      | succ edges => exact passed
  | answering k =>
      rw [next]
      split
      case isTrue more =>
        exact passed_head more (fun j less => passed.2 j (Nat.le_of_lt_succ less)) delay
      case isFalse last => exact fun j less => passed.2 j (by omega)
  | failed k => trivial
  | stuck k => trivial
  | closed => exact passed

theorem passed_after (positive : 0 < beats) (delays : Nat → Nat) (n : Nat) :
    Passed inside beats (after inside op beats delays n) := by
  induction n with
  | zero => trivial
  | succ n ih => exact passed_next positive _ ih

/-- A delay ends. -/
theorem answering_of_delaying {delays : Nat → Nat} {n k edges : Nat}
    (reached : after inside op beats delays n = .delaying k edges) :
    ∃ n, after inside op beats delays n = .answering k := by
  induction edges generalizing n with
  | zero => exact ⟨n + 1, by rw [after, reached, next]⟩
  | succ edges ih => exact ih (n := n + 1) (by rw [after, reached, next])

theorem answering_of_head {delays : Nat → Nat} {n k delay : Nat} (here : inside k)
    (reached : after inside op beats delays n = head inside op k delay) :
    ∃ n, after inside op beats delays n = .answering k := by
  simp only [head, if_pos here] at reached
  split at reached
  · exact ⟨n, reached⟩
  · cases delay with
    | zero => exact ⟨n, reached⟩
    | succ delay => exact answering_of_delaying reached

/-- **An access whose beats are all inside the memory comes to its end.** -/
theorem closed_of_inside (positive : 0 < beats) (all : ∀ j < beats, inside j)
    (delays : Nat → Nat) : ∃ n, after inside op beats delays n = .closed := by
  have answered : ∀ k < beats, ∃ n, after inside op beats delays n = .answering k := by
    intro k less
    induction k with
    | zero => exact answering_of_head (n := 1) (all 0 less) rfl
    | succ k ih =>
        obtain ⟨n, reached⟩ := ih (Nat.lt_of_succ_lt less)
        exact answering_of_head (n := n + 1) (all _ less)
          (by rw [after, reached, next, if_pos less])
  obtain ⟨n, reached⟩ := answered (beats - 1) (by omega)
  exact ⟨n + 1, by rw [after, reached, next, if_neg (by omega)]⟩

end Stage

variable {memWords : Nat} {op : Bool} {args : Burst aw}

/-! ## The master's side -/

/-- The master is at the head of its loop, or in it, with its `k`-th beat. -/
structure Counting (op : Bool) (args : Burst aw) (m : Master aw) (k : Nat) : Prop where
  index : m.index = BitVec.ofNat 32 k
  addr : m.addr = args.drives k
  sameOp : m.op = op
  cycleType : m.cycleType = .burst
  burstType : m.burstType = args.burstTypeI
  burstLength : m.burstLength = args.burstLengthI
  we : m.out.we = op
  cyc : m.out.cyc = true
  bte : m.out.bte = if args.beats = 1 then .linear else args.burstTypeI.bte
  cti : k + 1 < args.beats → m.out.cti = .incBurst

/-- The master has its `k`-th beat on the bus. -/
structure Driving (op : Bool) (args : Burst aw) (m : Master aw) (k : Nat) : Prop
    extends Counting op args m k where
  phase : m.phase = .awaiting
  adr : m.out.adr = args.drives k
  endCti : k + 1 = args.beats → m.out.cti = .endBurst

theorem index_lt_iff {k : Nat} (counted : k ≤ args.beats) :
    BitVec.ofNat 32 k < args.burstLengthI ↔ k < args.beats := by
  have small : args.beats < 2 ^ 32 := args.burstLengthI.isLt
  rw [BitVec.lt_def, BitVec.toNat_ofNat, Nat.mod_eq_of_lt (by omega), Burst.beats]

theorem index_eq_iff {k : Nat} (more : k < args.beats) :
    BitVec.ofNat 32 k = args.burstLengthI - 1 ↔ k + 1 = args.beats := by
  have small : args.beats < 2 ^ 32 := args.burstLengthI.isLt
  unfold Burst.beats at *
  constructor
  · intro last
    bv_omega
  · intro last
    bv_omega

/-- The call of a burst. -/
theorem counting_of_call (op : Bool) (positive : 0 < args.beats) (m : Master aw) :
    ∃ m', m.call (.burst op args) = m'.loop ∧ Counting op args m' 0 ∧
      m'.out.sel = args.maskI ∧ m'.dataI = args.dataI := by
  let called : Master aw :=
    { m with
      addr := args.addrI, mask := args.maskI, op := op, burstLength := args.burstLengthI
      cycleType := .burst, burstType := args.burstTypeI, index := 0, dataI := args.dataI }
  have last : (0 : BitVec 32) = args.burstLengthI - 1 ↔ 0 + 1 = args.beats :=
    index_eq_iff positive
  have announced : called.initType =
      if args.beats = 1 then (.endBurst, .linear) else (.incBurst, args.burstTypeI.bte) := by
    rw [Master.initType_of_burst rfl]
    exact if_congr (last.trans eq_comm) rfl rfl
  refine ⟨called.init, rfl, ⟨rfl, rfl, rfl, rfl, rfl, rfl, rfl, rfl, ?_, ?_⟩, rfl, rfl⟩
  · show called.initType.2 = _
    rw [announced]
    split <;> rfl
  · intro more
    show called.initType.1 = _
    rw [announced, if_neg (by omega)]

namespace Counting

variable {m : Master aw} {k : Nat}

theorem loop_eq (counting : Counting op args m k) (more : k < args.beats) :
    m.loop = { m with data := if m.op then m.dataI m.index else m.data }.next := by
  have less : m.index < m.burstLength := by
    rw [counting.index, counting.burstLength]
    exact (index_lt_iff (Nat.le_of_lt more)).mpr more
  exact if_pos less

/-- A beat to come goes on the bus. -/
theorem loop (counting : Counting op args m k) (more : k < args.beats) :
    Driving op args m.loop k := by
  have last : m.index = m.burstLength - 1 ↔ k + 1 = args.beats := by
    rw [counting.index, counting.burstLength]
    exact index_eq_iff more
  have next := counting.loop_eq more
  have cti : m.loop.out.cti = if k + 1 = args.beats then .endBurst else m.out.cti := by
    rw [next]
    simp only [Master.next, counting.cycleType, last, true_and]
  constructor
  · constructor
    case cti =>
      intro more
      rw [cti, if_neg (Nat.ne_of_lt more), counting.cti more]
    all_goals rw [next]
    · exact counting.index
    · exact counting.addr
    · exact counting.sameOp
    · exact counting.cycleType
    · exact counting.burstType
    · exact counting.burstLength
    · exact counting.we
    · exact counting.cyc
    · exact counting.bte
  · rw [next]
    rfl
  · rw [next]
    exact counting.addr
  · intro isLast
    rw [cti, if_pos isLast]

/-- After the last beat the task ends. -/
theorem loop_end (counting : Counting op args m args.beats) :
    m.loop.phase = .idle ∧ m.loop.out.cyc = false := by
  have done : ¬ m.index < m.burstLength := by
    rw [counting.index, counting.burstLength, index_lt_iff (Nat.le_refl _)]
    exact Nat.lt_irrefl _
  have finish : m.loop = m.finish := if_neg done
  rw [finish]
  exact ⟨rfl, rfl⟩

end Counting

namespace Driving

variable {m : Master aw} {k : Nat}

theorem edge_unacked (driving : Driving op args m k) (request : Option (Request aw))
    (datI : BitVec 32) : m.edge request false datI = m := by
  simp [Master.edge, driving.phase, driving.cycleType]

theorem edge_acked (driving : Driving op args m k) (request : Option (Request aw))
    (datI : BitVec 32) : m.edge request true datI = (m.beat datI).loop := by
  simp [Master.edge, driving.phase, driving.cycleType]

/-- A beat of the burst is counted. -/
theorem beat (driving : Driving op args m k) (datI : BitVec 32) :
    Counting op args (m.beat datI) (k + 1) where
  index := by
    show m.index + 1 = _
    rw [driving.index, BitVec.ofNat_add]
    rfl
  addr := by
    show nextAddr m.addr m.burstType = _
    rw [driving.addr, driving.burstType, Burst.drives_succ]
  sameOp := driving.sameOp
  cycleType := driving.cycleType
  burstType := driving.burstType
  burstLength := driving.burstLength
  we := driving.we
  cyc := driving.cyc
  bte := driving.bte
  cti := by
    intro later
    exact driving.cti (by omega)

end Driving

/-! ## The memory's side -/

/-- The memory has the `k`-th beat of the burst to answer. -/
structure Serving (op : Bool) (args : Burst aw) (m : BfmMemory aw) (k : Nat) : Prop where
  hasNext : m.bfm0.hasNext = true
  sameOp : m.bfm0.op = op
  cycleType : m.bfm0.cycleType = .burst
  burstType : m.bfm0.burstType = args.slaveType
  err : m.bfm0.err = false
  address : m.address = args.derives k

/-- The memory at a stage of the access. -/
def Stands (op : Bool) (args : Burst aw) (m : BfmMemory aw) : Stage → Prop
  | .opened => m.phase = .caught ∧ m.bfm0.wbAckO = false ∧ m.bfm0.err = false
  | .delaying k edges =>
      Serving op args m k ∧ m.phase = .delaying edges ∧ m.bfm0.wbAckO = false
  | .answering k => Serving op args m k ∧ m.phase = .answering ∧ m.bfm0.wbAckO = true
  | .failed _ =>
      m.bfm0.cycleType = .burst ∧ m.bfm0.err = true ∧ m.phase = .answering ∧
        m.bfm0.wbAckO = false
  | .stuck _ => m.phase = .catching ∧ m.bfm0.wbAckO = false ∧ m.bfm0.err = false
  | .closed => m.phase = .catching ∧ m.bfm0.wbAckO = false ∧ m.bfm0.err = false

/-- The next stage, as the memory's range makes it. -/
abbrev stageNext (memWords : Nat) (op : Bool) (args : Burst aw) (delay : Nat) (stage : Stage) :
    Stage :=
  stage.next (fun k => Inside memWords (args.derives k)) op args.beats delay

namespace Serving

variable {m : BfmMemory aw} {k : Nat}

/-- Data and phase are not looked at. -/
theorem congr (serving : Serving op args m k) {m' : BfmMemory aw} (bfm0 : m'.bfm0 = m.bfm0)
    (address : m'.address = m.address) : Serving op args m' k := by
  constructor
  case address => exact address.trans serving.address
  all_goals rw [bfm0]
  · exact serving.hasNext
  · exact serving.sameOp
  · exact serving.cycleType
  · exact serving.burstType
  · exact serving.err

/-- An acknowledged beat, with any data. -/
theorem acked (serving : Serving op args m k) (data : BitVec 32) :
    Stands op args { m with bfm0 := { m.bfm0 with data := data }.next, phase := .answering }
      (.answering k) := by
  refine ⟨⟨?_, serving.sameOp, serving.cycleType, serving.burstType, serving.err,
    serving.address⟩, rfl, ?_⟩
  · show (!m.bfm0.err && m.bfm0.hasNext) = true
    rw [serving.err, serving.hasNext]
    rfl
  · show (!m.bfm0.err) = true
    rw [serving.err]
    rfl

/-- The head of the loop, with a beat to answer. -/
theorem loop (serving : Serving op args m k) (unacked : m.bfm0.wbAckO = false) (delay : Nat) :
    Stands op args (m.loop memWords delay)
      (Stage.head (fun k => Inside memWords (args.derives k)) op k delay) := by
  unfold Stage.head
  beta_reduce
  rw [← serving.address]
  by_cases here : Inside memWords m.address
  · rw [if_pos here]
    cases op with
    | true =>
        have write : m.loop memWords delay =
            { m with bfm0 := m.bfm0.next, phase := .answering } := by
          simp only [BfmMemory.loop, serving.hasNext, here, serving.sameOp, if_true]
        rw [write]
        exact serving.acked m.bfm0.data
    | false =>
        let fetched := { m with data := merge m.bfm0.mask (m.mem (wordOf m.address)) 0 }
        have read : Serving false args fetched k := serving.congr rfl rfl
        cases delay with
        | zero =>
            have atOnce : m.loop memWords 0 = fetched.readAck := by
              simp only [BfmMemory.loop, serving.hasNext, here, serving.sameOp, if_true,
                Bool.false_eq_true, if_false, fetched]
            rw [atOnce]
            exact read.acked _
        | succ delay =>
            have later : m.loop memWords (delay + 1) =
                { fetched with phase := .delaying delay } := by
              simp only [BfmMemory.loop, serving.hasNext, here, serving.sameOp, if_true,
                Bool.false_eq_true, if_false, fetched]
            rw [later]
            exact ⟨read.congr rfl rfl, rfl, unacked⟩
  · have error : m.loop memWords delay =
        { m with bfm0 := { m.bfm0 with err := true }.next, phase := .answering } := by
      simp only [BfmMemory.loop, serving.hasNext, here, if_true, if_false]
    rw [if_neg here, error]
    exact ⟨serving.cycleType, rfl, rfl, rfl⟩

/-- The cycle is decoded at its first beat. -/
theorem of_decode {master : Master aw} (driving : Driving op args master 0)
    (err : m.bfm0.err = false) (positive : 0 < args.beats) :
    Serving op args
      { m with
        bfm0 := m.bfm0.decode master.out, address := (m.bfm0.decode master.out).address } 0 := by
  have burst : getCycleType master.out.cti = .burst := by
    by_cases one : 0 + 1 = args.beats
    · rw [driving.endCti one]
      rfl
    · rw [driving.cti (by omega)]
      rfl
  refine ⟨rfl, driving.we, burst, ?_, err, driving.adr⟩
  show (if getCycleType master.out.cti = .burst then
      if master.out.cti = .incBurst then BurstType.ofBte master.out.bte else .linear
    else m.bfm0.burstType) = args.slaveType
  rw [if_pos burst, Burst.slaveType, driving.bte]
  by_cases one : args.beats = 1
  · rw [driving.endCti one.symm, if_pos one, if_pos one, if_neg (by decide)]
  · rw [driving.cti (by omega), if_neg one, if_neg one, if_pos rfl]

/-- The end of a beat that others follow. -/
theorem beatDone (serving : Serving op args m k) {master : Master aw}
    (driving : Driving op args master k) (more : k + 1 < args.beats) :
    Serving op args (m.beatDone memWords master.out) (k + 1) := by
  refine ⟨?_, serving.sameOp, serving.cycleType, serving.burstType, rfl, ?_⟩
  · show (!isLast master.out.cti && !m.bfm0.err) = true
    rw [serving.err, driving.cti more]
    rfl
  · show (if m.bfm0.cycleType = .burst then nextAddr m.address m.bfm0.burstType else m.address) = _
    rw [if_pos serving.cycleType, serving.address, serving.burstType, Burst.derives_succ]

end Serving

/-- The head of the loop, with nothing to answer. -/
theorem loop_of_not_hasNext (op : Bool) (args : Burst aw) {m : BfmMemory aw}
    (none : m.bfm0.hasNext = false) (err : m.bfm0.err = false) (delay : Nat) :
    Stands op args (m.loop memWords delay) .closed := by
  have release : m.loop memWords delay = { m with bfm0 := m.bfm0.release, phase := .catching } :=
    if_neg (by simp [none])
  rw [release]
  exact ⟨rfl, rfl, err⟩

/-- The memory after a beat that the master has counted. -/
theorem Serving.edge {m : BfmMemory aw} {k : Nat} (serving : Serving op args m k)
    (phase : m.phase = .answering) {master : Master aw} (driving : Driving op args master k)
    (counted : k < args.beats) (delay : Nat) :
    Stands op args (m.edge memWords master.out delay)
      (stageNext memWords op args delay (.answering k)) := by
  have edge : m.edge memWords master.out delay =
      (m.beatDone memWords master.out).loop memWords delay := by
    simp only [BfmMemory.edge, phase, serving.cycleType, if_true]
  rw [edge, stageNext, Stage.next]
  split
  case isTrue more => exact (serving.beatDone driving more).loop rfl delay
  case isFalse last =>
    apply loop_of_not_hasNext op args _ rfl
    show (!isLast master.out.cti && !m.bfm0.err) = false
    rw [driving.endCti (by omega)]
    rfl

/-- Between the edges of a burst the memory does nothing. -/
theorem Stands.settle {m : BfmMemory aw} {stage : Stage} (stands : Stands op args m stage)
    {before after : Bus aw} (noRise : before.cyc = true ∨ after.cyc = false) (delay : Nat) :
    m.settle memWords before after delay = m := by
  have quiet : m.phase = .catching → m.settle memWords before after delay = m := by
    intro phase
    rcases noRise with high | low
    · simp [BfmMemory.settle, phase, high]
    · simp [BfmMemory.settle, phase, low]
  have unanswered : m.phase = .answering → m.bfm0.cycleType = .burst →
      m.settle memWords before after delay = m := by
    intro phase burst
    simp [BfmMemory.settle, phase, burst]
  cases stage with
  | opened => simp [BfmMemory.settle, stands.1]
  | delaying k edges => simp [BfmMemory.settle, stands.2.1]
  | answering k => exact unanswered stands.2.1 stands.1.cycleType
  | failed k => exact unanswered stands.2.2.1 stands.1
  | stuck k => exact quiet stands.1
  | closed => exact quiet stands.1

/-! ## Both sides -/

/-- The master at a stage of the access. -/
def Drives (op : Bool) (args : Burst aw) (m : Master aw) : Stage → Prop
  | .opened => Driving op args m 0
  | .delaying k _ => Driving op args m k
  | .answering k => Driving op args m k
  | .failed k => Driving op args m k
  | .stuck k => Driving op args m k
  | .closed => m.phase = .idle ∧ m.out.cyc = false

/-- `k` beats have been logged. -/
structure Logged (args : Burst aw) (log : Log aw) (k : Nat) : Prop where
  driven : log.driven = (List.range k).map args.drives
  derived : log.derived =
    (List.range k).map fun i => (args.derives i, decide (i + 1 < args.beats))

/-- The log at a stage of the access; it does not matter any more when the access is
stuck. -/
def LoggedAt (args : Burst aw) (log : Log aw) : Stage → Prop
  | .opened => Logged args log 0
  | .delaying k _ => Logged args log k
  | .answering k => Logged args log k
  | .failed k => Logged args log k
  | .stuck _ => True
  | .closed => Logged args log args.beats

/-- The models follow the stages. -/
structure At (op : Bool) (args : Burst aw) (x : Bench aw × Log aw)
    (stage : Stage) : Prop where
  memory : Stands op args x.1.memory stage
  master : Drives op args x.1.master stage
  log : LoggedAt args x.2 stage

theorem drives_head {m : Master aw} {k : Nat} (driving : Driving op args m k)
    (inside : Nat → Prop) [DecidablePred inside] (delay : Nat) :
    Drives op args m (Stage.head inside op k delay) :=
  Stage.head_cases (fun _ _ => driving) (fun _ => driving) driving delay

theorem loggedAt_head {log : Log aw} {k : Nat} (logged : Logged args log k)
    (inside : Nat → Prop) [DecidablePred inside] (delay : Nat) :
    LoggedAt args log (Stage.head inside op k delay) :=
  Stage.head_cases (fun _ _ => logged) (fun _ => logged) logged delay

theorem Drives.notReleasing {m : Master aw} {stage : Stage} (drives : Drives op args m stage) :
    m.phase ≠ .releasing := by
  cases stage with
  | closed =>
      rw [drives.1]
      exact MasterPhase.noConfusion
  | _ =>
      rw [Driving.phase drives]
      exact MasterPhase.noConfusion

/-- Passed stages, for this memory. -/
abbrev StagePassed (memWords : Nat) (args : Burst aw) (stage : Stage) : Prop :=
  stage.Passed (fun k => Inside memWords (args.derives k)) args.beats

section

variable {master : Master aw} {m : BfmMemory aw} {stage : Stage}

/-- The memory's edge follows the stages. -/
theorem Stands.edge (stands : Stands op args m stage) (drives : Drives op args master stage)
    (positive : 0 < args.beats) (passed : StagePassed memWords args stage) (delay : Nat) :
    Stands op args (m.edge memWords master.out delay)
      (stageNext memWords op args delay stage) := by
  cases stage with
  | opened =>
      obtain ⟨phase, unacked, err⟩ := stands
      have driving : Driving op args master 0 := drives
      have serving := Serving.of_decode (m := m) driving err positive
      have edge : m.edge memWords master.out delay =
          { m with
            bfm0 := m.bfm0.decode master.out
            address := (m.bfm0.decode master.out).address }.loop memWords delay := by
        simp only [BfmMemory.edge, phase, driving.cyc, if_true]
      rw [edge]
      exact serving.loop unacked delay
  | delaying k edges =>
      obtain ⟨serving, phase, unacked⟩ := stands
      cases edges with
      | zero =>
          have edge : m.edge memWords master.out delay = m.readAck := by
            simp only [BfmMemory.edge, phase]
          rw [edge]
          exact serving.acked _
      | succ edges =>
          have edge : m.edge memWords master.out delay =
              { m with phase := .delaying edges } := by
            simp only [BfmMemory.edge, phase]
          rw [edge]
          exact ⟨serving.congr rfl rfl, rfl, unacked⟩
  | answering k => exact stands.1.edge stands.2.1 drives passed.1 delay
  | failed k =>
      obtain ⟨cycleType, err, phase, -⟩ := stands
      have edge : m.edge memWords master.out delay =
          (m.beatDone memWords master.out).loop memWords delay := by
        simp only [BfmMemory.edge, phase, cycleType, if_true]
      rw [edge]
      refine loop_of_not_hasNext op args ?_ rfl delay
      show (!isLast master.out.cti && !m.bfm0.err) = false
      rw [err, Bool.not_true, Bool.and_false]
  | stuck k =>
      have edge : m.edge memWords master.out delay = m := by
        simp only [BfmMemory.edge, stands.1]
      rw [edge]
      exact stands
  | closed =>
      have edge : m.edge memWords master.out delay = m := by
        simp only [BfmMemory.edge, stands.1]
      rw [edge]
      exact stands

/-- The master's edge follows the stages. -/
theorem Drives.edge (drives : Drives op args master stage) (stands : Stands op args m stage)
    (passed : StagePassed memWords args stage) (delay : Nat) :
    Drives op args (master.edge none m.bfm0.wbAckO m.bfm0.wbDatO)
      (stageNext memWords op args delay stage) := by
  cases stage with
  | opened =>
      rw [stands.2.1, Driving.edge_unacked drives, stageNext, Stage.next]
      exact drives_head drives _ delay
  | delaying k edges =>
      rw [stands.2.2, Driving.edge_unacked drives]
      cases edges with
      | zero => exact drives
      | succ edges => exact drives
  | answering k =>
      rw [stands.2.2, Driving.edge_acked drives]
      have counting := Driving.beat drives m.bfm0.wbDatO
      rw [stageNext, Stage.next]
      split
      case isTrue more => exact drives_head (counting.loop more) _ delay
      case isFalse last =>
        have all : k + 1 = args.beats := Nat.le_antisymm passed.1 (Nat.le_of_not_lt last)
        rw [all] at counting
        exact counting.loop_end
  | failed k =>
      rw [stands.2.2.2, Driving.edge_unacked drives]
      exact drives
  | stuck k =>
      rw [stands.2.1, Driving.edge_unacked drives]
      exact drives
  | closed =>
      have edge : master.edge none m.bfm0.wbAckO m.bfm0.wbDatO = master := by
        simp only [Master.edge, drives.1]
      rw [edge]
      exact drives

end

/-- The log follows the stages. -/
theorem record_at {b : Bench aw} {log : Log aw} {stage : Stage}
    (stands : Stands op args b.memory stage) (drives : Drives op args b.master stage)
    (logged : LoggedAt args log stage) (passed : StagePassed memWords args stage)
    (i : Inputs aw) (delay : Nat) :
    LoggedAt args (record b i log) (stageNext memWords op args delay stage) := by
  -- without an acknowledge and outside of `next` nothing is recorded
  have unchanged : b.memory.bfm0.wbAckO = false → b.memory.phase ≠ .answering →
      record b i log = log := by
    intro unacked silent
    simp [record, unacked, silent]
  cases stage with
  | opened =>
      rw [unchanged stands.2.1 (by simp [stands.1]), stageNext, Stage.next]
      exact loggedAt_head logged _ delay
  | delaying k edges =>
      rw [unchanged stands.2.2 (by simp [stands.2.1])]
      cases edges with
      | zero => exact logged
      | succ edges => exact logged
  | answering k =>
      obtain ⟨serving, phase, acked⟩ := stands
      have driving : Driving op args b.master k := drives
      have counted : k < args.beats := passed.1
      have hasNext : (b.memory.bfm0.nextDone b.master.out).hasNext =
          decide (k + 1 < args.beats) := by
        show (!isLast b.master.out.cti && !b.memory.bfm0.err) = _
        rw [serving.err]
        by_cases more : k + 1 < args.beats
        · rw [driving.cti more, decide_eq_true more]
          rfl
        · rw [driving.endCti (by omega), decide_eq_false more]
          rfl
      have both : Logged args (record b i log) (k + 1) := by
        constructor
        · simp only [record, driving.phase, acked, driving.adr, and_self, if_true,
            Logged.driven logged, List.range_succ, List.map_append, List.map_singleton]
        · simp only [record, phase, serving.cycleType, serving.address, hasNext, and_self, if_true,
            Logged.derived logged, List.range_succ, List.map_append, List.map_singleton]
      rw [stageNext, Stage.next]
      split
      case isTrue more => exact loggedAt_head both _ delay
      case isFalse last =>
        have all : k + 1 = args.beats := Nat.le_antisymm counted (Nat.le_of_not_lt last)
        rw [all] at both
        exact both
  | failed k => trivial
  | stuck k => trivial
  | closed =>
      have idle : record b i log = log := by
        simp [record, drives.1, stands.1]
      rw [idle]
      exact logged

/-- An edge of the bench, when nothing is triggered before the next one. -/
theorem Bench.step_eq {b : Bench aw} {i : Inputs aw} {stage : Stage}
    (stands : Stands op args (b.memory.edge memWords b.master.out i.delay) stage)
    (drives :
      Drives op args (b.master.edge i.request b.memory.bfm0.wbAckO b.memory.bfm0.wbDatO) stage)
    (noRise : b.master.out.cyc = true ∨
      (b.master.edge i.request b.memory.bfm0.wbAckO b.memory.bfm0.wbDatO).out.cyc = false) :
    b.step memWords i =
      ⟨b.master.edge i.request b.memory.bfm0.wbAckO b.memory.bfm0.wbDatO,
        b.memory.edge memWords b.master.out i.delay⟩ := by
  simp only [Bench.step, stands.settle noRise]
  congr 1
  exact if_neg fun h => drives.notReleasing h.1

/-- **Edge by edge the two models follow the stages.** -/
theorem At.step {x : Bench aw × Log aw} {stage : Stage} (reached : At op args x stage)
    (positive : 0 < args.beats) (passed : StagePassed memWords args stage) (delay : Nat) :
    At op args (Trace.monitored (Bench.step memWords) record x ⟨none, delay⟩)
      (stageNext memWords op args delay stage) := by
  have memory := reached.memory.edge reached.master positive passed delay
  have master := reached.master.edge reached.memory passed delay
  have noRise : x.1.master.out.cyc = true ∨
      (x.1.master.edge none x.1.memory.bfm0.wbAckO x.1.memory.bfm0.wbDatO).out.cyc = false := by
    cases stage with
    | closed => exact .inr master.2
    | _ => exact .inl (Counting.cyc (Driving.toCounting reached.master))
  have step := Bench.step_eq (i := ⟨none, delay⟩) memory master noRise
  refine ⟨?_, ?_,
    record_at reached.memory reached.master reached.log passed ⟨none, delay⟩ delay⟩
  · rw [Trace.monitored, step]
    exact memory
  · rw [Trace.monitored, step]
    exact master

/-- The call opens the access. -/
theorem At.call {b : Bench aw} (idle : b.Idle) (positive : 0 < args.beats) (delay : Nat) :
    At op args
      (Trace.monitored (Bench.step memWords) record (b, ⟨[], []⟩)
        ⟨some (.burst op args), delay⟩)
      .opened := by
  obtain ⟨m, loop, counting, -⟩ := counting_of_call op positive b.master
  have driving : Driving op args m.loop 0 := counting.loop positive
  have master : b.master.edge (some (.burst op args)) b.memory.bfm0.wbAckO b.memory.bfm0.wbDatO =
      m.loop := by
    simp only [Master.edge, idle.phase, loop]
  have memory : b.memory.edge memWords b.master.out delay = b.memory := by
    simp only [BfmMemory.edge, idle.catching]
  have caught : b.memory.settle memWords b.master.out m.loop.out delay =
      { b.memory with phase := .caught } := by
    simp [BfmMemory.settle, idle.catching, idle.cyc, driving.cyc]
  have settled (ackI errI : Bool) : m.loop.settle b.memory.bfm0.wbAckO ackI errI = m.loop :=
    if_neg fun h => Drives.notReleasing (show Drives op args m.loop .opened from driving) h.1
  have step : b.step memWords ⟨some (.burst op args), delay⟩ =
      ⟨m.loop, { b.memory with phase := .caught }⟩ := by
    simp only [Bench.step, master, memory, caught, settled]
  refine ⟨?_, ?_, ?_⟩
  · rw [Trace.monitored, step]
    exact ⟨rfl, idle.ack, idle.err⟩
  · rw [Trace.monitored, step]
    exact driving
  · have nothing : record b ⟨some (.burst op args), delay⟩ ⟨[], []⟩ = ⟨[], []⟩ := by
      simp [record, idle.phase, idle.catching]
    rw [Trace.monitored, nothing]
    exact ⟨rfl, rfl⟩

/-! ## Whole bursts -/

/-- The stage `n` edges after the call, for this memory. -/
abbrev stageAfter (memWords : Nat) (op : Bool) (args : Burst aw) (delays : Nat → Nat) (n : Nat) :
    Stage :=
  Stage.after (fun k => Inside memWords (args.derives k)) op args.beats delays n

theorem stagePassed_after (memWords : Nat) (op : Bool) (positive : 0 < args.beats)
    (delays : Nat → Nat) (n : Nat) :
    StagePassed memWords args (stageAfter memWords op args delays n) :=
  Stage.passed_after positive delays n

/-- **A run of the models goes through the stages.** -/
theorem run_at (memWords : Nat) (op : Bool) {b : Bench aw} (idle : b.Idle)
    (positive : 0 < args.beats) (delays : Nat → Nat) (n : Nat) :
    At op args (run memWords b op args delays (n + 1)) (stageAfter memWords op args delays n) := by
  induction n with
  | zero => exact At.call idle positive (delays 0)
  | succ n ih =>
      rw [run_succ, if_neg (Nat.succ_ne_zero n)]
      exact ih.step positive (stagePassed_after memWords op positive delays n) (delays (n + 1))

/-- When the master is idle again, the access has come to its end. -/
theorem Drives.closed_of_idle {m : Master aw} {stage : Stage} (drives : Drives op args m stage)
    (phase : m.phase = .idle) : stage = .closed := by
  cases stage with
  | closed => rfl
  | _ =>
      have awaiting := Driving.phase drives
      rw [phase] at awaiting
      exact MasterPhase.noConfusion awaiting

theorem Logged.agree_iff {log : Log aw} (logged : Logged args log args.beats) :
    log.Agree args ↔ ∀ k < args.beats, args.derives k = args.drives k := by
  rw [Log.Agree, logged.driven, logged.derived, List.map_map, List.map_map]
  constructor
  · rintro ⟨addresses, -⟩ k less
    exact List.map_inj_left.mp addresses k (List.mem_range.mpr less)
  · intro same
    exact ⟨List.map_inj_left.mpr fun k member => same k (List.mem_range.mp member), rfl⟩

/-- The two agree if they step through the same addresses, all of them inside the
memory. -/
theorem agrees_iff_addresses (memWords : Nat) (op : Bool) {b : Bench aw} (idle : b.Idle)
    (positive : 0 < args.beats) :
    Agrees memWords b op args ↔
      (∀ k < args.beats, args.derives k = args.drives k) ∧
        ∀ k < args.beats, Inside memWords (args.derives k) := by
  constructor
  · intro agrees
    obtain ⟨n, idleAgain, agree⟩ := agrees fun _ => 0
    cases n with
    | zero =>
        -- before the call nothing is logged
        have none := congrArg List.length agree.2
        rw [List.length_map, List.length_map, List.length_range] at none
        exact absurd none (Nat.ne_of_lt positive)
    | succ n =>
        have reached := run_at memWords op idle positive (fun _ => 0) n
        have passed := stagePassed_after memWords op positive (fun _ => 0) n
        have logged := reached.log
        rw [reached.master.closed_of_idle idleAgain.phase] at logged passed
        exact ⟨(Logged.agree_iff logged).mp agree, passed⟩
  · rintro ⟨same, inside⟩ delays
    obtain ⟨n, closed⟩ : ∃ n, stageAfter memWords op args delays n = .closed :=
      Stage.closed_of_inside positive inside delays
    have reached := run_at memWords op idle positive delays n
    rw [closed] at reached
    obtain ⟨memory, master, logged⟩ := reached
    exact ⟨n + 1, ⟨master.1, master.2, memory.1, memory.2.1, memory.2.2⟩,
      (Logged.agree_iff logged).mpr same⟩

/-- The slave never decodes a constant burst, which differs from the second beat on. -/
theorem derives_eq_drives_iff (wide : 32 ≤ aw) (positive : 0 < args.beats) :
    (∀ k < args.beats, args.derives k = args.drives k) ↔
      args.burstTypeI ≠ .constant ∨ args.beats = 1 := by
  constructor
  · intro same
    by_cases one : args.beats = 1
    · exact .inr one
    · refine .inl fun constant => ?_
      have second := same 1 (by omega)
      rw [Burst.derives_succ, Burst.drives_succ, Burst.derives_zero, Burst.drives_zero,
        Burst.slaveType, if_neg one, constant] at second
      have moved : args.addrI + 4 = args.addrI := second
      have four : (4 : BitVec aw).toNat = 4 := by
        have large : 2 ^ 3 ≤ 2 ^ aw := Nat.pow_le_pow_right (by decide) (by omega)
        show 4 % 2 ^ aw = 4
        exact Nat.mod_eq_of_lt (by omega)
      have value := congrArg BitVec.toNat (BitVec.add_right_eq_self.mp moved)
      rw [four] at value
      exact absurd value (by simp)
  · intro condition k less
    by_cases one : args.beats = 1
    · have first : k = 0 := by omega
      rw [first, Burst.derives_zero, Burst.drives_zero]
    · have moves : args.burstTypeI ≠ .constant := condition.resolve_right one
      have type : args.slaveType = args.burstTypeI := by
        rw [Burst.slaveType, if_neg one, BurstType.ofBte_bte moves]
      rw [Burst.derives, type, Burst.drives]

/-- **The master and the memory agree on a burst if and only if it is not a constant burst
of more than one beat, as long as all its beats are inside the memory.** -/
theorem agrees_iff (memWords : Nat) (b : Bench aw) (op : Bool) (args : Burst aw)
    (wide : 32 ≤ aw) (idle : b.Idle) (positive : 0 < args.burstLengthI.toNat) :
    Agrees memWords b op args ↔
      (args.burstTypeI ≠ .constant ∨ args.burstLengthI.toNat = 1) ∧
        ∀ k < args.burstLengthI.toNat, Inside memWords (args.drives k) := by
  rw [agrees_iff_addresses memWords op idle positive, derives_eq_drives_iff wide positive]
  refine and_congr_right fun condition => forall₂_congr fun k less => ?_
  rw [(derives_eq_drives_iff wide positive).mpr condition k less]

/-- The bench after the reset of the master, with an empty memory. -/
def atRest : Bench 32 where
  master :=
    ⟨0, 0, 0, 0, false, .classic, .linear, 0, fun _ => 0, fun _ => 0, false, .idle, Pins.idle⟩
  memory :=
    ⟨⟨false, false, 0, 0, 0, .classic, .linear, false, 0, false, false⟩, 0, 0, fun _ => 0,
      .catching⟩

theorem idle_atRest : atRest.Idle := ⟨rfl, rfl, rfl, rfl, rfl⟩

theorem agrees_wrapBurst :
    Agrees 8192 atRest true ⟨0x18, fun i => i, 0xf, 5, .wrap4⟩ :=
  (agrees_iff 8192 atRest true ⟨0x18, fun i => i, 0xf, 5, .wrap4⟩ (by decide) idle_atRest
    (by decide)).mpr ⟨.inl (by decide), by decide⟩

/-- The memory steps on through a constant burst. -/
theorem constantBurst_disagrees :
    ¬ Agrees 8192 atRest true ⟨0x10, fun i => i, 0xf, 2, .constant⟩ := by
  rw [agrees_iff_addresses 8192 true idle_atRest (by decide)]
  rintro ⟨same, -⟩
  exact absurd (same 1 (by decide)) (by decide)

end OrpsocCores.WbBfm
