import OrpsocCores.WbBfm.Fixture
import OrpsocCores.WbRam.Refinement

/-!
# The test bench of the on-chip RAM

`wb_ram_tb.v` connects `wb_bfm_transactor` to `wb_ram`, with the low bits of the address.
The master of the transactor keeps to the protocol that the refinement of the RAM asks for
(`Taking.step`), and the RAM acknowledges every beat by its second cycle, so that the two
serve the transactor (`serves_ram`).

`ram_passes`: for every depth, a run of any number of transactions inside the RAM comes to
`done`, and no comparison on the way fails.
-/

set_option autoImplicit false

namespace OrpsocCores.WbRam

open Wishbone AlignedBlock
open WbBfm (Burst Words Carrying Counting Driving Draw Fixture Request Serves Transactor)

variable {aw n : Nat}

/-! ## The bench -/

/-- What the RAM sees of the master's signals. -/
def dutBus (out : WbBfm.Bus aw) : Bus n :=
  ⟨out.adr.setWidth (n + 2), out.dat, out.sel, out.we, out.cyc, out.stb, out.cti, out.bte⟩

/-- The master of the transactor and the RAM. -/
structure Bench (aw n : Nat) where
  master : WbBfm.Master aw
  dut : State n

/-- `posedge wb_clk`, with `wb_rst` released. -/
def Bench.step (x : Bench aw n) (request : Option (Request aw)) : Bench aw n :=
  let dut := x.dut.step ⟨false, dutBus x.master.out⟩
  { master :=
      (x.master.edge request x.dut.wbAckO x.dut.wbDatO).settle x.dut.wbAckO dut.wbAckO false
    dut := dut }

/-- The bench has no inputs. -/
def ramFixture (aw n : Nat) : Fixture aw (Bench aw n) Unit where
  master := Bench.master
  step x request _ := x.step request

/-! ## The array and the words -/

/-- The RAM has these words. -/
def Shows (array : BitVec n → BitVec 32) (mem : Words aw) : Prop :=
  ∀ a : BitVec aw, a.toNat % 4 = 0 → a.toNat < 2 ^ (n + 2) →
    array (wordOf (a.setWidth (n + 2))) = mem a

theorem toNat_wordOf_setWidth {a : BitVec aw} (below : a.toNat < 2 ^ (n + 2)) :
    (wordOf (a.setWidth (n + 2))).toNat = a.toNat / 4 := by
  rw [toNat_wordOf, BitVec.toNat_setWidth, Nat.mod_eq_of_lt below]

theorem Shows.update {array : BitVec n → BitVec 32} {mem : Words aw} (shows : Shows array mem)
    {a : BitVec aw} (aligned : a.toNat % 4 = 0) (below : a.toNat < 2 ^ (n + 2))
    (word : BitVec 32) :
    Shows (Function.update array (wordOf (a.setWidth (n + 2))) word)
      (Function.update mem a word) := by
  intro a' aligned' below'
  by_cases same : a' = a
  · rw [same, Function.update_self, Function.update_self]
  · have apart : wordOf (a'.setWidth (n + 2)) ≠ wordOf (a.setWidth (n + 2)) := by
      intro words
      have places := congrArg BitVec.toNat words
      rw [toNat_wordOf_setWidth below, toNat_wordOf_setWidth below'] at places
      exact same (BitVec.eq_of_toNat_eq (by omega))
    rw [Function.update_of_ne same, Function.update_of_ne apart, shows a' aligned' below']

/-! ## The protocol -/

/-- A burst that moves on goes to the word that its type prescribes. -/
theorem nextWord_bte (wide : 6 ≤ aw) {burstType : WbBfm.BurstType}
    (moves : burstType ≠ .constant) {word : Nat} (inside : word < 2 ^ (aw - 2)) :
    burstType.bte.nextWord word % 2 ^ (aw - 2) = next (burstType.blockWords aw) word := by
  have small {k : Nat} (few : k ≤ 4) :
      word / 2 ^ k * 2 ^ k + (word + 1) % 2 ^ k < 2 ^ (aw - 2) := by
    obtain ⟨blocks, space⟩ : 2 ^ k ∣ 2 ^ (aw - 2) := Nat.pow_dvd_pow 2 (by omega)
    have place := Nat.mod_lt (word + 1) (Nat.two_pow_pos k)
    have block : word / 2 ^ k + 1 ≤ blocks := by
      rw [Nat.succ_le_iff, Nat.div_lt_iff_lt_mul (Nat.two_pow_pos k), Nat.mul_comm, ← space]
      exact inside
    calc word / 2 ^ k * 2 ^ k + (word + 1) % 2 ^ k
        < (word / 2 ^ k + 1) * 2 ^ k := by rw [Nat.add_one_mul]; omega
      _ ≤ blocks * 2 ^ k := Nat.mul_le_mul_right _ block
      _ = 2 ^ (aw - 2) := by rw [Nat.mul_comm, space]
  cases burstType with
  | linear =>
      show (word + 1) % 2 ^ (aw - 2) = word / 2 ^ (aw - 2) * 2 ^ (aw - 2) + _
      rw [Nat.div_eq_of_lt inside, Nat.zero_mul, Nat.zero_add]
      rfl
  | wrap4 => exact Nat.mod_eq_of_lt (small (by decide : 2 ≤ 4))
  | wrap8 => exact Nat.mod_eq_of_lt (small (by decide : 3 ≤ 4))
  | wrap16 => exact Nat.mod_eq_of_lt (small (by decide : 4 ≤ 4))
  | constant => exact absurd rfl moves

variable {op : Bool} {args : Burst aw} {before : Words aw} {k : Nat}

/-- The beat behind another one of a burst is the one that the burst prescribes. -/
theorem continues_of_driving (integer : n + 2 ≤ 32) (wide : 32 ≤ aw)
    (plain : args.Plain (2 ^ (n + 2))) {m m' : WbBfm.Master aw} (driving : Driving op args m k)
    (driving' : Driving op args m' (k + 1)) (more : k + 1 < args.beats) :
    (dutBus m.out : Bus n).Continues (dutBus m'.out) := by
  have cti : m.out.cti = .incBurst := driving.cti more
  have bte : m.out.bte = args.burstTypeI.bte := by rw [driving.bte, if_neg (by omega)]
  refine ⟨driving'.we.trans driving.we.symm, driving'.bte.trans driving.bte.symm, ?_, ?_⟩
  · by_cases last : k + 1 + 1 = args.beats
    · exact .inr (driving'.endCti last)
    · exact .inl ((driving'.cti (by omega)).trans cti.symm)
  · have below := plain.below k (by omega)
    have below' := plain.below (k + 1) more
    have aligned := WbBfm.drives_aligned (by omega) plain.aligned k
    have space : 2 ^ (n + 2) = 4 * 2 ^ n := by rw [Nat.pow_add, Nat.mul_comm]
    have divides : 2 ^ n ∣ 2 ^ (aw - 2) := Nat.pow_dvd_pow 2 (by omega)
    have word : (args.drives (k + 1)).toNat =
        4 * next (args.burstTypeI.blockWords aw) ((args.drives k).toNat / 4) := by
      rw [WbBfm.Burst.drives_succ, WbBfm.toNat_nextAddr (by omega) aligned]
    show (m'.out.adr.setWidth (n + 2)).toNat / 4 =
      m.out.cti.nextWord m.out.bte ((m.out.adr.setWidth (n + 2)).toNat / 4) % 2 ^ n
    rw [driving'.adr, driving.adr, BitVec.toNat_setWidth, BitVec.toNat_setWidth,
      Nat.mod_eq_of_lt below, Nat.mod_eq_of_lt below', cti, bte, Cti.nextWord, if_pos rfl,
      ← Nat.mod_mod_of_dvd _ divides,
      nextWord_bte (by omega) plain.moves (WbBfm.word_lt (by omega) _), word,
      Nat.mul_div_cancel_left _ (by decide)]
    exact (Nat.mod_eq_of_lt (by omega)).symm

/-! ## A burst on the RAM -/

/-- The master and the RAM behind `k` beats of a burst. -/
structure Taking (op : Bool) (args : Burst aw) (before : Words aw) (x : Bench aw n) (k : Nat) :
    Prop where
  bound : k ≤ args.beats
  carrying : k < args.beats → Carrying op args x.master k
  finished : k = args.beats → x.master.phase = .idle ∧ x.master.out.cyc = false
  follows : ∃ j, Ahead x.dut j ∧ Master (x.dut, j) ⟨false, dutBus x.master.out⟩
  mem : Shows x.dut.mem (if op then args.writes before k else before)
  dataO : op = false → ∀ j < k, x.master.dataO (BitVec.ofNat 32 j) = args.reads before j

variable {x : Bench aw n}

/-- Nothing is triggered between two edges of a burst. -/
theorem Bench.step_eq (request : Option (Request aw))
    (quiet : (x.master.edge request x.dut.wbAckO x.dut.wbDatO).phase ≠ .releasing) :
    x.step request = ⟨x.master.edge request x.dut.wbAckO x.dut.wbDatO,
      x.dut.step ⟨false, dutBus x.master.out⟩⟩ := by
  rw [Bench.step]
  congr 1
  exact if_neg fun h => quiet h.1

namespace Taking

theorem valid (taking : Taking op args before x k) (more : k < args.beats) :
    (dutBus x.master.out : Bus n).valid = true := by
  have carrying := taking.carrying more
  show (x.master.out.cyc && x.master.out.stb) = true
  rw [carrying.cyc, carrying.stb]
  rfl

/-- The beat waits for the ack, which comes in the next cycle. -/
theorem step_waiting (integer : n + 2 ≤ 32) (taking : Taking op args before x k)
    (more : k < args.beats) (waits : x.dut.wbAckO = false) :
    Taking op args before (x.step none) k ∧ (x.step none).dut.wbAckO = true := by
  have carrying := taking.carrying more
  have valid := taking.valid more
  obtain ⟨j, ahead, master⟩ := taking.follows
  have silent : x.dut.acks (dutBus x.master.out) = false := by
    rw [State.acks, waits, Bool.and_false]
  have edge : x.master.edge none x.dut.wbAckO x.dut.wbDatO = x.master := by
    rw [waits, carrying.edge_unacked]
  have step : x.step none = ⟨x.master, x.dut.step ⟨false, dutBus x.master.out⟩⟩ := by
    rw [Bench.step_eq none (by rw [edge, carrying.phase]; exact WbBfm.MasterPhase.noConfusion), edge]
  have kept : (x.dut.step ⟨false, dutBus x.master.out⟩).mem = x.dut.mem :=
    mem_step_of_not_write (by rw [silent]; rfl)
  rw [step]
  refine ⟨⟨taking.bound, taking.carrying, taking.finished,
    ⟨_, ahead.step integer master, rfl, ?_⟩, ?_, taking.dataO⟩, ?_⟩
  · rintro l recorded
    obtain rfl := Option.some.inj recorded
    intro _ _
    rw [if_neg (by rw [silent]; exact Bool.false_ne_true)]
  · rw [kept]
    exact taking.mem
  · rw [wbAckO_step rfl, valid, silent]
    exact Bool.or_true _

/-- The word that an acknowledged read shows. -/
theorem wbDatO_eq (taking : Taking op args before x k) (plain : args.Plain (2 ^ (n + 2)))
    (wide : 32 ≤ aw) (more : k < args.beats) (acked : x.dut.wbAckO = true) (reads : op = false) :
    x.dut.wbDatO = args.reads before k := by
  have carrying := taking.carrying more
  obtain ⟨j, ahead, master⟩ := taking.follows
  have acks : x.dut.acks (dutBus x.master.out) = true := by
    rw [State.acks, taking.valid more, acked]
    rfl
  have refines := ahead.refines master
  have shown : x.dut.wbDatO = x.dut.mem (wordOf (dutBus x.master.out).adr) := by
    refine eq_of_lane_eq fun b => ?_
    rw [refines.read acks (carrying.we.trans reads), ← refines.memory]
  have mem := taking.mem
  rw [reads] at mem
  rw [shown, Burst.reads, plain.full, merge_full]
  show x.dut.mem (wordOf (x.master.out.adr.setWidth (n + 2))) = _
  rw [carrying.adr]
  exact mem _ (WbBfm.drives_aligned (by omega) plain.aligned k) (plain.below k more)

/-- The array behind an acknowledged beat. -/
theorem mem_step (taking : Taking op args before x k) (plain : args.Plain (2 ^ (n + 2)))
    (wide : 32 ≤ aw) (more : k < args.beats) (acked : x.dut.wbAckO = true) :
    Shows (x.dut.step ⟨false, dutBus x.master.out⟩).mem
      (if op then args.writes before (k + 1) else before) := by
  have carrying := taking.carrying more
  obtain ⟨j, ahead, master⟩ := taking.follows
  have acks : x.dut.acks (dutBus x.master.out) = true := by
    rw [State.acks, taking.valid more, acked]
    rfl
  have aligned := WbBfm.drives_aligned (by omega) plain.aligned k
  have mem := taking.mem
  cases op with
  | false =>
      rw [mem_step_of_not_write (by rw [acks]; exact carrying.we)]
      exact mem
  | true =>
      have writes : x.dut.ramWe (dutBus x.master.out) = true := by
        rw [ramWe_eq, acks]
        exact carrying.we
      show Shows (x.dut.memAfter (dutBus x.master.out)) _
      rw [State.memAfter, if_pos writes, ahead.adrR_eq master acks]
      show Shows (Function.update x.dut.mem (wordOf (x.master.out.adr.setWidth (n + 2)))
        (merge x.master.out.sel x.master.out.dat
          (x.dut.mem (wordOf (x.master.out.adr.setWidth (n + 2)))))) _
      rw [carrying.adr, carrying.sel, carrying.dat, mem _ aligned (plain.below k more)]
      exact mem.update aligned (plain.below k more) _

/-- **An acknowledged beat is taken**, and the master goes on as the RAM expects. -/
theorem step_acked (integer : n + 2 ≤ 32) (wide : 32 ≤ aw) (plain : args.Plain (2 ^ (n + 2)))
    (taking : Taking op args before x k) (more : k < args.beats) (acked : x.dut.wbAckO = true) :
    Taking op args before (x.step none) (k + 1) := by
  have carrying := taking.carrying more
  obtain ⟨j, ahead, master⟩ := taking.follows
  have acks : x.dut.acks (dutBus x.master.out) = true := by
    rw [State.acks, taking.valid more, acked]
    rfl
  have edge : x.master.edge none x.dut.wbAckO x.dut.wbDatO = (x.master.beat x.dut.wbDatO).loop := by
    rw [acked, carrying.edge_acked]
  have counting : Counting op args (x.master.beat x.dut.wbDatO) (k + 1) := carrying.beat _
  have going (further : k + 1 < args.beats) :
      Carrying op args (x.master.beat x.dut.wbDatO).loop (k + 1) :=
    counting.carrying further carrying.sel carrying.dataI
  have ended (last : k + 1 = args.beats) :
      (x.master.beat x.dut.wbDatO).loop.phase = .idle ∧
        (x.master.beat x.dut.wbDatO).loop.out.cyc = false := by
    rw [last] at counting
    exact counting.loop_end
  have step : x.step none = ⟨(x.master.beat x.dut.wbDatO).loop,
      x.dut.step ⟨false, dutBus x.master.out⟩⟩ := by
    rw [Bench.step_eq none, edge]
    rw [edge]
    rcases Nat.lt_or_eq_of_le (Nat.succ_le_of_lt more) with further | last
    · rw [(going further).phase]
      exact WbBfm.MasterPhase.noConfusion
    · rw [(ended last).1]
      exact WbBfm.MasterPhase.noConfusion
  rw [step]
  refine ⟨more, going, ended, ⟨_, ahead.step integer master, rfl, ?_⟩,
    taking.mem_step plain wide more acked, ?_⟩
  · rintro l recorded
    obtain rfl := Option.some.inj recorded
    intro _ valid
    rw [if_pos acks]
    rcases Nat.lt_or_eq_of_le (Nat.succ_le_of_lt more) with further | last
    · exact .inr (continues_of_driving integer wide plain carrying.toDriving
        (going further).toDriving further)
    · have gone : (x.master.beat x.dut.wbDatO).loop.out.cyc = true :=
        (Bool.and_eq_true_iff.mp valid).1
      rw [(ended last).2] at gone
      cases gone
  · intro reads i less
    have bound : args.beats < 2 ^ 32 := args.burstLengthI.isLt
    show (x.master.beat x.dut.wbDatO).loop.dataO _ = _
    rw [WbBfm.Master.loop_dataO]
    show (if x.master.op then x.master.dataO
      else Function.update x.master.dataO x.master.index x.dut.wbDatO) _ = _
    rw [carrying.sameOp, carrying.index, reads, if_neg Bool.false_ne_true]
    rcases Nat.lt_or_eq_of_le (Nat.le_of_lt_succ less) with earlier | rfl
    · rw [Function.update_of_ne (WbBfm.ofNat_ne (by omega) (by omega) (Nat.ne_of_lt earlier))]
      exact taking.dataO reads i earlier
    · rw [Function.update_self]
      exact taking.wbDatO_eq plain wide more acked reads

end Taking

/-! ## Whole bursts -/

/-- No access is going on, and the RAM has these words. -/
structure Bench.Rests (x : Bench aw n) (mem : Words aw) : Prop where
  idle : x.master.phase = .idle
  cyc : x.master.out.cyc = false
  follows : ∃ j, Ahead x.dut j ∧ Master (x.dut, j) ⟨false, dutBus x.master.out⟩
  shows : Shows x.dut.mem mem

variable {mem : Words aw}

/-- What a cycle without a request leaves to the next one. -/
theorem Bench.Rests.quiet (integer : n + 2 ≤ 32) (rests : x.Rests mem) (bus : Bus n) :
    (∃ j, Ahead (x.dut.step ⟨false, dutBus x.master.out⟩) j ∧
        Master (x.dut.step ⟨false, dutBus x.master.out⟩, j) ⟨false, bus⟩) ∧
      Shows (x.dut.step ⟨false, dutBus x.master.out⟩).mem mem := by
  obtain ⟨j, ahead, master⟩ := rests.follows
  have invalid : (dutBus x.master.out : Bus n).valid = false := by
    show (x.master.out.cyc && x.master.out.stb) = false
    rw [rests.cyc]
    rfl
  refine ⟨⟨_, ahead.step integer master, rfl, ?_⟩, ?_⟩
  · rintro l recorded
    obtain rfl := Option.some.inj recorded
    intro valid
    rw [invalid] at valid
    cases valid
  · rw [mem_step_of_not_write (by rw [State.acks, invalid]; rfl)]
    exact rests.shows

theorem Bench.Rests.waits (integer : n + 2 ≤ 32) (rests : x.Rests mem) :
    (x.step none).Rests mem := by
  have edge : x.master.edge none x.dut.wbAckO x.dut.wbDatO = x.master := by
    simp only [WbBfm.Master.edge, rests.idle]
  have step : x.step none = ⟨x.master, x.dut.step ⟨false, dutBus x.master.out⟩⟩ := by
    rw [Bench.step_eq none (by rw [edge, rests.idle]; exact WbBfm.MasterPhase.noConfusion), edge]
  obtain ⟨follows, shows⟩ := rests.quiet integer (dutBus x.master.out)
  rw [step]
  exact ⟨rests.idle, rests.cyc, follows, shows⟩

/-- The call of a burst. -/
theorem Bench.Rests.call (integer : n + 2 ≤ 32) (rests : x.Rests mem) (op : Bool)
    (positive : 0 < args.beats) : Taking op args mem (x.step (some (.burst op args))) 0 := by
  obtain ⟨m, loop, counting, sel, dataI⟩ := WbBfm.counting_of_call op positive x.master
  have carrying : Carrying op args m.loop 0 := counting.carrying positive sel dataI
  have edge : x.master.edge (some (.burst op args)) x.dut.wbAckO x.dut.wbDatO = m.loop := by
    simp only [WbBfm.Master.edge, rests.idle, loop]
  have step : x.step (some (.burst op args)) =
      ⟨m.loop, x.dut.step ⟨false, dutBus x.master.out⟩⟩ := by
    rw [Bench.step_eq _ (by rw [edge, carrying.phase]; exact WbBfm.MasterPhase.noConfusion), edge]
  obtain ⟨follows, shows⟩ := rests.quiet integer (dutBus m.loop.out)
  rw [step]
  refine ⟨Nat.zero_le _, fun _ => carrying, fun none => absurd none (Nat.ne_of_lt positive), follows,
    ?_, fun _ i less => absurd less (Nat.not_lt_zero i)⟩
  cases op with
  | false => exact shows
  | true => exact shows

/-- **Every beat of a burst is taken**, each by its second cycle; the master is busy until
then. -/
theorem burst_reaches (integer : n + 2 ≤ 32) (wide : 32 ≤ aw) (plain : args.Plain (2 ^ (n + 2)))
    (op : Bool) (rests : x.Rests mem) (inputs : Nat → Unit) (counted : k ≤ args.beats) :
    ∃ i, Taking op args mem ((ramFixture aw n).burst op args x inputs i) k ∧
      ∀ i' < i, ((ramFixture aw n).burst op args x inputs i').master.phase ≠ .idle := by
  induction k with
  | zero =>
      exact ⟨0, rests.call integer op plain.positive, fun _ none => absurd none (Nat.not_lt_zero _)⟩
  | succ k ih =>
      obtain ⟨i, taking, busy⟩ := ih (Nat.le_of_succ_le counted)
      have awaiting {y : Bench aw n} (taking : Taking op args mem y k) :
          y.master.phase ≠ .idle := by
        rw [(taking.carrying counted).phase]
        exact WbBfm.MasterPhase.noConfusion
      cases acked : ((ramFixture aw n).burst op args x inputs i).dut.wbAckO with
      | true =>
          refine ⟨i + 1, taking.step_acked integer wide plain counted acked, fun i' less => ?_⟩
          rcases Nat.lt_or_eq_of_le (Nat.le_of_lt_succ less) with earlier | rfl
          · exact busy i' earlier
          · exact awaiting taking
      | false =>
          obtain ⟨taking', acked'⟩ := taking.step_waiting integer counted acked
          refine ⟨i + 2, taking'.step_acked integer wide plain counted acked', fun i' less => ?_⟩
          rcases Nat.lt_or_ge i' i with earlier | later
          · exact busy i' earlier
          · rcases Nat.lt_or_eq_of_le later with second | rfl
            · rw [show i' = i + 1 by omega]
              exact awaiting taking'
            · exact awaiting taking

/-- **The master and the RAM serve the transactor.** -/
theorem serves_ram (integer : n + 2 ≤ 32) (wide : 32 ≤ aw) :
    Serves (ramFixture aw n) (2 ^ (n + 2)) Bench.Rests where
  idle rests := rests.idle
  waits rests _ := rests.waits integer
  performs := by
    intro x mem op args rests plain inputs
    obtain ⟨i, taking, busy⟩ := burst_reaches integer wide plain op rests inputs (Nat.le_refl _)
    obtain ⟨idle, cyc⟩ := taking.finished rfl
    exact ⟨i, busy, ⟨idle, cyc, taking.follows, taking.mem⟩, taking.dataO⟩

/-- **The bench of the RAM passes.**  For every depth, every contents of the RAM and every list
of transactions inside it, no comparison of the transactor fails, the run comes to `done`, and
then the RAM has what the transactions have written in their order. -/
theorem ram_passes (integer : n + 2 ≤ 32) (wide : 32 ≤ aw) {draws : List (Draw aw)}
    (fits : ∀ d ∈ draws, d.Fits (2 ^ (n + 2))) {m : WbBfm.Master aw} {s : State n}
    (idle : m.phase = .idle) (cyc : m.out.cyc = false) (settled : Settled s)
    (shows : Shows s.mem mem) (expected : BitVec 32 → BitVec 32) :
    Transactor.Passes (ramFixture aw n) Bench.Rests ⟨⟨m, s⟩, expected, draws, .atHead⟩ (fun _ => ())
      (draws.foldl (fun mem d => d.writes mem) mem) := by
  let t : Transactor aw (Bench aw n) := ⟨⟨m, s⟩, expected, draws, .atHead⟩
  have start : t.proceed ((ramFixture aw n).master t.system) = t.head := rfl
  have rests : t.system.Rests mem :=
    ⟨idle, cyc, ⟨_, settled.ahead, rfl, fun l none => by cases none⟩, shows⟩
  exact Transactor.passes wide (serves_ram integer wide) fits rests start rfl _

/-- Six words round a block of eight, then the last word of the RAM. -/
def ramDraws : List (Draw 32) :=
  [⟨0x38, fun word => word, 6, .wrap8⟩, ⟨0xfc, fun word => word + 7, 1, .linear⟩]

/-- A RAM of 256 bytes after reset. -/
def clearedRam : State 6 := ⟨0, false, true, false, fun _ => 0, 0⟩

theorem ram_passes_ramDraws :
    Transactor.Passes (ramFixture 32 6) Bench.Rests
      ⟨⟨WbBfm.atRest.master, clearedRam⟩, fun _ => 0, ramDraws, .atHead⟩ (fun _ => ())
      (ramDraws.foldl (fun mem d => d.writes mem) fun _ => 0) := by
  refine ram_passes (by decide) (by decide) ?_ rfl rfl ⟨rfl, rfl⟩ (fun _ _ _ => rfl) fun _ => 0
  intro d drawn
  rcases List.mem_pair.mp drawn with rfl | rfl
  · exact ⟨by decide, by decide, by decide, by decide, by decide⟩
  · exact ⟨by decide, by decide, by decide, by decide, by decide⟩

end OrpsocCores.WbRam
