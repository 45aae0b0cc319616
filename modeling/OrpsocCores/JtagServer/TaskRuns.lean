import OrpsocCores.JtagServer.Dispatch

/-!
# Tasks from their start to their end

A task is called again and again, the time going on by one with every call, until it
returns that it is done (`Finishes`).  `risingEdges` are the calls on the way that raise
the clock, with what the pins are there.

The clock generator counts the calls with the pin high against `nb_period * tck_period`,
but its phases are one call longer than `tck_period`: it makes an edge too few for every
`tck_period + 1` periods that are asked for (`periods_iff`), and a TAP reset needs a
period of five or more.  `do_tms_seq` sends no bit of a last byte that is full
(`doTmsSeq_iff`).
-/

set_option autoImplicit false

namespace OrpsocCores.JtagServer

/-! ## Calls until a task is done -/

section Finishes

universe u v w

variable {σ : Type u} {τ : Type v}

/-- The states behind calls from a time on, the last of which is done. -/
inductive Finishes (call : Nat → σ → Status × σ) : Nat → σ → List σ → Prop
  | done {t : Nat} {s s' : σ} (last : call t s = (.done, s')) : Finishes call t s [s']
  | goesOn {t : Nat} {s s' : σ} {states : List σ} (first : call t s = (.inProgress, s'))
      (more : Finishes call (t + 1) s' states) : Finishes call t s (s' :: states)

variable {call : Nat → σ → Status × σ} {t : Nat} {s : σ} {states states' : List σ}

/-- A task takes one way to its end. -/
theorem Finishes.unique (finishes : Finishes call t s states)
    (finishes' : Finishes call t s states') : states = states' := by
  induction finishes generalizing states' with
  | done last =>
      cases finishes' with
      | done last' => rw [(Prod.mk.inj (last.symm.trans last')).2]
      | goesOn first _ => simp [last] at first
  | goesOn first _ ih =>
      cases finishes' with
      | done last' => simp [first] at last'
      | goesOn first' more' =>
          obtain rfl := (Prod.mk.inj (first.symm.trans first')).2
          rw [ih more']

/-- A map that the calls respect takes ways to ways. -/
theorem Finishes.map {call' : Nat → τ → Status × τ} (f : σ → τ)
    (respects : ∀ t s, call' t (f s) = ((call t s).1, f (call t s).2))
    (finishes : Finishes call t s states) : Finishes call' t (f s) (states.map f) := by
  induction finishes with
  | done last => exact .done (by rw [respects, last])
  | goesOn first _ ih => exact .goesOn (by rw [respects, first]) ih

/-- **The rule of runs.**  Calls that keep an invariant, and come nearer to the end with each that
does not reach it, finish; what a call adds in front of a way holds of the whole way. -/
theorem Finishes.rule {α : Type w} {I : α → Nat → σ → Prop} {P : α → Nat → σ → List σ → Prop}
    (distance : Nat → σ → Nat)
    (step : ∀ a t s, I a t s →
      (∃ s', call t s = (.done, s') ∧ P a t s [s']) ∨
      ∃ a' s', call t s = (.inProgress, s') ∧ I a' (t + 1) s' ∧
        distance (t + 1) s' < distance t s ∧
        ∀ states, P a' (t + 1) s' states → P a t s (s' :: states))
    {a : α} {t : Nat} {s : σ} (inv : I a t s) :
    ∃ states, Finishes call t s states ∧ P a t s states := by
  induction bound : distance t s using Nat.strongRecOn generalizing a t s with
  | _ n ih =>
      rcases step a t s inv with ⟨s', last, holds⟩ | ⟨a', s', first, inv', nearer, extends_⟩
      · exact ⟨[s'], .done last, holds⟩
      · obtain ⟨states, more, holds⟩ := ih _ (bound ▸ nearer) inv' rfl
        exact ⟨s' :: states, .goesOn first more, extends_ states holds⟩

end Finishes

/-- A call that raises the clock, with what the design samples there. -/
structure Rise where
  t : Nat
  edge : Edge
  deriving DecidableEq, Repr

/-- The rising edges on the way, from a call at this time. -/
def risingEdges : Nat → Pins → List Pins → List Rise
  | _, _, [] => []
  | t, pins, pins' :: more =>
      (emitted pins pins').map (Rise.mk t) ++ risingEdges (t + 1) pins' more

/-- The rising edges, without their times. -/
def edgesOn (t : Nat) (pins : Pins) (way : List Pins) : List Edge :=
  (risingEdges t pins way).map Rise.edge

@[simp] theorem edgesOn_nil (t : Nat) (pins : Pins) : edgesOn t pins [] = [] := rfl

theorem edgesOn_cons (t : Nat) (pins pins' : Pins) (way : List Pins) :
    edgesOn t pins (pins' :: way) = emitted pins pins' ++ edgesOn (t + 1) pins' way := by
  simp [edgesOn, risingEdges, Function.comp_def]

/-! ## The clock generator -/

/-- The static variables of `gen_clk`, and what its pointers point to. -/
structure Driven where
  clk : ClockGen
  tck : Bool
  capturedTdo : Byte

/-- A call of `gen_clk`. -/
def clkCall (tckPeriod nbPeriod : Nat) (tdo : Nat → Byte) (getTdo : Bool) (t : Nat) (x : Driven) :
    Status × Driven :=
  let tick := genClk tckPeriod t nbPeriod x.tck (tdo t) x.capturedTdo getTdo x.clk
  (tick.status, ⟨tick.clk, tick.tck, tick.capturedTdo⟩)

/-- How often a pin rises. -/
def rises : Bool → List Bool → Nat
  | _, [] => 0
  | tck, tck' :: more => (if tck = false ∧ tck' = true then 1 else 0) + rises tck' more

variable {tckPeriod nbPeriod t : Nat}

/-- **The clock generator finishes**, with the rising edges that are left. -/
theorem clkCall_finishes (tdo : Nat → Byte) (getTdo : Bool) (x : Driven)
    (inPhase : InPhase tckPeriod x.clk x.tck t) :
    ∃ states, Finishes (clkCall tckPeriod nbPeriod tdo getTdo) t x states ∧
      rises x.tck (states.map Driven.tck) = left tckPeriod nbPeriod x.clk := by
  refine Finishes.rule (I := fun (_ : Unit) t (x : Driven) => InPhase tckPeriod x.clk x.tck t)
    (P := fun _ _ x states =>
      rises x.tck (states.map Driven.tck) = left tckPeriod nbPeriod x.clk)
    (fun t x => patience tckPeriod nbPeriod x.clk t) ?_ (a := ()) inPhase
  intro _ t x inPhase
  rcases Nat.lt_or_ge x.clk.curPeriod (nbPeriod * tckPeriod) with more | enough
  · right
    have ticked := genClk_inProgress inPhase more (tdo t) x.capturedTdo getTdo
    refine ⟨(), _, Prod.ext ticked.status rfl, ticked.inPhase, ticked.patience, ?_⟩
    intro states rest
    rw [List.map_cons, rises, rest, ticked.left]
    rfl
  · left
    obtain ⟨clk, done⟩ : ∃ clk, genClk tckPeriod t nbPeriod x.tck (tdo t) x.capturedTdo getTdo
        x.clk = ⟨.done, clk, x.tck, x.capturedTdo⟩ := genClk_done enough _ _ _
    refine ⟨⟨clk, x.tck, x.capturedTdo⟩, by rw [clkCall, done], ?_⟩
    rw [left_done enough]
    simp [rises]

/-- As many edges as periods, unless these are more than the calls of one of them. -/
theorem clocks_eq_iff : clocks tckPeriod nbPeriod = nbPeriod ↔ nbPeriod ≤ tckPeriod := by
  rw [clocks, Nat.div_eq_iff (Nat.succ_pos tckPeriod)]
  constructor
  · rintro ⟨whole, -⟩
    rw [Nat.mul_succ] at whole
    omega
  · intro short
    rw [Nat.mul_succ]
    omega

/-- After a restart the way has the edges of all periods. -/
theorem rises_of_finishes {tdo : Nat → Byte} {getTdo : Bool} {clk : ClockGen} {tck : Bool}
    {capturedTdo : Byte} {states : List Driven}
    (finishes : Finishes (clkCall tckPeriod nbPeriod tdo getTdo) t
      ⟨genClkRestart clk, tck, capturedTdo⟩ states) :
    rises tck (states.map Driven.tck) = clocks tckPeriod nbPeriod := by
  obtain ⟨states', finishes', counted⟩ : ∃ states', Finishes
      (clkCall tckPeriod nbPeriod tdo getTdo) t ⟨genClkRestart clk, tck, capturedTdo⟩ states' ∧ _ :=
    clkCall_finishes tdo getTdo _ (InPhase.restart tckPeriod clk tck t)
  rw [finishes.unique finishes', counted, left_restart]

/-! ## `reset_tap` -/

/-- **`reset_tap` finishes**, with `TMS` high at its edges. -/
theorem resetTap_finishes (s : Server) (inPhase : InPhase tckPeriod s.clk s.pins.tck t) :
    ∃ states, Finishes (fun t s => s.resetTap tckPeriod t) t s states ∧
      edgesOn t s.pins (states.map Server.pins) =
        List.replicate (left tckPeriod 5 s.clk) ⟨true, s.pins.tdi⟩ := by
  refine Finishes.rule (I := fun (_ : Unit) t (s : Server) => InPhase tckPeriod s.clk s.pins.tck t)
    (P := fun _ t s states => edgesOn t s.pins (states.map Server.pins) =
      List.replicate (left tckPeriod 5 s.clk) ⟨true, s.pins.tdi⟩)
    (fun t s => patience tckPeriod 5 s.clk t) ?_ (a := ()) inPhase
  intro _ t s inPhase
  rcases Nat.lt_or_ge s.clk.curPeriod (5 * tckPeriod) with more | enough
  · right
    have ticked := genClk_inProgress inPhase more 0xff 0 false
    let tick := genClk tckPeriod t 5 s.pins.tck 0xff 0 false s.clk
    let s' : Server := { s with clk := tick.clk, pins := ⟨true, s.pins.tdi, tick.tck⟩ }
    have call : s.resetTap tckPeriod t = (.inProgress, s') := by
      simp only [Server.resetTap, ticked.status]
      rfl
    refine ⟨(), s', call, ticked.inPhase, ticked.patience, ?_⟩
    intro states rest
    have tdi : s'.pins.tdi = s.pins.tdi := rfl
    rw [List.map_cons, edgesOn_cons, rest, tdi, emitted, ticked.left,
      ← List.replicate_append_replicate]
    congr 1
    split
    · rfl
    · rfl
  · left
    obtain ⟨clk, done⟩ : ∃ clk, genClk tckPeriod t 5 s.pins.tck 0xff 0 false s.clk =
        ⟨.done, clk, s.pins.tck, 0⟩ := genClk_done enough _ _ _
    have call : s.resetTap tckPeriod t =
        (.done, { s with clk := genClkRestart clk, pins := { s.pins with tms := false } }) := by
      simp only [Server.resetTap, done]
    refine ⟨_, call, ?_⟩
    rw [left_done enough]
    simp [edgesOn_cons, emitted]

/-- The edges of a TAP reset after a restart. -/
theorem edgesOn_resetTap {s : Server} {states : List Server}
    (finishes : Finishes (fun t s => s.resetTap tckPeriod t) t
      { s with clk := genClkRestart s.clk } states) :
    edgesOn t s.pins (states.map Server.pins) =
      List.replicate (clocks tckPeriod 5) ⟨true, s.pins.tdi⟩ := by
  obtain ⟨states', finishes', edges⟩ := resetTap_finishes { s with clk := genClkRestart s.clk }
    (InPhase.restart tckPeriod s.clk s.pins.tck t)
  rw [left_restart] at edges
  rw [finishes.unique finishes']
  exact edges

/-- The clock generator, called from its restart on, finishes with as many rising edges as it is
asked for. -/
def MakesPeriods (tckPeriod nbPeriod : Nat) (tdo : Nat → Byte) (getTdo : Bool) (t : Nat)
    (x : Driven) : Prop :=
  ∃ states, Finishes (clkCall tckPeriod nbPeriod tdo getTdo) t
    { x with clk := genClkRestart x.clk } states ∧ rises x.tck (states.map Driven.tck) = nbPeriod

/-- A TAP reset finishes with five rising edges, with `TMS` high. -/
def ResetsTap (tckPeriod t : Nat) (s : Server) : Prop :=
  ∃ states, Finishes (fun t s => s.resetTap tckPeriod t) t
      { s with clk := genClkRestart s.clk } states ∧
    edgesOn t s.pins (states.map Server.pins) = List.replicate 5 ⟨true, s.pins.tdi⟩

/-- **The clock generator always finishes, and with as many rising edges as periods exactly when
these are at most `tck_period`; a TAP reset has its five edges from a period of five on.** -/
theorem periods_iff (tckPeriod : Nat) :
    (∀ (nbPeriod : Nat) (tdo : Nat → Byte) (getTdo : Bool) (t : Nat) (x : Driven),
      MakesPeriods tckPeriod nbPeriod tdo getTdo t x ↔ nbPeriod ≤ tckPeriod) ∧
      ∀ (t : Nat) (s : Server), ResetsTap tckPeriod t s ↔ 5 ≤ tckPeriod := by
  constructor
  · intro nbPeriod tdo getTdo t x
    constructor
    · rintro ⟨states, finishes, counted⟩
      rwa [rises_of_finishes finishes, clocks_eq_iff] at counted
    · intro short
      obtain ⟨states, finishes, -⟩ : ∃ states, Finishes (clkCall tckPeriod nbPeriod tdo getTdo) t
          { x with clk := genClkRestart x.clk } states ∧ _ :=
        clkCall_finishes tdo getTdo _ (InPhase.restart tckPeriod x.clk x.tck t)
      exact ⟨states, finishes, (rises_of_finishes finishes).trans (clocks_eq_iff.mpr short)⟩
  · intro t s
    constructor
    · rintro ⟨states, finishes, edges⟩
      rw [edgesOn_resetTap finishes] at edges
      exact clocks_eq_iff.mp (by simpa using congrArg List.length edges)
    · intro long
      obtain ⟨states, finishes, -⟩ := resetTap_finishes { s with clk := genClkRestart s.clk }
        (InPhase.restart tckPeriod s.clk s.pins.tck t)
      refine ⟨states, finishes, ?_⟩
      rw [edgesOn_resetTap finishes, clocks_eq_iff.mpr long]

/-- With a period of one a TAP reset has three edges. -/
theorem short_reset :
    ¬ ∀ tckPeriod, 0 < tckPeriod → ∀ (t : Nat) (s : Server), ResetsTap tckPeriod t s := by
  intro claim
  obtain ⟨states, finishes, edges⟩ := claim 1 (by decide) 0
    (Server.constructed noPacket false)
  rw [edgesOn_resetTap finishes] at edges
  exact absurd (congrArg List.length edges) (by decide)

/-! ## The bits of a task -/

section Bits

variable {count : Nat → Nat} {edge : Nat → Nat → Edge} {length i last : Nat}

theorem bits_cons (inside : i < length) :
    bits count edge length i 0 =
      (List.range' 0 (count i)).map (fun k => (1, edge i k)) ++
        bits count edge length (i + 1) 0 := by
  rw [bits, if_pos inside, Nat.sub_zero]
  congr 1
  rcases Nat.lt_or_ge (i + 1) length with more | end_
  · have longer : length - (i + 1) = length - (i + 1 + 1) + 1 := by omega
    rw [bits, if_pos more, longer, List.range'_succ, List.flatMap_cons, Nat.sub_zero]
  · rw [bits_end end_, Nat.sub_eq_zero_of_le end_]
    rfl

/-- The bits of a byte, by their numbers. -/
theorem range'_byte {c : Nat} (small : c ≤ 8) (f : Nat → Nat → Session) :
    (List.range' (8 * i) c).map (fun k => f (k / 8) (k % 8)) = (List.range' 0 c).map (f i) := by
  have shifted : List.range' (8 * i) c = (List.range' 0 c).map (8 * i + ·) := by
    rw [List.map_add_range', Nat.add_zero]
  rw [shifted, List.map_map]
  refine List.map_congr_left fun k inside => ?_
  have below : k < 8 := by
    have := List.mem_range'.mp inside
    omega
  have quotient : (8 * i + k) / 8 = i := by omega
  have remainder : (8 * i + k) % 8 = k := by omega
  simp only [Function.comp_apply, quotient, remainder]

/-- **All bits of full bytes and of a last one, by their numbers.** -/
theorem bits_eq (full : ∀ i, i + 1 < length → count i = 8) (rest : count (length - 1) = last)
    (small : last ≤ 8) {more : Nat} (before : i + more + 1 = length) :
    bits count edge length i 0 =
      (List.range' (8 * i) (8 * more + last)).map fun k => (1, edge (k / 8) (k % 8)) := by
  induction more generalizing i with
  | zero =>
      obtain rfl : i = length - 1 := by omega
      rw [bits_cons (by omega), bits_end (by omega), rest, List.append_nil, Nat.mul_zero,
        Nat.zero_add]
      exact (range'_byte small fun i k => (1, edge i k)).symm
  | succ more ih =>
      have split : List.range' (8 * i) (8 * (more + 1) + last) =
          List.range' (8 * i) 8 ++ List.range' (8 * (i + 1)) (8 * more + last) := by
        rw [show 8 * (more + 1) + last = 8 + (8 * more + last) by omega, ← List.range'_append_1]
        rfl
      rw [bits_cons (by omega), full i (by omega), ih (by omega), split, List.map_append]
      congr 1
      exact (range'_byte (Nat.le_refl 8) fun i k => (1, edge i k)).symm

/-- A bit has one edge. -/
theorem script_bits (positive : 0 < tckPeriod) {numbers : List Nat} (edge : Nat → Edge) :
    script tckPeriod (numbers.map fun k => (1, edge k)) = numbers.map edge := by
  have once : clocks tckPeriod 1 = 1 := clocks_eq_iff.mpr positive
  induction numbers with
  | nil => rfl
  | cons k numbers ih =>
      rw [List.map_cons, script, List.flatMap_cons, once, ← script, ih]
      rfl

end Bits

/-! ## `do_tms_seq` -/

section TmsSeq

variable {length nbBits : Int} {buffer : Vector Byte xfertMaxSize} {s : Server}

/-- **`do_tms_seq` finishes**, with the edges of its work. -/
theorem doTmsSeq_finishes (state : TmsShifting tckPeriod t length nbBits buffer s) :
    ∃ states,
      Finishes (fun t s => s.doTmsSeq tckPeriod t length nbBits buffer) t s states ∧
        edgesOn t s.pins (states.map Server.pins) =
          rest tckPeriod s.clk (tmsWork length nbBits buffer s.seq.i s.seq.j).sessions := by
  refine Finishes.rule
    (I := fun (_ : Unit) t (s : Server) => TmsShifting tckPeriod t length nbBits buffer s)
    (P := fun _ t s states => edgesOn t s.pins (states.map Server.pins) =
      rest tckPeriod s.clk (tmsWork length nbBits buffer s.seq.i s.seq.j).sessions)
    (fun t s => calls tckPeriod s.clk t (tmsWork length nbBits buffer s.seq.i s.seq.j)) ?_
    (a := ()) state
  intro _ t s state
  rcases Nat.lt_or_ge s.seq.i length.toNat with inside | outside
  · right
    obtain ⟨seq, clk, tms, tck, call, advanced, state'⟩ := doTmsSeq_call state inside
    refine ⟨(), _, call, state', advanced.sooner, ?_⟩
    intro states edges
    rw [List.map_cons, edgesOn_cons, edges]
    exact advanced.edges
  · left
    refine ⟨_, doTmsSeq_end outside, ?_⟩
    have nothing : (tmsWork length nbBits buffer s.seq.i s.seq.j).sessions = [] := bits_end outside
    simp [nothing, edgesOn_cons, emitted, rest]

/-- The server with another value on `TDI`. -/
def Server.setTdi (tdi : Bool) (s : Server) : Server :=
  { s with pins := { s.pins with tdi := tdi } }

/-- `do_tms_seq` has nothing to do with `TDI`. -/
theorem doTmsSeq_setTdi (tdi : Bool) (t : Nat) (s : Server) :
    (s.setTdi tdi).doTmsSeq tckPeriod t length nbBits buffer =
      ((s.doTmsSeq tckPeriod t length nbBits buffer).1,
        (s.doTmsSeq tckPeriod t length nbBits buffer).2.setTdi tdi) := by
  simp only [Server.doTmsSeq, Server.setTdi]
  by_cases inside : (s.seq.i : Int) < length
  · by_cases inByte : (s.seq.j : Int) < Server.tmsBitsInByte length nbBits s.seq.i
    · rcases Bool.eq_false_or_eq_true s.seq.start with start | start <;>
        simp only [inside, inByte, start, if_true, if_false, Bool.false_eq_true] <;>
        cases (genClk tckPeriod t 1 s.pins.tck 0 0 false s.clk).status <;> rfl
    · rcases Bool.eq_false_or_eq_true s.seq.start with start | start <;>
        simp only [inside, inByte, start, if_true, if_false, Bool.false_eq_true]
  · simp only [inside, if_false]

/-- Neither have the edges. -/
theorem tms_edgesOn_setTdi (tdi : Bool) (s : Server) (states : List Server) :
    (edgesOn t (s.setTdi tdi).pins
        ((states.map (Server.setTdi tdi)).map Server.pins)).map Edge.tms =
      (edgesOn t s.pins (states.map Server.pins)).map Edge.tms := by
  induction states generalizing t s with
  | nil => rfl
  | cons s' states ih =>
      have here : (emitted (s.setTdi tdi).pins (s'.setTdi tdi).pins).map Edge.tms =
          (emitted s.pins s'.pins).map Edge.tms := by
        by_cases rises : s.pins.tck = false ∧ s'.pins.tck = true
        · have fires : emitted s.pins s'.pins = [⟨s'.pins.tms, s'.pins.tdi⟩] := if_pos rises
          have fires' : emitted (s.setTdi tdi).pins (s'.setTdi tdi).pins =
            [⟨s'.pins.tms, tdi⟩] := if_pos rises
          rw [fires, fires']
          rfl
        · have still : emitted s.pins s'.pins = [] := if_neg rises
          have still' : emitted (s.setTdi tdi).pins (s'.setTdi tdi).pins = [] := if_neg rises
          rw [still, still']
      simp only [List.map_cons, edgesOn_cons, List.map_append, here, ih]

/-- `do_tms_seq` finishes with these bits on `TMS`, one at each rising edge. -/
def SendsTms (tckPeriod t : Nat) (nbBits : Nat) (buffer : Vector Byte xfertMaxSize) (s : Server) :
    Prop :=
  ∃ states,
    Finishes (fun t s => s.doTmsSeq tckPeriod t ((nbBits + 7) / 8 : Nat) nbBits buffer) t s states ∧
      (edgesOn t s.pins (states.map Server.pins)).map Edge.tms =
        (List.range nbBits).map fun k => (buffer.getD (k / 8) 0).getLsbD (k % 8)

/-- The bits that `do_tms_seq` sends: none of a last byte that is full. -/
theorem sessions_tmsWork {nbBits : Nat} (some_bits : 0 < nbBits) :
    (tmsWork ((nbBits + 7) / 8 : Nat) nbBits buffer 0 0).sessions =
      (List.range' 0 (8 * ((nbBits - 1) / 8) + nbBits % 8)).map
        fun k => (1, tmsEdge buffer (k / 8) (k % 8)) := by
  have full : ∀ i, i + 1 < (nbBits + 7) / 8 → tmsCount ((nbBits + 7) / 8 : Nat) nbBits i = 8 := by
    intro i before
    rw [tmsCount, Server.tmsBitsInByte, if_neg (by omega)]
    rfl
  have last : tmsCount ((nbBits + 7) / 8 : Nat) nbBits ((nbBits + 7) / 8 - 1) = nbBits % 8 := by
    rw [tmsCount, Server.tmsBitsInByte, if_pos (by omega), Int.tmod_eq_emod_of_nonneg (by omega)]
    omega
  exact bits_eq full last (by omega) (by omega)

/-- **What `do_tms_seq` sends.** -/
theorem doTmsSeq_sends (positive : 0 < tckPeriod) {nbBits : Nat} (some_bits : 0 < nbBits)
    (atStart : s.seq.AtStart) (resting : Resting s.clk s.pins.tck t)
    (ready : s.clk.tckLow = true ∨ t = s.clk.time + 1) :
    ∃ states,
      Finishes (fun t s => s.doTmsSeq tckPeriod t ((nbBits + 7) / 8 : Nat) nbBits buffer) t s
        states ∧
      (edgesOn t s.pins (states.map Server.pins)).map Edge.tms =
        (List.range (8 * ((nbBits - 1) / 8) + nbBits % 8)).map
          fun k => (buffer.getD (k / 8) 0).getLsbD (k % 8) := by
  obtain ⟨i, j, start⟩ := atStart
  have state : TmsShifting tckPeriod t ((nbBits + 7) / 8 : Nat) nbBits buffer (s.setTdi false) := by
    refine ⟨resting.ready ready _, ⟨fun _ => j, fun loaded => ?_, fun empty => .inl ?_⟩, rfl⟩
    · exact absurd (start.symm.trans loaded) (by simp)
    · have empty' : tmsCount ((nbBits + 7) / 8 : Nat) nbBits s.seq.i ≤ 0 := by
        have here : tmsCount ((nbBits + 7) / 8 : Nat) nbBits s.seq.i ≤ s.seq.j := empty
        omega
      change (tmsWork _ _ buffer s.seq.i s.seq.j).sessions = []
      rw [j]
      exact tmsWork_empty empty'
  obtain ⟨states, finishes, edges⟩ := doTmsSeq_finishes state
  have finishes' : Finishes
      (fun t s => s.doTmsSeq tckPeriod t ((nbBits + 7) / 8 : Nat) nbBits buffer) t
      ((s.setTdi false).setTdi s.pins.tdi) (states.map (Server.setTdi s.pins.tdi)) :=
    finishes.map (Server.setTdi s.pins.tdi) (doTmsSeq_setTdi s.pins.tdi)
  refine ⟨_, finishes', ?_⟩
  have tms : (edgesOn t s.pins ((states.map (Server.setTdi s.pins.tdi)).map Server.pins)).map
      Edge.tms = _ := tms_edgesOn_setTdi s.pins.tdi (s.setTdi false) states
  have sent : edgesOn t (s.setTdi false).pins (states.map Server.pins) =
      (List.range' 0 (8 * ((nbBits - 1) / 8) + nbBits % 8)).map
        fun k => tmsEdge buffer (k / 8) (k % 8) := by
    rw [edges]
    change rest tckPeriod s.clk (tmsWork _ _ buffer s.seq.i s.seq.j).sessions = _
    rw [i, j, rest_of_resting resting, sessions_tmsWork some_bits, script_bits positive]
  rw [tms, sent, List.map_map, List.range_eq_range']
  rfl

/-- **`do_tms_seq` sends its bits exactly when the last byte is not full.** -/
theorem doTmsSeq_iff (positive : 0 < tckPeriod) {nbBits : Nat} (some_bits : 0 < nbBits)
    (atStart : s.seq.AtStart) (resting : Resting s.clk s.pins.tck t)
    (ready : s.clk.tckLow = true ∨ t = s.clk.time + 1) :
    SendsTms tckPeriod t nbBits buffer s ↔ nbBits % 8 ≠ 0 := by
  obtain ⟨states, finishes, sent⟩ : ∃ states, Finishes
      (fun t s => s.doTmsSeq tckPeriod t ((nbBits + 7) / 8 : Nat) nbBits buffer) t s states ∧ _ :=
    doTmsSeq_sends positive some_bits atStart resting ready
  constructor
  · rintro ⟨states', finishes', bits⟩ full
    rw [finishes'.unique finishes, sent] at bits
    have lengths := congrArg List.length bits
    rw [List.length_map, List.length_map, List.length_range, List.length_range] at lengths
    omega
  · intro short
    refine ⟨states, finishes, ?_⟩
    rw [sent, show 8 * ((nbBits - 1) / 8) + nbBits % 8 = nbBits by omega]

/-- The server after its construction. -/
def idleServer : Server := Server.constructed noPacket false

theorem resting_idleServer (t : Nat) : Resting idleServer.clk idleServer.pins.tck t :=
  ⟨rfl, fun _ => rfl, fun begun => nomatch begun⟩

theorem doTmsSeq_iff_five : SendsTms 10 0 5 (Vector.replicate _ 0x15) idleServer :=
  (doTmsSeq_iff (by decide) (by decide) ⟨rfl, rfl, rfl⟩ (resting_idleServer 0) (.inl rfl)).mpr
    (by decide)

/-- A sequence of eight bits is not sent. -/
theorem full_byte_not_sent :
    ¬ ∀ (tckPeriod nbBits t : Nat) (buffer : Vector Byte xfertMaxSize) (s : Server),
      0 < tckPeriod → 0 < nbBits → s.seq.AtStart → Resting s.clk s.pins.tck t →
        (s.clk.tckLow = true ∨ t = s.clk.time + 1) → SendsTms tckPeriod t nbBits buffer s := by
  intro claim
  obtain ⟨states, finishes, bits⟩ := claim 10 8 0 (Vector.replicate _ 0x15) idleServer
    (by decide) (by decide) ⟨rfl, rfl, rfl⟩ (resting_idleServer 0) (.inl rfl)
  obtain ⟨states', finishes', sent⟩ : ∃ states', Finishes
      (fun t s => s.doTmsSeq 10 t ((8 + 7) / 8 : Nat) 8 (Vector.replicate _ 0x15)) 0 idleServer
        states' ∧ _ :=
    doTmsSeq_sends (by decide) (by decide) ⟨rfl, rfl, rfl⟩ (resting_idleServer 0) (.inl rfl)
  rw [finishes.unique finishes', sent] at bits
  exact absurd (congrArg List.length bits) (by decide)

end TmsSeq

end OrpsocCores.JtagServer
