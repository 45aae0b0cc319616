import Mathlib.Data.Fintype.Option
import OrpsocCores.Foundation.Rotation
import OrpsocCores.RamWb.Model

/-!
# Which port has the RAM

`last_selected` is there to let the ports take turns.  Read as a ring, port 1 comes
after port 0, port 2 after port 1, and port 0 after port 2: a pick in turn brings the
holder strictly nearer to every port that waits, so that no port is picked twice
meanwhile.

The arbitration terms keep to the turn only in part.  A term lets a port in as soon as
one of the two others is quiet, whichever port was selected last; and with all three
requesting, port 0 follows port 1.  `passesOver` names these cycles.  Port 0 has none
of them; the two others can wait forever.
-/

set_option autoImplicit false

namespace OrpsocCores.RamWb

open Rotation

variable {aw m : Nat}

/-- With these requests and this `last_selected` the terms do not come to port `i` when
it is its turn. -/
def outOfTurn (i : Fin 3) (last : BitVec 3) (cyc0 cyc1 cyc2 : Bool) : Bool :=
  match i with
  | 0 => false
  | 1 => last.getLsbD 0 && cyc0 && !cyc2
  | 2 => last.getLsbD 0 && cyc0 && !cyc1 || last.getLsbD 1 && (cyc0 || cyc1)

namespace State

/-- The port is selected after the edge and was not before it. -/
def newlySelects (s : State m) (c : Inputs aw) (j : Fin 3) : Bool :=
  !s.inputSelect.getLsbD j && (s.step c).inputSelect.getLsbD j

/-- How often port `j` is newly selected until port `i` is. -/
def grantsBefore (i j : Fin 3) : State m → List (Inputs aw) → Nat
  | _, [] => 0
  | s, c :: run =>
      if s.inputSelect.getLsbD i then 0
      else (if s.newlySelects c j then 1 else 0) + grantsBefore i j (s.step c) run

/-- The cycles in which the arbitration terms let another port in although it is the
turn of port `i`. -/
def passesOver (i : Fin 3) (s : State m) (c : Inputs aw) : Bool :=
  s.inputSelect == 0 && outOfTurn i s.lastSelected (c.bus 0).cyc (c.bus 1).cyc (c.bus 2).cyc

end State

/-! ## One pick -/

/-- The select code of the last port, if there was one since the reset. -/
def codeOf (last : Option (Fin 3)) : BitVec 3 := last.elim 0 oneHot

/-- The port that the terms pick among the requests. -/
def winner (last : Option (Fin 3)) (cyc0 cyc1 cyc2 : Bool) : Option (Fin 3) :=
  if cyc0 && (last == some 1 || last == some 2 || !cyc1 || !cyc2) then some 0
  else if cyc1 && (last == some 0 || last == some 2 || !cyc0 || !cyc2) then some 1
  else if cyc2 && (last == some 0 || last == some 1 || !cyc0 || !cyc1) then some 2
  else none

/-- How far the last port is from port `i` on the ring; a port that was last itself
has the whole way to go. -/
def wayTo (i : Fin 3) : Option (Fin 3) → Nat
  | none => 3
  | some last => if last = i then 3 else dist i last

/-- The registers name the port that was selected last; it may have released the RAM. -/
structure Holds (s : State m) (last : Option (Fin 3)) : Prop where
  lastSelected : s.lastSelected = codeOf last
  inputSelect : s.inputSelect = 0 ∨ s.inputSelect = codeOf last

/-- A pick that is not out of turn is port `i` itself or nearer to it than the last. -/
theorem winner_nearer : ∀ (i d : Fin 3) (last : Option (Fin 3)) (cyc0 cyc1 cyc2 : Bool),
    outOfTurn i (codeOf last) cyc0 cyc1 cyc2 = false →
      (match i with | 0 => cyc0 | 1 => cyc1 | 2 => cyc2) = true →
        winner last cyc0 cyc1 cyc2 = some d → d = i ∨ dist i d < wayTo i last := by
  decide

variable {s : State m} {c : Inputs aw} {last : Option (Fin 3)} {i j : Fin 3}

theorem getLsbD_codeOf (last : Option (Fin 3)) (j : Fin 3) :
    (codeOf last).getLsbD j = (last == some j) := by
  cases last with
  | none => simp [codeOf]
  | some l =>
      rw [codeOf, Option.elim_some, getLsbD_oneHot]
      by_cases same : l = j
      · simp [same]
      · simp [same]

/-- A free RAM goes to the winner. -/
theorem State.picks_of_free (holds : Holds s last) (free : s.inputSelect = 0) :
    s.picks c = (winner last (c.bus 0).cyc (c.bus 1).cyc (c.bus 2).cyc).map oneHot := by
  have bit : ∀ j : Fin 3, s.lastSelected.getLsbD j = (last == some j) := fun j => by
    rw [holds.lastSelected, getLsbD_codeOf]
  simp only [State.picks, State.arbFor, bit, free, winner]
  simp only [show (0 : BitVec 3) != BitVec.allOnes 3 from rfl, Bool.true_and, beq_self_eq_true,
    Bool.and_true]
  split
  case isTrue => rfl
  case isFalse =>
      split
      case isTrue => rfl
      case isFalse =>
          split
          case isTrue => rfl
          case isFalse => rfl

/-- A selected RAM is not given away. -/
theorem State.picks_of_taken (taken : s.inputSelect ≠ 0) : s.picks c = none := by
  have busy : (s.inputSelect == 0) = false := beq_false_of_ne taken
  simp only [State.picks, State.arbFor, busy, Bool.and_false, Bool.false_eq_true, if_false]

/-- **An edge keeps the holder, or it hands a free RAM to the winner.** -/
theorem Holds.step (holds : Holds s last) (running : c.wbRstI = false) :
    (Holds (s.step c) last ∧ ∀ j, s.newlySelects c j = false) ∨
      ∃ d, s.inputSelect = 0 ∧ winner last (c.bus 0).cyc (c.bus 1).cyc (c.bus 2).cyc = some d ∧
        Holds (s.step c) (some d) ∧ ∀ j, s.newlySelects c j = (d == j) := by
  by_cases free : s.inputSelect = 0
  · have stays : s.releases c = false := by simp [State.releases, free]
    have picks := State.picks_of_free (c := c) holds free
    cases found : winner last (c.bus 0).cyc (c.bus 1).cyc (c.bus 2).cyc with
    | none =>
        rw [found] at picks
        refine Or.inl ⟨⟨?_, Or.inl ?_⟩, fun j => ?_⟩
        · simp [State.step, running, picks, holds.lastSelected]
        · simp [State.step, running, picks, stays, free]
        · simp [State.newlySelects, State.step, running, picks, stays, free]
    | some d =>
        rw [found] at picks
        have selected : (s.step c).inputSelect = oneHot d := by
          simp [State.step, running, picks, stays]
        refine Or.inr ⟨d, free, rfl, ⟨?_, Or.inr selected⟩, fun j => ?_⟩
        · simp [State.step, running, picks, codeOf]
        · rw [State.newlySelects, selected, free, getLsbD_oneHot]
          simp
          rfl
  · have picks := State.picks_of_taken (c := c) free
    have kept : s.inputSelect = codeOf last := holds.inputSelect.resolve_left free
    refine Or.inl ⟨⟨?_, ?_⟩, fun j => ?_⟩
    · simp [State.step, running, picks, holds.lastSelected]
    · by_cases released : s.releases c = true
      · exact Or.inl (by simp [State.step, running, picks, released])
      · exact Or.inr (by simp [State.step, running, picks, released, kept])
    · by_cases released : s.releases c = true
      · simp [State.newlySelects, State.step, running, picks, released]
      · simp [State.newlySelects, State.step, running, picks, released]

/-! ## Runs -/

theorem holds_of_reset (s : State m) (bus : Fin 3 → Wishbone.Pins aw 32 4) :
    Holds (s.step ⟨true, bus⟩) none := ⟨rfl, Or.inl rfl⟩

/-- From a reset on, the registers name the port that was selected last. -/
theorem holds_after (s : State m) (bus : Fin 3 → Wishbone.Pins aw 32 4) (run : List (Inputs aw)) :
    ∃ last, Holds (Trace.after State.step (s.step ⟨true, bus⟩) run) last := by
  have start : ∃ last, Holds (s.step ⟨true, bus⟩) last := ⟨none, holds_of_reset s bus⟩
  generalize s.step ⟨true, bus⟩ = t at start ⊢
  induction run generalizing t with
  | nil => exact start
  | cons c run ih =>
      obtain ⟨last, holds⟩ := start
      apply ih
      cases running : c.wbRstI with
      | true =>
          obtain ⟨_, bus'⟩ := c
          obtain rfl : _ = true := running
          exact ⟨none, holds_of_reset t bus'⟩
      | false =>
          rcases holds.step running with ⟨kept, -⟩ | ⟨d, -, -, given, -⟩
          · exact ⟨last, kept⟩
          · exact ⟨some d, given⟩

theorem grantsBefore_of_selected (selected : s.inputSelect.getLsbD i = true)
    (run : List (Inputs aw)) : s.grantsBefore i j run = 0 := by
  cases run with
  | nil => rfl
  | cons c run => rw [State.grantsBefore, if_pos selected]

/-- The winner of a cycle that does not pass over the waiting port `i`. -/
theorem winner_of_not_passesOver {d : Fin 3} (holds : Holds s last) (free : s.inputSelect = 0)
    (waits : (c.bus i).cyc = true) (inTurn : s.passesOver i c = false)
    (found : winner last (c.bus 0).cyc (c.bus 1).cyc (c.bus 2).cyc = some d) :
    d = i ∨ dist i d < wayTo i last := by
  apply winner_nearer i d last _ _ _ _ _ found
  · simpa [State.passesOver, free, holds.lastSelected] using inTurn
  · match i with
    | 0 => exact waits
    | 1 => exact waits
    | 2 => exact waits

/-- While port `i` waits and is not passed over, only ports that lie between the last
one and port `i` are newly selected, each once. -/
theorem Holds.grantsBefore_le (holds : Holds s last) (other : j ≠ i) {run : List (Inputs aw)}
    (waits : ∀ c ∈ run, c.wbRstI = false ∧ (c.bus i).cyc = true)
    (inTurn : Trace.Always State.step (fun s c => s.passesOver i c = false) s run) :
    s.grantsBefore i j run ≤ if dist i j < wayTo i last then 1 else 0 := by
  induction run generalizing s last with
  | nil => exact Nat.zero_le _
  | cons c run ih =>
      obtain ⟨running, waiting⟩ := waits c List.mem_cons_self
      have later := fun c member => waits c (List.mem_cons_of_mem _ member)
      rw [State.grantsBefore]
      split
      case isTrue => exact Nat.zero_le _
      case isFalse =>
          rcases holds.step running with ⟨kept, none⟩ | ⟨d, free, found, given, news⟩
          · rw [none j]
            simpa using ih kept later inTurn.2
          · by_cases own : d = i
            · -- port `i` itself is picked, and nothing is counted from here on
              subst own
              have selected : (s.step c).inputSelect.getLsbD d = true := by
                have picked := news d
                rw [State.newlySelects, beq_self_eq_true, Bool.and_eq_true] at picked
                exact picked.2
              rw [news j, grantsBefore_of_selected selected]
              simp [Ne.symm other]
            · have near := (winner_of_not_passesOver holds free waiting inTurn.1 found).resolve_left own
              have rest := ih given later inTurn.2
              rw [wayTo, if_neg own] at rest
              rw [news j]
              by_cases here : d = j
              · subst here
                rw [if_neg (lt_irrefl _)] at rest
                rw [if_pos near, beq_self_eq_true, if_pos rfl]
                omega
              · rw [beq_false_of_ne here]
                simp only [Bool.false_eq_true, if_false, Nat.zero_add]
                refine rest.trans ?_
                split <;> split <;> omega

/-- **A port that keeps its `cyc` raised and is never passed over is preceded by each
other port at most once.** -/
theorem served_in_turn (s : State m) (bus : Fin 3 → Wishbone.Pins aw 32 4)
    (run : List (Inputs aw)) :
    let t := Trace.after State.step (s.step ⟨true, bus⟩) run
    ∀ (i : Fin 3) (later : List (Inputs aw)),
      (∀ c ∈ later, c.wbRstI = false ∧ (c.bus i).cyc = true) →
        Trace.Always State.step (fun s c => s.passesOver i c = false) t later →
          ∀ j, j ≠ i → t.grantsBefore i j later ≤ 1 := by
  intro t i later waits inTurn j other
  obtain ⟨last, holds⟩ := holds_after s bus run
  have bound := holds.grantsBefore_le other waits inTurn
  refine bound.trans ?_
  split
  case isTrue => exact Nat.le_refl 1
  case isFalse => exact Nat.zero_le 1

/-- The ports of these bits raise `cyc`. -/
def requests (cyc : BitVec 3) : Inputs 12 where
  wbRstI := false
  bus := fun i => { Wishbone.Pins.idle with cyc := cyc.getLsbD i }

/-- Registers and memory before the first reset. -/
def powerUp : State 4 := ⟨7, 7, ⟨0, false, 0, .linear, .classic, false, fun _ => 0⟩⟩

/-- Port 2 waits while ports 0 and 1 are served once each. -/
theorem served_in_turn_two :
    let t := Trace.after State.step (powerUp.step (⟨true, fun _ => .idle⟩ : Inputs 12)) [requests 0]
    let later := [requests 0b101, requests 0b110, requests 0b110, requests 0b100, requests 0b100]
    ∀ j, j ≠ 2 → t.grantsBefore 2 j later ≤ 1 := by
  intro t later
  exact served_in_turn powerUp (fun _ => .idle) [requests 0] 2 later (by decide) (by decide)

/-- **Port 1 waits while port 0 is selected twice**: it had released the RAM in between,
and port 2 was quiet. -/
theorem port0_again_before_port1 :
    ¬ ∀ (s : State 4) (bus : Fin 3 → Wishbone.Pins 12 32 4) (run : List (Inputs 12)),
      let t := Trace.after State.step (s.step ⟨true, bus⟩) run
      ∀ (i : Fin 3) (later : List (Inputs 12)),
        (∀ c ∈ later, c.wbRstI = false ∧ (c.bus i).cyc = true) →
          ∀ j, j ≠ i → t.grantsBefore i j later ≤ 1 := by
  intro fair
  have twice := fair powerUp (fun _ => .idle) [] 1
    [requests 0b011, requests 0b010, requests 0b011] (by decide) 0 (by decide)
  exact absurd twice (by decide)

end OrpsocCores.RamWb
