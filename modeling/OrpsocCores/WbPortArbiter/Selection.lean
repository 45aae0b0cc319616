import OrpsocCores.Foundation.Rotation
import OrpsocCores.WbPortArbiter.Model
import Mathlib.Algebra.BigOperators.Group.Finset.Basic
import Mathlib.Algebra.Order.BigOperators.Group.Finset

/-!
# Which port has the controller

`port_sel` and `port_enc` with the requests of the ports as an input.  The selection is
one-hot from the first reset on.  A port that keeps requesting is passed over by every
other port at most once: each new selection lies strictly nearer to it on the ring that
`round_robin` walks.
-/

set_option autoImplicit false

namespace OrpsocCores.WbPortArbiter

open Rotation

variable {n : Nat}

/-- `port_sel` and `port_enc`. -/
structure Selection (n : Nat) where
  portSel : BitVec n
  portEnc : BitVec n

/-- What the two registers sample at an edge of `sdram_clk`. -/
structure Requests (n : Nat) where
  sdramRst : Bool
  sdramIdleI : Bool
  accO : BitVec n

namespace Selection

/-- `safe_to_switch`. -/
def safeToSwitch (s : Selection n) (requests : Requests n) : Bool :=
  requests.sdramIdleI && !requests.accO.getLsbD s.portEnc.toNat

/-- An edge of `sdram_clk`. -/
def step (s : Selection n) (requests : Requests n) : Selection n :=
  if requests.sdramRst then ⟨BitVec.ofNat n 1, 0⟩
  else if s.safeToSwitch requests then
    ⟨roundRobin s.portSel requests.accO, ff1 (roundRobin s.portSel requests.accO)⟩
  else s

/-- The registers select this port. -/
structure Selects (s : Selection n) (c : Fin n) : Prop where
  portSel : s.portSel = oneHot c
  portEnc : s.portEnc.toNat = c.val

/-- The port is selected after the edge and was not before it. -/
def newlySelects (s : Selection n) (requests : Requests n) (j : Fin n) : Bool :=
  !s.portSel.getLsbD j && (s.step requests).portSel.getLsbD j

/-- How often port `j` is newly selected until port `m` is. -/
def grantsBefore (m j : Fin n) : Selection n → List (Requests n) → Nat
  | _, [] => 0
  | s, requests :: run =>
      if s.portSel.getLsbD m then 0
      else (if s.newlySelects requests j then 1 else 0) +
        grantsBefore m j (s.step requests) run

end Selection

/-- The registers of the arbiter are these, with the requests of its ports. -/
def Arbiter.selection {bw : Fin n → Nat} (s : Arbiter bw) : Selection n := ⟨s.portSel, s.portEnc⟩

theorem Arbiter.selection_step {bw : Fin n → Nat} (s : Arbiter bw) (e : Instant n) :
    (s.step e).selection =
      match e.sdram with
      | none => s.selection
      | some inputs => s.selection.step ⟨inputs.sdramRst, inputs.sdramIdleI, s.accO⟩ := by
  cases edge : e.sdram with
  | none => simp [Arbiter.selection, Arbiter.step, edge]
  | some inputs =>
      simp only [Arbiter.selection, Arbiter.step, edge, Arbiter.selectionAfter, Selection.step,
        Selection.safeToSwitch, Arbiter.safeToSwitch]
      split
      case isTrue => rfl
      case isFalse =>
          by_cases safe : (inputs.sdramIdleI && !s.accO.getLsbD s.portEnc.toNat) = true
          · simp only [safe, if_true]
          · simp only [safe, Bool.false_eq_true, if_false]

/-! ## The two functions -/

/-- A grant that has been given stays. -/
theorem roundRobinLoop_granted (req : BitVec n) (rounds : Nat) (temp : BitVec n) {grant : BitVec n}
    (given : grant ≠ 0) : roundRobinLoop req rounds temp grant = grant := by
  induction rounds generalizing temp with
  | zero => rfl
  | succ rounds ih =>
      rw [roundRobinLoop]
      simp only [given, and_false, if_false]
      exact ih _

/-- The loop grants a port that requests, or none. -/
theorem roundRobinLoop_grants (req : BitVec n) (rounds : Nat) (t : Fin n) :
    roundRobinLoop req rounds (oneHot t) 0 = 0 ∨
      ∃ d, roundRobinLoop req rounds (oneHot t) 0 = oneHot d ∧ req.getLsbD d = true := by
  induction rounds generalizing t with
  | zero => exact Or.inl rfl
  | succ rounds ih =>
      rw [roundRobinLoop, rotateRight_oneHot]
      by_cases requests : req.getLsbD (pred t) = true
      · right
        refine ⟨pred t, ?_, requests⟩
        simp only [(oneHot_and_ne_zero _ _).mpr requests, ne_eq, not_false_eq_true, and_self,
          if_true]
        exact roundRobinLoop_granted req rounds _ (oneHot_ne_zero _)
      · have silent := (oneHot_and_ne_zero (pred t) req).not.mpr requests
        simp only [silent, false_and, if_false]
        exact ih (pred t)

/-- A requesting port within reach is granted, or one that is nearer. -/
theorem roundRobinLoop_reaches {req : BitVec n} {m : Fin n} (waits : req.getLsbD m = true)
    (rounds : Nat) (t : Fin n) (reach : dist (pred t) m < rounds) :
    ∃ d, roundRobinLoop req rounds (oneHot t) 0 = oneHot d ∧ dist d m ≤ dist (pred t) m := by
  induction rounds generalizing t with
  | zero => exact absurd reach (Nat.not_lt_zero _)
  | succ rounds ih =>
      rw [roundRobinLoop, rotateRight_oneHot]
      by_cases requests : req.getLsbD (pred t) = true
      · refine ⟨pred t, ?_, le_refl _⟩
        simp only [(oneHot_and_ne_zero _ _).mpr requests, ne_eq, not_false_eq_true, and_self,
          if_true]
        exact roundRobinLoop_granted req rounds _ (oneHot_ne_zero _)
      · have silent := (oneHot_and_ne_zero (pred t) req).not.mpr requests
        have other : pred t ≠ m := by
          rintro rfl
          exact requests waits
        have nearer := dist_pred other
        obtain ⟨d, grants, near⟩ := ih (pred t) (by omega)
        simp only [silent, false_and, if_false]
        exact ⟨d, grants, by omega⟩

/-- `ff1` of a one-hot word is the position of its bit. -/
theorem ff1_oneHot (c : Fin n) : (ff1 (oneHot c)).toNat = c.val := by
  have loop : ∀ i ≤ n, ∀ found : BitVec n, ff1Loop (oneHot c) i found =
      if c.val < i then BitVec.ofNat n c.val else found := by
    intro i
    induction i with
    | zero => intro _ found; simp [ff1Loop]
    | succ i ih =>
        intro inside found
        rw [ff1Loop, ih (by omega), getLsbD_oneHot c ⟨i, inside⟩]
        by_cases here : c.val = i
        · subst here
          simp
        · have apart : c ≠ ⟨i, inside⟩ := fun same => here (congrArg Fin.val same)
          by_cases below : c.val < i
          · simp [below, Nat.lt_succ_of_lt below]
          · have above : ¬c.val < i + 1 := by omega
            simp [below, above, apart]
  rw [ff1, loop n (le_refl n), if_pos c.isLt, BitVec.toNat_ofNat]
  exact Nat.mod_eq_of_lt (Nat.lt_trans c.isLt Nat.lt_two_pow_self)

/-! ## An edge -/

namespace Selection

variable {s : Selection n} {requests : Requests n} {c m : Fin n}

theorem selects_reset (reset : requests.sdramRst = true) (c : Fin n) (first : c.val = 0) :
    (s.step requests).Selects c := by
  rw [step, if_pos reset]
  constructor
  · rw [oneHot, first, BitVec.twoPow_zero]
  · simp [first]

/-- A one-hot word selects with its position. -/
theorem selects_oneHot (c : Fin n) : Selects ⟨oneHot c, ff1 (oneHot c)⟩ c := ⟨rfl, ff1_oneHot c⟩

/-- **An edge keeps the selection one-hot, and a new selection lies nearer to every
requesting port.** -/
theorem Selects.step (selects : s.Selects c) (running : requests.sdramRst = false) :
    ∃ d, (s.step requests).Selects d ∧
      ∀ m : Fin n, requests.accO.getLsbD m = true → d = c ∨ dist d m < dist c m := by
  by_cases safe : s.safeToSwitch requests = true
  · have silent : requests.accO.getLsbD c = false := by
      simp only [safeToSwitch, Bool.and_eq_true, Bool.not_eq_true', selects.portEnc] at safe
      exact safe.2
    have registers : s.step requests =
        ⟨roundRobin (oneHot c) requests.accO, ff1 (roundRobin (oneHot c) requests.accO)⟩ := by
      simp [Selection.step, running, safe, selects.portSel]
    rcases roundRobinLoop_grants requests.accO n c with none | ⟨d, grants, -⟩
    · refine ⟨c, ?_, fun _ _ => Or.inl rfl⟩
      rw [registers, roundRobin, none]
      exact selects_oneHot c
    · have granted : roundRobin (oneHot c) requests.accO = oneHot d := by
        simp only [roundRobin, grants, ne_eq, oneHot_ne_zero, not_false_eq_true, if_true]
      refine ⟨d, by rw [registers, granted]; exact selects_oneHot d, ?_⟩
      intro m waits
      right
      have other : c ≠ m := by
        rintro rfl
        rw [waits] at silent
        cases silent
      obtain ⟨d', grants', near⟩ := roundRobinLoop_reaches waits n c (dist_lt _ _)
      obtain rfl : d' = d := oneHot_injective (grants'.symm.trans grants)
      have nearer := dist_pred other
      omega
  · refine ⟨c, ?_, fun _ _ => Or.inl rfl⟩
    simpa [Selection.step, running, safe] using selects

/-! ## Runs -/

/-- The selection is one-hot in every state that a reset has led to. -/
theorem selects_after (positive : 0 < n) (s : Selection n) {requests : Requests n}
    (reset : requests.sdramRst = true) (run : List (Requests n)) :
    ∃ c, (Trace.after step (s.step requests) run).Selects c := by
  have always : Trace.Always step (fun _ _ => True) (s.step requests) run :=
    Trace.always_true step (s.step requests) run
  refine always.invariant (fun t => ∃ c, t.Selects c) ?_
    ⟨⟨0, positive⟩, selects_reset reset ⟨0, positive⟩ rfl⟩
  rintro t input ⟨c, selects⟩ -
  by_cases again : input.sdramRst = true
  · exact ⟨⟨0, positive⟩, selects_reset again ⟨0, positive⟩ rfl⟩
  · obtain ⟨d, selects', -⟩ := selects.step (Bool.not_eq_true _ ▸ again)
    exact ⟨d, selects'⟩

/-- While port `m` requests, only ports that lie between it and the selected one are
newly selected, each once. -/
theorem Selects.grantsBefore_le (selects : s.Selects c) (j : Fin n) {run : List (Requests n)}
    (waits : ∀ requests ∈ run, requests.sdramRst = false ∧ requests.accO.getLsbD m = true) :
    grantsBefore m j s run ≤ if dist j m < dist c m then 1 else 0 := by
  induction run generalizing s c with
  | nil => exact Nat.zero_le _
  | cons requests run ih =>
      obtain ⟨running, waiting⟩ := waits requests (List.mem_cons_self)
      obtain ⟨d, selects', nearer⟩ := selects.step running
      have later := ih selects' fun requests member => waits requests (List.mem_cons_of_mem _ member)
      rw [grantsBefore]
      split
      case isTrue => exact Nat.zero_le _
      case isFalse =>
          have news : s.newlySelects requests j = (!decide (c = j) && decide (d = j)) := by
            rw [newlySelects, selects.portSel, selects'.portSel, getLsbD_oneHot, getLsbD_oneHot]
          rcases nearer m waiting with same | near
          · subst same
            have none : s.newlySelects requests j = false := by
              rw [news]
              cases decide (d = j) <;> rfl
            simpa [none] using later
          · by_cases here : d = j
            · subst here
              rw [if_neg (lt_irrefl _)] at later
              rw [if_pos near]
              split <;> omega
            · have none : s.newlySelects requests j = false := by simp [news, here]
              rw [none]
              simp only [Bool.false_eq_true, if_false, Nat.zero_add]
              refine later.trans ?_
              split <;> split <;> omega

/-- **From every reset on, `port_sel` is one-hot and `port_enc` the index of its bit; and
a port that keeps requesting is passed over at most once by each other port**, hence at
most `n - 1` times. -/
theorem round_robin_fair (ports : 2 ≤ n) (s : Selection n) {requests : Requests n}
    (reset : requests.sdramRst = true) (run : List (Requests n)) :
    let t := Trace.after step (s.step requests) run
    (∃ c, t.Selects c) ∧
      ∀ (m : Fin n) (later : List (Requests n)),
        (∀ requests ∈ later, requests.sdramRst = false ∧ requests.accO.getLsbD m = true) →
          (∀ j, j ≠ m → grantsBefore m j t later ≤ 1) ∧
            ∑ j ∈ Finset.univ.erase m, grantsBefore m j t later ≤ n - 1 := by
  intro t
  obtain ⟨c, selects⟩ := selects_after (by omega) s reset run
  refine ⟨⟨c, selects⟩, fun m later waits => ?_⟩
  have once : ∀ j, grantsBefore m j t later ≤ 1 := by
    intro j
    refine (selects.grantsBefore_le j waits).trans ?_
    split <;> omega
  refine ⟨fun j _ => once j, ?_⟩
  calc ∑ j ∈ Finset.univ.erase m, grantsBefore m j t later
      ≤ ∑ j ∈ Finset.univ.erase m, 1 := Finset.sum_le_sum fun j _ => once j
    _ = n - 1 := by simp

/-- Two ports, the other of which requests as well and is served first. -/
theorem round_robin_fair_two :
    let t := Trace.after step ((⟨3, 1⟩ : Selection 2).step ⟨true, false, 0⟩) [⟨false, true, 2⟩]
    (∃ c, t.Selects c) ∧ ((∀ j, j ≠ 0 → grantsBefore 0 j t
        [⟨false, true, 3⟩, ⟨false, true, 1⟩, ⟨false, true, 3⟩] ≤ 1) ∧
      ∑ j ∈ Finset.univ.erase 0, grantsBefore 0 j t
        [⟨false, true, 3⟩, ⟨false, true, 1⟩, ⟨false, true, 3⟩] ≤ 1) := by
  have reset : (⟨true, false, 0⟩ : Requests 2).sdramRst = true := rfl
  have fair := round_robin_fair (le_refl 2) ⟨3, 1⟩ reset [⟨false, true, 2⟩]
  exact ⟨fair.1, fair.2 0 [⟨false, true, 3⟩, ⟨false, true, 1⟩, ⟨false, true, 3⟩] (by decide)⟩

end Selection

end OrpsocCores.WbPortArbiter
