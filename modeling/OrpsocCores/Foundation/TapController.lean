import Mathlib.Data.List.Basic
import Mathlib.Tactic.Common

/-!
# The test access port controller

The controller of a test access port has sixteen states and one input, sampled at each
rising edge of the test clock.  A bit is shifted at an edge at which the controller is
in one of the two shift states, the edge that leaves the state included (`Tap.step`).
A scan from the idle state goes to the shift state, shifts, and goes back
(`after_scan`); an excursion to the pause state takes the bit that is there when it
begins and no other, however long it is (`shifts_excursion`).  A data register behind the
controller takes over what has been shifted in when it is updated, which is once for a scan
(`takes_scan`).
-/

set_option autoImplicit false

namespace OrpsocCores.TapController

/-- The states of the controller. -/
inductive State where
  | testLogicReset
  | runTestIdle
  | selectDrScan
  | captureDr
  | shiftDr
  | exit1Dr
  | pauseDr
  | exit2Dr
  | updateDr
  | selectIrScan
  | captureIr
  | shiftIr
  | exit1Ir
  | pauseIr
  | exit2Ir
  | updateIr
  deriving DecidableEq, Repr

/-- The state behind a rising edge with this `tms`. -/
def State.next (state : State) (tms : Bool) : State :=
  match state with
  | .testLogicReset => if tms then .testLogicReset else .runTestIdle
  | .runTestIdle => if tms then .selectDrScan else .runTestIdle
  | .selectDrScan => if tms then .selectIrScan else .captureDr
  | .captureDr => if tms then .exit1Dr else .shiftDr
  | .shiftDr => if tms then .exit1Dr else .shiftDr
  | .exit1Dr => if tms then .updateDr else .pauseDr
  | .pauseDr => if tms then .exit2Dr else .pauseDr
  | .exit2Dr => if tms then .updateDr else .shiftDr
  | .updateDr => if tms then .selectDrScan else .runTestIdle
  | .selectIrScan => if tms then .testLogicReset else .captureIr
  | .captureIr => if tms then .exit1Ir else .shiftIr
  | .shiftIr => if tms then .exit1Ir else .shiftIr
  | .exit1Ir => if tms then .updateIr else .pauseIr
  | .pauseIr => if tms then .exit2Ir else .pauseIr
  | .exit2Ir => if tms then .updateIr else .shiftIr
  | .updateIr => if tms then .selectDrScan else .runTestIdle

/-- What the controller and the registers sample at a rising edge. -/
structure Edge (β : Type) where
  tms : Bool
  tdi : β
  deriving DecidableEq, Repr

/-- A controller, with the bits shifted into the data and the instruction registers. -/
structure Tap (β : Type) where
  state : State
  dr : List β
  ir : List β
  deriving DecidableEq, Repr

variable {β : Type}

/-- A rising edge. -/
def Tap.step (tap : Tap β) (edge : Edge β) : Tap β where
  state := tap.state.next edge.tms
  dr := if tap.state = .shiftDr then tap.dr ++ [edge.tdi] else tap.dr
  ir := if tap.state = .shiftIr then tap.ir ++ [edge.tdi] else tap.ir

def Tap.after (tap : Tap β) (edges : List (Edge β)) : Tap β := edges.foldl Tap.step tap

@[simp] theorem after_nil (tap : Tap β) : tap.after [] = tap := rfl

theorem after_cons (tap : Tap β) (edge : Edge β) (edges : List (Edge β)) :
    tap.after (edge :: edges) = (tap.step edge).after edges := rfl

theorem after_append (tap : Tap β) (edges more : List (Edge β)) :
    tap.after (edges ++ more) = (tap.after edges).after more :=
  List.foldl_append

/-- A controller that has just come to the idle state. -/
def Tap.idle : Tap β := ⟨.runTestIdle, [], []⟩

/-! ## Reset -/

/-- How many edges with `tms` high still lead to the reset state. -/
def State.toReset : State → Nat
  | .testLogicReset => 0
  | .selectIrScan => 1
  | .selectDrScan => 2
  | .runTestIdle | .updateDr | .updateIr => 3
  | .exit1Dr | .exit2Dr | .exit1Ir | .exit2Ir => 4
  | .captureDr | .shiftDr | .pauseDr | .captureIr | .shiftIr | .pauseIr => 5

theorem State.toReset_next (state : State) :
    (state.next true).toReset = state.toReset - 1 := by
  cases state <;> rfl

theorem State.eq_testLogicReset {state : State} (none : state.toReset = 0) :
    state = .testLogicReset := by
  cases state <;> first | rfl | exact absurd none (by decide)

theorem State.toReset_le (state : State) : state.toReset ≤ 5 := by
  cases state <;> decide

/-- **Five edges with `tms` high reset the controller**, from any state. -/
theorem after_replicate_reset (tap : Tap β) (tdi : β) {n : Nat} (enough : 5 ≤ n) :
    (tap.after (List.replicate n ⟨true, tdi⟩)).state = .testLogicReset := by
  have nearer : ∀ n (tap : Tap β),
      (tap.after (List.replicate n ⟨true, tdi⟩)).state.toReset = tap.state.toReset - n := by
    intro n
    induction n with
    | zero => intro tap; rfl
    | succ n ih =>
        intro tap
        rw [List.replicate_succ, after_cons, ih, Tap.step, State.toReset_next]
        omega
  have within := tap.state.toReset_le
  exact State.eq_testLogicReset (by rw [nearer]; omega)

/-! ## Scans -/

/-- To the shift state of the data registers. -/
def enterDr (tdi : β) : List (Edge β) := [⟨true, tdi⟩, ⟨false, tdi⟩, ⟨false, tdi⟩]

/-- To the shift state of the instruction register. -/
def enterIr (tdi : β) : List (Edge β) := ⟨true, tdi⟩ :: enterDr tdi

/-- Bits that leave the controller in its shift state. -/
def shifting (bits : List β) : List (Edge β) := bits.map fun bit => ⟨false, bit⟩

/-- The last bit, and back to the idle state. -/
def leave (last tdi : β) : List (Edge β) := [⟨true, last⟩, ⟨true, tdi⟩, ⟨false, tdi⟩]

/-- Out of the shift state with a bit, some edges in the pause state, and back. -/
def excursion (bit : β) (polls : Nat) : List (Edge β) :=
  [⟨true, bit⟩, ⟨false, bit⟩] ++ List.replicate polls ⟨false, bit⟩ ++
    [⟨true, bit⟩, ⟨false, bit⟩]

/-- A data register behind the controller: the bits since it was captured, and what it has
taken over at its updates. -/
structure DataRegister (β : Type) where
  state : State
  bits : List β
  taken : List (List β)
  deriving DecidableEq, Repr

/-- A rising edge. -/
def DataRegister.step (register : DataRegister β) (edge : Edge β) : DataRegister β where
  state := register.state.next edge.tms
  bits :=
    match register.state with
    | .captureDr => []
    | .shiftDr => register.bits ++ [edge.tdi]
    | _ => register.bits
  taken :=
    if register.state = .updateDr then register.taken ++ [register.bits] else register.taken

def DataRegister.after (register : DataRegister β) (edges : List (Edge β)) : DataRegister β :=
  edges.foldl DataRegister.step register

/-- The register follows the state of the controller. -/
theorem DataRegister.after_state (register : DataRegister β) {tap : Tap β}
    (same : register.state = tap.state) (edges : List (Edge β)) :
    (register.after edges).state = (tap.after edges).state := by
  induction edges generalizing register tap with
  | nil => exact same
  | cons edge edges ih => exact ih (register.step edge) (congrArg (State.next · edge.tms) same)

theorem DataRegister.after_cons (register : DataRegister β) (edge : Edge β)
    (edges : List (Edge β)) :
    register.after (edge :: edges) = (register.step edge).after edges := rfl

theorem DataRegister.after_append (register : DataRegister β) (edges more : List (Edge β)) :
    register.after (edges ++ more) = (register.after edges).after more :=
  List.foldl_append

/-- Edges that begin and end in the shift state of the data registers, with the bits that
they shift; no register is captured or updated in between. -/
structure Shifts (edges : List (Edge β)) (bits : List β) : Prop where
  tap : ∀ dr ir, Tap.after ⟨.shiftDr, dr, ir⟩ edges = ⟨.shiftDr, dr ++ bits, ir⟩
  register : ∀ before taken, DataRegister.after ⟨.shiftDr, before, taken⟩ edges =
    ⟨.shiftDr, before ++ bits, taken⟩

theorem Shifts.nil : Shifts ([] : List (Edge β)) [] where
  tap dr ir := by
    rw [List.append_nil]
    rfl
  register before taken := by
    rw [List.append_nil]
    rfl

theorem Shifts.append {edges more : List (Edge β)} {bits others : List β}
    (first : Shifts edges bits) (second : Shifts more others) :
    Shifts (edges ++ more) (bits ++ others) where
  tap dr ir := by rw [after_append, first.tap, second.tap, List.append_assoc]
  register before taken := by
    rw [DataRegister.after_append, first.register, second.register, List.append_assoc]

/-- A bit that leaves the controller in its shift state. -/
theorem shifts_bit (bit : β) : Shifts [⟨false, bit⟩] [bit] := ⟨fun _ _ => rfl, fun _ _ => rfl⟩

theorem shifts_shifting (bits : List β) : Shifts (shifting bits) bits := by
  induction bits with
  | nil => exact Shifts.nil
  | cons bit bits ih => exact (shifts_bit bit).append ih

theorem after_shifting_ir (bits dr ir : List β) :
    Tap.after ⟨.shiftIr, dr, ir⟩ (shifting bits) = ⟨.shiftIr, dr, ir ++ bits⟩ := by
  induction bits generalizing ir with
  | nil => rw [List.append_nil]; rfl
  | cons bit bits ih =>
      have shifted : Tap.step ⟨.shiftIr, dr, ir⟩ ⟨false, bit⟩ = ⟨.shiftIr, dr, ir ++ [bit]⟩ := rfl
      rw [shifting, List.map_cons, after_cons, shifted, ← shifting, ih, List.append_assoc,
        List.singleton_append]

/-- Edges in the pause state. -/
theorem after_pause (bit : β) (polls : Nat) (dr ir : List β) :
    Tap.after ⟨.pauseDr, dr, ir⟩ (List.replicate polls ⟨false, bit⟩) = ⟨.pauseDr, dr, ir⟩ := by
  induction polls with
  | zero => rfl
  | succ polls ih =>
      have still : Tap.step ⟨.pauseDr, dr, ir⟩ ⟨false, bit⟩ = ⟨.pauseDr, dr, ir⟩ := rfl
      rw [List.replicate_succ, after_cons, still, ih]

theorem DataRegister.after_pause (bit : β) (polls : Nat) (bits : List β) (taken : List (List β)) :
    DataRegister.after ⟨.pauseDr, bits, taken⟩ (List.replicate polls ⟨false, bit⟩) =
      ⟨.pauseDr, bits, taken⟩ := by
  induction polls with
  | zero => rfl
  | succ polls ih =>
      have still : DataRegister.step ⟨.pauseDr, bits, taken⟩ ⟨false, bit⟩ =
          ⟨.pauseDr, bits, taken⟩ := rfl
      rw [List.replicate_succ, DataRegister.after_cons, still, ih]

/-- **An excursion shifts one bit**, at the edge with which it begins. -/
theorem shifts_excursion (bit : β) (polls : Nat) : Shifts (excursion bit polls) [bit] where
  tap dr ir := by
    have paused : Tap.after ⟨.shiftDr, dr, ir⟩ [⟨true, bit⟩, ⟨false, bit⟩] =
        ⟨.pauseDr, dr ++ [bit], ir⟩ := rfl
    rw [excursion, after_append, after_append, paused, after_pause]
    rfl
  register before taken := by
    have paused : DataRegister.after ⟨.shiftDr, before, taken⟩ [⟨true, bit⟩, ⟨false, bit⟩] =
        ⟨.pauseDr, before ++ [bit], taken⟩ := rfl
    rw [excursion, DataRegister.after_append, DataRegister.after_append, paused,
      DataRegister.after_pause]
    rfl

/-- **A scan of the data registers** comes back to the idle state. -/
theorem after_scan (first last tdi : β) {edges : List (Edge β)} {bits : List β}
    (inside : Shifts edges bits) :
    Tap.idle.after (enterDr first ++ edges ++ leave last tdi) =
      ⟨.runTestIdle, bits ++ [last], []⟩ := by
  have entered : Tap.idle.after (enterDr first) = ⟨.shiftDr, [], []⟩ := rfl
  rw [after_append, after_append, entered, inside.tap, List.nil_append]
  rfl

/-- Edges from the idle state back to it, at which a data register takes over these. -/
def Takes (edges : List (Edge β)) (scans : List (List β)) : Prop :=
  ∀ bits taken, ∃ bits',
    DataRegister.after ⟨.runTestIdle, bits, taken⟩ edges = ⟨.runTestIdle, bits', taken ++ scans⟩

theorem Takes.nil : Takes ([] : List (Edge β)) [] := by
  intro bits taken
  exact ⟨bits, by rw [List.append_nil]; rfl⟩

theorem Takes.append {edges more : List (Edge β)} {scans others : List (List β)}
    (first : Takes edges scans) (second : Takes more others) :
    Takes (edges ++ more) (scans ++ others) := by
  intro bits taken
  obtain ⟨bits', one⟩ := first bits taken
  obtain ⟨bits'', both⟩ := second bits' (taken ++ scans)
  exact ⟨bits'', by rw [DataRegister.after_append, one, both, List.append_assoc]⟩

/-- **A scan is taken over once**, and whole. -/
theorem takes_scan (first last tdi : β) {edges : List (Edge β)} {bits : List β}
    (inside : Shifts edges bits) :
    Takes (enterDr first ++ edges ++ leave last tdi) [bits ++ [last]] := by
  intro before taken
  have entered : DataRegister.after ⟨.runTestIdle, before, taken⟩ (enterDr first) =
      ⟨.shiftDr, [], taken⟩ := rfl
  refine ⟨bits ++ [last], ?_⟩
  rw [DataRegister.after_append, DataRegister.after_append, entered, inside.register,
    List.nil_append]
  rfl

/-- **A scan of the instruction register.** -/
theorem after_scan_ir (first : β) (bits : List β) (last tdi : β) :
    Tap.idle.after (enterIr first ++ shifting bits ++ leave last tdi) =
      ⟨.runTestIdle, [], bits ++ [last]⟩ := by
  have entered : Tap.idle.after (enterIr first) = ⟨.shiftIr, [], []⟩ := rfl
  rw [after_append, after_append, entered, after_shifting_ir, List.nil_append]
  rfl

/-- A controller that is idle has no memory of what it shifted. -/
theorem after_of_idle {tap : Tap β} (idle : tap.state = .runTestIdle) (edges : List (Edge β)) :
    (tap.after edges).state = (Tap.idle.after edges).state := by
  have same : ∀ (edges : List (Edge β)) (tap tap' : Tap β), tap.state = tap'.state →
      (tap.after edges).state = (tap'.after edges).state := by
    intro edges
    induction edges with
    | nil => intro tap tap' agree; exact agree
    | cons edge edges ih =>
        intro tap tap' agree
        apply ih
        rw [Tap.step, Tap.step, agree]
  exact same edges tap Tap.idle idle

end OrpsocCores.TapController
