import Mathlib.Algebra.Ring.Int.Defs
import Mathlib.Algebra.Ring.Nat
import OrpsocCores.Foundation.AlignedBlock
import OrpsocCores.JtagServer.Model

/-!
# The clock generator

A task has the clock generator make clock periods by calling it until it is done.  The
calls with the pin high are counted, and the pin rises with every `tck_period + 1`st of
them (`InPhase`), so that the number of rising edges of so many periods is a rounded
quotient, `clocks`.

`genClk_inProgress` says what a call in the middle does, `genClk_done` what the last one
does.
-/

set_option autoImplicit false

namespace OrpsocCores.JtagServer

/-- The number of rising edges when this many periods are asked for. -/
def clocks (tckPeriod nbPeriod : Nat) : Nat :=
  (nbPeriod * tckPeriod + tckPeriod) / (tckPeriod + 1)

/-- The number of them to come. -/
def left (tckPeriod nbPeriod : Nat) (clk : ClockGen) : Nat :=
  clocks tckPeriod nbPeriod - (clk.curPeriod + tckPeriod) / (tckPeriod + 1)

/-- The clock generator and its pin in front of a call at this time. -/
inductive InPhase (tckPeriod : Nat) (clk : ClockGen) (tck : Bool) (t : Nat) : Prop
  | fresh (begins : clk.genClkBegin = true) (low : clk.tckLow = true) (none : clk.curPeriod = 0)
  | low (begun : clk.genClkBegin = false) (low : clk.tckLow = true)
      (whole : clk.curPeriod % (tckPeriod + 1) = 0) (earlier : clk.time < t)
  | high (begun : clk.genClkBegin = false) (high : clk.tckLow = false)
      (since : t = clk.time + clk.curPeriod % (tckPeriod + 1) + 1)
      (pin : tck = false ↔ clk.curPeriod % (tckPeriod + 1) = 0)

/-- The clock generator has not made an edge. -/
structure Resting (clk : ClockGen) (tck : Bool) (t : Nat) : Prop where
  none : clk.curPeriod = 0
  fresh : clk.genClkBegin = true → clk.tckLow = true
  begun : clk.genClkBegin = false → tck = false ∧ clk.time < t

/-- A bound on the calls until the clock generator is done. -/
def patience (tckPeriod nbPeriod : Nat) (clk : ClockGen) (t : Nat) : Nat :=
  (nbPeriod * tckPeriod - clk.curPeriod) * (tckPeriod + 3) + 1 +
    if clk.genClkBegin then tckPeriod + 2
    else if clk.tckLow then 1 + (tckPeriod + 1 - (t - clk.time))
    else 0

variable {tckPeriod nbPeriod t : Nat} {tck : Bool} {clk : ClockGen}

/-- What a call with periods to come does. -/
structure Ticked (tckPeriod nbPeriod t : Nat) (tck : Bool) (clk : ClockGen) (tick : Tick) :
    Prop where
  status : tick.status = .inProgress
  inPhase : InPhase tckPeriod tick.clk tick.tck (t + 1)
  left : left tckPeriod nbPeriod clk =
    (if tck = false ∧ tick.tck = true then 1 else 0) + left tckPeriod nbPeriod tick.clk
  patience : patience tckPeriod nbPeriod tick.clk (t + 1) < patience tckPeriod nbPeriod clk t

theorem mod_succ_inside {n k : Nat} (inside : k % (n + 1) < n) :
    (k + 1) % (n + 1) = k % (n + 1) + 1 := by
  rw [AlignedBlock.mod_succ (Nat.add_one_pos n), if_neg (by omega)]

theorem ceil_succ (n k : Nat) :
    (k + 1 + n) / (n + 1) = (if k % (n + 1) = 0 then 1 else 0) + (k + n) / (n + 1) := by
  have whole := Nat.div_add_mod k (n + 1)
  have small : k % (n + 1) < n + 1 := Nat.mod_lt k (Nat.succ_pos n)
  have next : k + 1 + n = (n + 1) * (k / (n + 1) + 1) + k % (n + 1) := by
    rw [Nat.mul_succ]
    omega
  have quotient : (k + 1 + n) / (n + 1) = k / (n + 1) + 1 := by
    rw [next, Nat.mul_add_div (Nat.succ_pos n), Nat.div_eq_of_lt small, Nat.add_zero]
  rw [quotient]
  split
  · next zero =>
      have front : k + n = (n + 1) * (k / (n + 1)) + n := by omega
      rw [front, Nat.mul_add_div (Nat.succ_pos n), Nat.div_eq_of_lt (Nat.lt_succ_self n)]
      omega
  · next positive =>
      have front : k + n = (n + 1) * (k / (n + 1) + 1) + (k % (n + 1) - 1) := by
        rw [Nat.mul_succ]
        omega
      have rest : (k % (n + 1) - 1) / (n + 1) = 0 := Nat.div_eq_of_lt (by omega)
      rw [front, Nat.mul_add_div (Nat.succ_pos n), rest]
      omega

/-- When the current phase has begun, for a call at this time. -/
def ClockGen.since (clk : ClockGen) (t : Nat) : Nat := if clk.genClkBegin then t else clk.time

/-- A call with the pin low. -/
theorem genClk_low (low : clk.tckLow = true) (more : clk.curPeriod < nbPeriod * tckPeriod)
    (tdo capturedTdo : Byte) (getTdo : Bool) :
    genClk tckPeriod t nbPeriod tck tdo capturedTdo getTdo clk =
      ⟨.inProgress,
        { clk with
          genClkBegin := false
          time := if tckPeriod < t - clk.since t then t else clk.since t
          tckLow := !decide (tckPeriod < t - clk.since t)
          captureDone := false },
        false, capturedTdo⟩ := by
  unfold genClk ClockGen.since
  cases begins : clk.genClkBegin with
  | true => simp [low, more]
  | false =>
      by_cases late : tckPeriod < t - clk.time
      · simp [begins, low, more, late]
      · simp [begins, low, more, late]

/-- A call with the pin high. -/
theorem genClk_high (begun : clk.genClkBegin = false) (high : clk.tckLow = false)
    (more : clk.curPeriod < nbPeriod * tckPeriod) (tdo capturedTdo : Byte) (getTdo : Bool) :
    genClk tckPeriod t nbPeriod tck tdo capturedTdo getTdo clk =
      ⟨.inProgress,
        { clk with
          time := if tckPeriod < t - clk.time then t else clk.time
          tckLow := decide (tckPeriod < t - clk.time)
          captureDone := clk.captureDone || (getTdo && !clk.captureDone)
          curPeriod := clk.curPeriod + 1 },
        true, if getTdo && !clk.captureDone then tdo else capturedTdo⟩ := by
  by_cases late : tckPeriod < t - clk.time
  · simp [genClk, begun, high, more, late]
  · simp [genClk, begun, high, more, late]

/-- A period of the phase with the pin high. -/
theorem ticked_high (begun : clk.genClkBegin = false) (high : clk.tckLow = false)
    (since : t = clk.time + clk.curPeriod % (tckPeriod + 1) + 1)
    (pin : tck = false ↔ clk.curPeriod % (tckPeriod + 1) = 0)
    (more : clk.curPeriod < nbPeriod * tckPeriod) (tdo capturedTdo : Byte) (getTdo : Bool) :
    Ticked tckPeriod nbPeriod t tck clk
      (genClk tckPeriod t nbPeriod tck tdo capturedTdo getTdo clk) := by
  have small : clk.curPeriod % (tckPeriod + 1) < tckPeriod + 1 := Nat.mod_lt _ (by omega)
  have elapsed : t - clk.time = clk.curPeriod % (tckPeriod + 1) + 1 := by omega
  have room : clk.curPeriod + 1 ≤ nbPeriod * tckPeriod := more
  have total : (clk.curPeriod + 1 + tckPeriod) / (tckPeriod + 1) ≤
      clocks tckPeriod nbPeriod :=
    Nat.div_le_div_right (by omega)
  have step := ceil_succ tckPeriod clk.curPeriod
  have steps : (nbPeriod * tckPeriod - clk.curPeriod) * (tckPeriod + 3) =
      (nbPeriod * tckPeriod - (clk.curPeriod + 1)) * (tckPeriod + 3) + (tckPeriod + 3) := by
    rw [← Nat.succ_mul]
    congr 1
    omega
  have rises : (if tck = false ∧ true = true then 1 else 0) =
      if clk.curPeriod % (tckPeriod + 1) = 0 then 1 else 0 := by
    simp [pin]
  have counted : left tckPeriod nbPeriod clk =
      (if tck = false ∧ true = true then 1 else 0) +
        (clocks tckPeriod nbPeriod - (clk.curPeriod + 1 + tckPeriod) / (tckPeriod + 1)) := by
    rw [rises, left]
    omega
  rw [genClk_high begun high more]
  by_cases late : tckPeriod < t - clk.time
  · have last : clk.curPeriod % (tckPeriod + 1) = tckPeriod := by omega
    refine ⟨rfl, ?_, counted, ?_⟩
    · simp only [decide_eq_true late, if_pos late]
      exact .low begun rfl (Nat.succ_mod_succ_eq_zero_iff.mpr last) (Nat.lt_succ_self t)
    · simp only [patience, begun, high, decide_eq_true late, if_pos late, steps,
        Bool.false_eq_true, if_false, if_true]
      omega
  · have inside : clk.curPeriod % (tckPeriod + 1) < tckPeriod := by omega
    have next : (clk.curPeriod + 1) % (tckPeriod + 1) ≠ 0 := by
      rw [mod_succ_inside inside]
      omega
    refine ⟨rfl, ?_, counted, ?_⟩
    · simp only [decide_eq_false late, if_neg late]
      refine .high begun rfl ?_ (iff_of_false (by simp) next)
      dsimp only
      rw [mod_succ_inside inside]
      omega
    · simp only [patience, begun, high, decide_eq_false late, if_neg late, steps,
        Bool.false_eq_true, if_false]
      omega

/-- **A call with periods to come.** -/
theorem genClk_inProgress (inPhase : InPhase tckPeriod clk tck t)
    (more : clk.curPeriod < nbPeriod * tckPeriod) (tdo capturedTdo : Byte) (getTdo : Bool) :
    Ticked tckPeriod nbPeriod t tck clk
      (genClk tckPeriod t nbPeriod tck tdo capturedTdo getTdo clk) := by
  cases inPhase with
  | fresh begins low none =>
      have since : clk.since t = t := if_pos begins
      rw [genClk_low low more, since, Nat.sub_self]
      refine ⟨rfl, ?_, by simp [left], ?_⟩
      · exact .low rfl rfl (by simp [none]) (Nat.lt_succ_self t)
      · simp only [patience, begins, Nat.not_lt_zero, decide_false, Bool.not_false, if_false,
          Bool.false_eq_true, if_true]
        omega
  | low begun low whole earlier =>
      have since : clk.since t = clk.time := by simp [ClockGen.since, begun]
      rw [genClk_low low more, since]
      refine ⟨rfl, ?_, by simp [left], ?_⟩
      · by_cases late : tckPeriod < t - clk.time
        · simp only [decide_eq_true late, if_pos late]
          exact .high rfl rfl (by simp [whole]) (by simp [whole])
        · simp only [decide_eq_false late, if_neg late]
          exact .low rfl rfl whole (Nat.lt_succ_of_lt earlier)
      · simp only [patience, begun, low, Bool.false_eq_true, if_false, if_true]
        by_cases late : tckPeriod < t - clk.time
        · simp only [decide_eq_true late, Bool.not_true, Bool.false_eq_true, if_false]
          omega
        · simp only [decide_eq_false late, Bool.not_false, if_true, if_neg late]
          omega
  | high begun high since pin => exact ticked_high begun high since pin more tdo capturedTdo getTdo

/-- **The last call**, and the restart behind it. -/
theorem genClk_done (enough : nbPeriod * tckPeriod ≤ clk.curPeriod) (tdo capturedTdo : Byte)
    (getTdo : Bool) :
    ∃ clk', genClk tckPeriod t nbPeriod tck tdo capturedTdo getTdo clk =
        ⟨.done, clk', tck, capturedTdo⟩ := by
  unfold genClk
  dsimp only
  rw [if_neg (by split <;> exact Nat.not_lt.mpr enough)]
  exact ⟨_, rfl⟩

theorem left_done (enough : nbPeriod * tckPeriod ≤ clk.curPeriod) :
    left tckPeriod nbPeriod clk = 0 :=
  Nat.sub_eq_zero_of_le (Nat.div_le_div_right (by omega))

/-- The clock generator after a restart. -/
theorem InPhase.restart (tckPeriod : Nat) (clk : ClockGen) (tck : Bool) (t : Nat) :
    InPhase tckPeriod (genClkRestart clk) tck t :=
  .fresh rfl rfl rfl

theorem left_restart (tckPeriod nbPeriod : Nat) (clk : ClockGen) :
    left tckPeriod nbPeriod (genClkRestart clk) = clocks tckPeriod nbPeriod := by
  have none : (0 + tckPeriod) / (tckPeriod + 1) = 0 := Nat.div_eq_of_lt (by omega)
  rw [left, genClkRestart]
  simp only [none, Nat.sub_zero]

/-! ## Before the first edge -/

namespace Resting

theorem restart (clk : ClockGen) (tck : Bool) (t : Nat) : Resting (genClkRestart clk) tck t :=
  ⟨rfl, fun _ => rfl, fun begun => nomatch begun⟩

/-- Nothing happens without a call. -/
theorem later (resting : Resting clk tck t) : Resting clk tck (t + 1) :=
  ⟨resting.none, resting.fresh, fun begun =>
    ⟨(resting.begun begun).1, Nat.lt_succ_of_lt (resting.begun begun).2⟩⟩

theorem left_eq (resting : Resting clk tck t) :
    left tckPeriod nbPeriod clk = clocks tckPeriod nbPeriod := by
  have none : (0 + tckPeriod) / (tckPeriod + 1) = 0 := Nat.div_eq_of_lt (by omega)
  rw [left, resting.none, none, Nat.sub_zero]

/-- In its low phase the clock generator can be started on, and in its high phase if it
has just reached it. -/
theorem inPhase (resting : Resting clk tck t) (ready : clk.tckLow = true ∨ t = clk.time + 1) :
    InPhase tckPeriod clk tck t := by
  cases begun : clk.genClkBegin with
  | true => exact .fresh begun (resting.fresh begun) resting.none
  | false =>
      obtain ⟨pin, earlier⟩ := resting.begun begun
      cases low : clk.tckLow with
      | true => exact .low begun low (by simp [resting.none]) earlier
      | false =>
          have since := ready.resolve_left (by simp [low])
          exact .high begun low (by simp [resting.none, since]) (by simp [resting.none, pin])

/-- A call in the low phase makes no edge. -/
theorem tick (resting : Resting clk tck t) (low : clk.tckLow = true)
    (more : 0 < nbPeriod * tckPeriod) (tdo capturedTdo : Byte) (getTdo : Bool) :
    ∃ clk', genClk tckPeriod t nbPeriod tck tdo capturedTdo getTdo clk =
        ⟨.inProgress, clk', false, capturedTdo⟩ ∧ Resting clk' false (t + 1) ∧
      (clk'.tckLow = true ∨ t + 1 = clk'.time + 1) := by
  refine ⟨_, genClk_low low (by rw [resting.none]; exact more) tdo capturedTdo getTdo, ?_, ?_⟩
  · refine ⟨resting.none, (fun begins => nomatch begins), fun _ => ⟨rfl, ?_⟩⟩
    have since : clk.since t ≤ t := by
      unfold ClockGen.since
      cases begun : clk.genClkBegin with
      | true => exact Nat.le_refl t
      | false => exact Nat.le_of_lt (resting.begun begun).2
    dsimp only
    split <;> omega
  · by_cases late : tckPeriod < t - clk.since t
    · exact .inr (by simp [late])
    · exact .inl (by simp [late])

end Resting

end OrpsocCores.JtagServer
