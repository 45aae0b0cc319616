import OrpsocCores.LcdCtrl.Model
import Mathlib.Logic.Function.Iterate

/-!
# The phases of a configuration

The controller has no inputs but its reset, so that a run is what the registers make of
themselves.  `Phase` is that run in the terms of the transfers: which register write it is,
how many bits of it are sent and how long the current wait has lasted.  Each phase knows how
many edges are left (`cycles_next`), and the last one comes after those and not before.
-/

set_option autoImplicit false

namespace OrpsocCores.LcdCtrl

/-- How far the configuration has come: `r` is the number of the register write, `b` that of
its bit, and `d` counts the edges of a wait. -/
inductive Phase where
  | resetting (d : Int)
  | starting (d : Nat)
  | idle (r : Nat)
  | framing (r d : Nat)
  | shifting (r b : Nat)
  | low (r b d : Nat)
  | high (r b d : Nat)
  | ending (r d : Nat)
  | pausing (r d : Nat)
  | ended

namespace Phase

/-- The phase after an edge. -/
def next (f : Nat) : Phase → Phase
  | resetting d => if d < resetDelay f then resetting (d + 1) else starting 0
  | starting d => if d < startupDelay f then starting (d + 1) else idle 0
  | idle r => framing r 0
  | framing r d => if d < bitDelay f then framing r (d + 1) else shifting r 0
  | shifting r b => if b < 16 then low r b 0 else ending r 0
  | low r b d => if d < bitDelay f then low r b (d + 1) else high r b 0
  | high r b d => if d < bitDelay f then high r b (d + 1) else shifting r (b + 1)
  | ending r d =>
      if d < bitDelay f then ending r (d + 1)
      else if r < nbInitRegs - 1 then pausing r 0 else ended
  | pausing r d => if d < bitDelay f then pausing r (d + 1) else idle (r + 1)
  | ended => ended

/-- The numbers of a phase are in their ranges. -/
def Sound (f : Nat) : Phase → Prop
  | resetting _ => True
  | starting d => d ≤ startupDelay f
  | idle r => r < nbInitRegs
  | framing r d => r < nbInitRegs ∧ d ≤ bitDelay f
  | shifting r b => r < nbInitRegs ∧ b ≤ 16
  | low r b d => r < nbInitRegs ∧ b < 16 ∧ d ≤ bitDelay f
  | high r b d => r < nbInitRegs ∧ b < 16 ∧ d ≤ bitDelay f
  | ending r d => r < nbInitRegs ∧ d ≤ bitDelay f
  | pausing r d => r < nbInitRegs - 1 ∧ d ≤ bitDelay f
  | ended => True

theorem Sound.next {f : Nat} {p : Phase} (sound : p.Sound f) : (p.next f).Sound f := by
  cases p with
  | resetting d =>
      rw [Phase.next]
      split
      case isTrue => exact trivial
      case isFalse => exact Nat.zero_le _
  | idle r => exact ⟨sound, Nat.zero_le _⟩
  | ended => exact trivial
  | _ =>
      rw [Phase.next]
      repeat' split
      all_goals simp only [Sound, nbInitRegs] at * <;> omega

/-- The edges that the bits from the `b`-th on take. -/
def bitCycles (f b : Nat) : Nat := (16 - b) * (2 * bitDelay f + 3)

/-- The edges from the bits from the `b`-th on to the end of the transfer. -/
def shiftCycles (f b : Nat) : Nat := bitCycles f b + bitDelay f + 2

/-- The edges of a whole transfer. -/
def wordCycles (f : Nat) : Nat := bitDelay f + 2 + shiftCycles f 0

/-- The edges that the transfers behind the `r`-th take, with the pauses in front of them. -/
def restCycles (f r : Nat) : Nat := (nbInitRegs - 1 - r) * (bitDelay f + 1 + wordCycles f)

/-- The edges that are left. -/
def cycles (f : Nat) : Phase → Nat
  | resetting d =>
      (resetDelay f - d).toNat + 1 + (startupDelay f + 1) + wordCycles f + restCycles f 0
  | starting d => startupDelay f - d + 1 + wordCycles f + restCycles f 0
  | idle r => wordCycles f + restCycles f r
  | framing r d => bitDelay f - d + 1 + shiftCycles f 0 + restCycles f r
  | shifting r b => shiftCycles f b + restCycles f r
  | low r b d => bitDelay f - d + 1 + (bitDelay f + 1) + shiftCycles f (b + 1) + restCycles f r
  | high r b d => bitDelay f - d + 1 + shiftCycles f (b + 1) + restCycles f r
  | ending r d => bitDelay f - d + 1 + restCycles f r
  | pausing r d => bitDelay f - d + 1 + wordCycles f + restCycles f (r + 1)
  | ended => 0

theorem shiftCycles_of_lt {f b : Nat} (more : b < 16) :
    shiftCycles f b = 2 * bitDelay f + 3 + shiftCycles f (b + 1) := by
  have left : 16 - b = 16 - (b + 1) + 1 := by omega
  rw [shiftCycles, shiftCycles, bitCycles, bitCycles, left, Nat.add_one_mul]
  omega

theorem restCycles_of_lt {f r : Nat} (more : r < nbInitRegs - 1) :
    restCycles f r = bitDelay f + 1 + wordCycles f + restCycles f (r + 1) := by
  have left : nbInitRegs - 1 - r = nbInitRegs - 1 - (r + 1) + 1 := by omega
  rw [restCycles, restCycles, left, Nat.add_one_mul]
  omega

theorem restCycles_last {f r : Nat} (last : nbInitRegs - 1 ≤ r) : restCycles f r = 0 := by
  rw [restCycles, Nat.sub_eq_zero_of_le last, Nat.zero_mul]

/-- **An edge is one of those that were left.** -/
theorem cycles_next {f : Nat} {p : Phase} (sound : p.Sound f) (going : p ≠ .ended) :
    p.cycles f = (p.next f).cycles f + 1 := by
  cases p with
  | resetting d =>
      rw [next]
      split <;> simp only [cycles] <;> omega
  | starting d =>
      rw [next]
      split <;> simp only [cycles, Sound] at sound ⊢ <;> omega
  | idle r =>
      simp only [next, cycles, wordCycles]
      omega
  | framing r d =>
      rw [next]
      split <;> simp only [cycles, Sound] at sound ⊢ <;> omega
  | shifting r b =>
      rw [next]
      split
      case isTrue more =>
        simp only [cycles, shiftCycles_of_lt more]
        omega
      case isFalse all =>
        have none : bitCycles f b = 0 := by
          rw [bitCycles, Nat.sub_eq_zero_of_le (Nat.le_of_not_lt all), Nat.zero_mul]
        simp only [cycles, shiftCycles, none]
        omega
  | low r b d =>
      rw [next]
      split <;> simp only [cycles, Sound] at sound ⊢ <;> omega
  | high r b d =>
      rw [next]
      split <;> simp only [cycles, Sound] at sound ⊢ <;> omega
  | ending r d =>
      rw [next]
      split
      case isTrue => simp only [cycles, Sound] at sound ⊢; omega
      case isFalse =>
        split
        case isTrue more => simp only [cycles, Sound, restCycles_of_lt more] at sound ⊢; omega
        case isFalse last =>
          simp only [cycles, Sound, restCycles_last (Nat.le_of_not_lt last)] at sound ⊢
          omega
  | pausing r d =>
      rw [next]
      split <;> simp only [cycles, Sound] at sound ⊢ <;> omega
  | ended => exact absurd rfl going

/-- `lcd_scl` in a phase. -/
def scl : Phase → Bool
  | high _ _ _ => true
  | _ => false

/-- The register writes that the panel has taken in a phase. -/
def taken : Phase → Nat
  | resetting _ | starting _ => 0
  | idle r | framing r _ | shifting r _ | low r _ _ | high r _ _ | ending r _ => r
  | pausing r _ => r + 1
  | ended => nbInitRegs

/-! ## Runs -/

variable {f : Nat} {p : Phase}

theorem sound_run (sound : p.Sound f) (n : Nat) : ((next f)^[n] p).Sound f := by
  induction n with
  | zero => exact sound
  | succ n ih =>
      rw [Function.iterate_succ_apply']
      exact ih.next

/-- The edges that are left, and those that have been. -/
theorem cycles_run (sound : p.Sound f) (n : Nat) :
    p.cycles f ≤ ((next f)^[n] p).cycles f + n := by
  induction n with
  | zero => exact Nat.le_refl _
  | succ n ih =>
      rw [Function.iterate_succ_apply']
      by_cases going : (next f)^[n] p = .ended
      case pos =>
        rw [going] at ih ⊢
        exact Nat.le_succ_of_le ih
      case neg =>
        rw [cycles_next (sound_run sound n) going] at ih
        omega

theorem ended_run (sound : p.Sound f) {n : Nat} (enough : p.cycles f ≤ n) :
    (next f)^[n] p = .ended := by
  induction n generalizing p with
  | zero =>
      by_contra going
      have more := cycles_next sound going
      omega
  | succ n ih =>
      rw [Function.iterate_succ_apply]
      refine ih sound.next ?_
      by_cases going : p = .ended
      case pos =>
        rw [going]
        exact Nat.zero_le n
      case neg =>
        have more := cycles_next sound going
        omega

theorem taken_le (sound : p.Sound f) : p.taken ≤ nbInitRegs := by
  cases p with
  | resetting d | starting d => exact Nat.zero_le _
  | idle r => exact Nat.le_of_lt sound
  | framing r d | shifting r b | low r b d | high r b d | ending r d => exact Nat.le_of_lt sound.1
  | pausing r d => exact Nat.le_of_lt (Nat.add_lt_of_lt_sub sound.1)
  | ended => exact Nat.le_refl _

theorem ended_of_taken (sound : p.Sound f) (all : p.taken = nbInitRegs) : p = .ended := by
  cases p with
  | ended => rfl
  | _ => simp only [taken, Sound, nbInitRegs] at all sound; omega

/-- The edges from the reset to the end of the last transfer. -/
def configurationCycles (f : Nat) (delay : Int) : Nat :=
  (resetDelay f - delay).toNat + startupDelay f + 2 + nbInitRegs * wordCycles f +
    (nbInitRegs - 1) * (bitDelay f + 1)

theorem cycles_resetting (f : Nat) (delay : Int) :
    (resetting delay).cycles f = configurationCycles f delay := by
  simp only [cycles, restCycles, configurationCycles, nbInitRegs]
  omega

end Phase

end OrpsocCores.LcdCtrl
