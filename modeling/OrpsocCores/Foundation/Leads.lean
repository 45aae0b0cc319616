import Mathlib.Data.Nat.Init
import Mathlib.Tactic.Common

/-!
# Total correctness of step functions

A machine that may get stuck is a step function into `Option`.  `Leads step P s` says that
the run from `s` comes to a state with `P`: it neither gets stuck nor goes on for ever
before.  The rules are those of programs: sequences (`Leads.trans`), weaker conditions
(`Leads.mono`), and loops with a number that falls (`Leads.loop`).
-/

set_option autoImplicit false

namespace OrpsocCores

universe u

/-- The run comes to a state with the property. -/
inductive Leads {σ : Type u} (step : σ → Option σ) (P : σ → Prop) : σ → Prop
  | here {s : σ} (holds : P s) : Leads step P s
  | next {s s' : σ} (stepped : step s = some s') (rest : Leads step P s') : Leads step P s

namespace Leads

variable {σ : Type u} {step : σ → Option σ} {P Q : σ → Prop} {s : σ}

/-- One part of a program after the other. -/
theorem trans (first : Leads step P s) (second : ∀ s', P s' → Leads step Q s') :
    Leads step Q s := by
  induction first with
  | here holds => exact second _ holds
  | next stepped _ ih => exact .next stepped ih

theorem mono (leads : Leads step P s) (weaker : ∀ s', P s' → Q s') : Leads step Q s :=
  leads.trans fun _ holds => .here (weaker _ holds)

/-- **A loop ends if a number falls with every turn.** -/
theorem loop (inv : Nat → σ → Prop)
    (turn : ∀ n s, inv n s → Leads step (fun s' => Q s' ∨ ∃ m < n, inv m s') s) {n : Nat}
    (initially : inv n s) : Leads step Q s := by
  induction n using Nat.strong_induction_on generalizing s with
  | _ n ih =>
      refine (turn n s initially).trans fun s' outcome => ?_
      rcases outcome with done | ⟨m, less, again⟩
      · exact .here done
      · exact ih m less again

end Leads

end OrpsocCores
