import Mathlib.Algebra.Ring.Int.Defs
import Mathlib.Algebra.Ring.Nat
import Mathlib.Data.List.Basic

/-!
# Runs of clocked machines

A clocked machine is a step function: the registers before an edge and the
inputs sampled at that edge give the registers after it.  A run is a list of
inputs.  This module is about any such function.

* `after` is the state a run reaches.
* `Always` says that a condition on the state before a step and on the step's
  input holds at every step of a run.  It is used on both sides of a theorem:
  as the protocol the environment follows and as the property of the machine.
* `monitored` runs a recorder beside the machine.  The recorder sees every
  step and never influences it (`after_monitored_fst`), so that a property of a
  whole history is a property of the last recorded value.

The rules at the end are the inductions over runs the development needs: an
invariant preserved by every permitted step holds in every state reached
(`Always.invariant`), what an invariant implies of a permitted step holds at
every step (`Always.of_invariant`), and a property that an invariant makes
equivalent to a condition holds along the same runs (`Always.iff_of_invariant`).
-/

set_option autoImplicit false

namespace OrpsocCores.Trace

universe u v w

variable {σ : Type u} {ι : Type v} {γ : Type w}

/-- The state a run reaches from `s`. -/
def after (step : σ → ι → σ) (s : σ) (inputs : List ι) : σ := inputs.foldl step s

@[simp] theorem after_nil (step : σ → ι → σ) (s : σ) : after step s [] = s := rfl

@[simp] theorem after_cons (step : σ → ι → σ) (s : σ) (input : ι) (inputs : List ι) :
    after step s (input :: inputs) = after step (step s input) inputs := rfl

theorem after_concat (step : σ → ι → σ) (s : σ) (inputs : List ι) (input : ι) :
    after step s (inputs ++ [input]) = step (after step s inputs) input := by
  simp [after]

theorem after_append (step : σ → ι → σ) (s : σ) (inputs more : List ι) :
    after step s (inputs ++ more) = after step (after step s inputs) more := by
  simp [after]

/-- The condition holds at every step of a run. -/
def Always (step : σ → ι → σ) (condition : σ → ι → Prop) : σ → List ι → Prop
  | _, [] => True
  | s, input :: inputs => condition s input ∧ Always step condition (step s input) inputs

instance decidableAlways (step : σ → ι → σ) (condition : σ → ι → Prop)
    [∀ s input, Decidable (condition s input)] :
    ∀ (s : σ) (inputs : List ι), Decidable (Always step condition s inputs)
  | _, [] => .isTrue trivial
  | s, input :: inputs =>
      have := decidableAlways step condition (step s input) inputs
      inferInstanceAs (Decidable (condition s input ∧ _))

/-- Every run is one without a condition. -/
theorem always_true (step : σ → ι → σ) (s : σ) (inputs : List ι) :
    Always step (fun _ _ => True) s inputs := by
  induction inputs generalizing s with
  | nil => trivial
  | cons input inputs ih => exact ⟨trivial, ih (step s input)⟩

/-- What holds at every step of a run holds at the last one. -/
theorem Always.last {step : σ → ι → σ} {condition : σ → ι → Prop} {s : σ} {inputs : List ι}
    {input : ι} (always : Always step condition s (inputs ++ [input])) :
    condition (after step s inputs) input := by
  induction inputs generalizing s with
  | nil => exact always.1
  | cons first inputs ih => exact ih always.2

/-- A condition holds along a run and its continuation. -/
theorem Always.append_iff {step : σ → ι → σ} {condition : σ → ι → Prop} {s : σ}
    {inputs more : List ι} :
    Always step condition s (inputs ++ more) ↔
      Always step condition s inputs ∧ Always step condition (after step s inputs) more := by
  induction inputs generalizing s with
  | nil => simp [Always]
  | cons input inputs ih => exact (and_congr_right fun _ => ih).trans and_assoc.symm

/-- Two conditions hold along a run together. -/
theorem Always.and {step : σ → ι → σ} {condition condition' : σ → ι → Prop} {s : σ}
    {inputs : List ι} (first : Always step condition s inputs)
    (second : Always step condition' s inputs) :
    Always step (fun s input => condition s input ∧ condition' s input) s inputs := by
  induction inputs generalizing s with
  | nil => trivial
  | cons input inputs ih => exact ⟨⟨first.1, second.1⟩, ih first.2 second.2⟩

/-- Conditions that are equivalent at every step hold along the same runs. -/
theorem Always.congr {step : σ → ι → σ} {condition condition' : σ → ι → Prop}
    (same : ∀ s input, condition s input ↔ condition' s input) {s : σ} {inputs : List ι} :
    Always step condition s inputs ↔ Always step condition' s inputs := by
  induction inputs generalizing s with
  | nil => exact Iff.rfl
  | cons input inputs ih => exact and_congr (same s input) ih

/-- A machine together with a recorder that sees every step. -/
def monitored (step : σ → ι → σ) (record : σ → ι → γ → γ) (x : σ × γ) (input : ι) : σ × γ :=
  (step x.1 input, record x.1 input x.2)

/-- The recorder does not influence the machine. -/
theorem after_monitored_fst (step : σ → ι → σ) (record : σ → ι → γ → γ) (x : σ × γ)
    (inputs : List ι) :
    (after (monitored step record) x inputs).1 = after step x.1 inputs := by
  induction inputs generalizing x with
  | nil => rfl
  | cons input inputs ih => exact ih (monitored step record x input)

/-- A condition on the machine is one on the machine beside its recorder. -/
theorem Always.monitored_iff {step : σ → ι → σ} {condition : σ → ι → Prop}
    (record : σ → ι → γ → γ) {s : σ} (recorded : γ) {inputs : List ι} :
    Always (Trace.monitored step record) (fun x input => condition x.1 input) (s, recorded)
      inputs ↔ Always step condition s inputs := by
  induction inputs generalizing s recorded with
  | nil => exact Iff.rfl
  | cons input inputs ih => exact and_congr_right fun _ => ih (record s input recorded)

theorem Always.monitored {step : σ → ι → σ} {condition : σ → ι → Prop}
    (record : σ → ι → γ → γ) {s : σ} {inputs : List ι} (permitted : Always step condition s inputs)
    (recorded : γ) :
    Always (Trace.monitored step record) (fun x input => condition x.1 input) (s, recorded)
      inputs := (Always.monitored_iff record recorded).mpr permitted

variable {step : σ → ι → σ} {condition property : σ → ι → Prop}

/-- **An invariant that every permitted step preserves holds in every state a
permitted run reaches.** -/
theorem Always.invariant (inv : σ → Prop)
    (preserved : ∀ s input, inv s → condition s input → inv (step s input))
    {s : σ} {inputs : List ι} (initially : inv s)
    (permitted : Always step condition s inputs) : inv (after step s inputs) := by
  induction inputs generalizing s with
  | nil => exact initially
  | cons input inputs ih =>
      exact ih (preserved s input initially permitted.1) permitted.2

/-- **What an invariant implies of a permitted step holds at every step of a
permitted run.** -/
theorem Always.of_invariant (inv : σ → Prop)
    (preserved : ∀ s input, inv s → condition s input → inv (step s input))
    (implied : ∀ s input, inv s → condition s input → property s input)
    {s : σ} {inputs : List ι} (initially : inv s)
    (permitted : Always step condition s inputs) : Always step property s inputs := by
  induction inputs generalizing s with
  | nil => trivial
  | cons input inputs ih =>
      exact ⟨implied s input initially permitted.1,
        ih (preserved s input initially permitted.1) permitted.2⟩

/-- Where an invariant makes a property of a permitted step equivalent to a condition on
it, and the condition keeps the invariant, the two hold along the same permitted runs. -/
theorem Always.iff_of_invariant {permitted : σ → ι → Prop} (inv : σ → Prop)
    (preserved : ∀ s input, inv s → permitted s input → condition s input → inv (step s input))
    (equivalent : ∀ s input, inv s → permitted s input → (property s input ↔ condition s input))
    {s : σ} {inputs : List ι} (initially : inv s) (run : Always step permitted s inputs) :
    Always step property s inputs ↔ Always step condition s inputs := by
  induction inputs generalizing s with
  | nil => exact Iff.rfl
  | cons input inputs ih =>
      have here : property s input ↔ condition s input := equivalent s input initially run.1
      constructor
      · rintro ⟨first, rest⟩
        have met : condition s input := here.mp first
        exact ⟨met, (ih (preserved s input initially run.1 met) run.2).mp rest⟩
      · rintro ⟨met, rest⟩
        exact ⟨here.mpr met, (ih (preserved s input initially run.1 met) run.2).mpr rest⟩

/-- Where every permitted step extends what is known of the run, there is a growing record
of it: one entry for every number of steps. -/
theorem Always.timeline {γ : Type w} (inv : σ → γ → Prop) (before : γ → γ → Prop)
    (reflexive : ∀ g, before g g)
    (preserved : ∀ s input g, inv s g → condition s input →
      ∃ g', before g g' ∧ inv (step s input) g')
    {s : σ} {g : γ} {inputs : List ι} (initially : inv s g)
    (permitted : Always step condition s inputs) :
    ∃ known : Nat → γ, known 0 = g ∧ (∀ n, before (known n) (known (n + 1))) ∧
      ∀ n, inv (after step s (inputs.take n)) (known n) := by
  induction inputs generalizing s g with
  | nil => exact ⟨fun _ => g, rfl, fun _ => reflexive g, fun n => by simpa using initially⟩
  | cons input inputs ih =>
      obtain ⟨next, grown, held⟩ := preserved s input g initially permitted.1
      obtain ⟨known, first, grows, holds⟩ := ih held permitted.2
      refine ⟨fun n => n.casesOn g known, rfl, fun n => ?_, fun n => ?_⟩
      · cases n with
        | zero =>
            show before g (known 0)
            rw [first]
            exact grown
        | succ n => exact grows n
      · cases n with
        | zero => exact initially
        | succ n => exact holds n

end OrpsocCores.Trace
