import Mathlib.Algebra.Ring.Int.Defs
import Mathlib.Algebra.Ring.Nat
import Mathlib.Data.List.Basic
import Mathlib.Tactic.Common

/-!
# Arrays of a fixed size

A C array has a fixed number of cells and nothing checks the index.  Here an
access outside the array is a fault the program runs into, so that a program
which is proved to end without a fault never leaves its arrays.

`Holds data i l` says that the cells from `i` on hold the elements of `l`.  A
loop that fills an array keeps `Holds data 0 written`, and one that decodes in
place keeps two such facts about one array, one behind the other; `Holds.set`
and `Holds.extend` are the rules for a store outside and at the end of the part
already known.  `counted_loop` is the rule for a loop over a counter whose body
can fault.
-/

set_option autoImplicit false

namespace OrpsocCores

/-- How a run can go wrong: an access outside an array, an access through a
pointer that points to nothing, or a loop of the model that was not given enough
rounds. -/
inductive Fault where
  | outOfBounds
  | dangling
  | exhausted
  deriving DecidableEq, Repr

namespace FixedBuffer

universe u

variable {α : Type u} {n : Nat}

/-- `data[i] = x`. -/
def store (data : Vector α n) (i : Nat) (x : α) : Except Fault (Vector α n) :=
  if h : i < n then .ok (data.set i x h) else .error .outOfBounds

/-- `data[i]`. -/
def load (data : Vector α n) (i : Nat) : Except Fault α :=
  if h : i < n then .ok (data.get ⟨i, h⟩) else .error .outOfBounds

/-- The cells from `i` on hold the elements of the list. -/
def Holds (data : Vector α n) (i : Nat) (l : List α) : Prop :=
  ∀ k, k < l.length → data[i + k]? = l[k]?

theorem Holds.nil (data : Vector α n) (i : Nat) : Holds data i [] := by
  intro k short
  exact absurd short (Nat.not_lt_zero k)

theorem holds_append {data : Vector α n} {i : Nat} {l m : List α} :
    Holds data i (l ++ m) ↔ Holds data i l ∧ Holds data (i + l.length) m := by
  constructor
  · intro both
    constructor
    · intro k inside
      rw [both k (by rw [List.length_append]; omega), List.getElem?_append_left inside]
    · intro k inside
      rw [Nat.add_assoc, both (l.length + k) (by rw [List.length_append]; omega),
        List.getElem?_append_right (by omega), Nat.add_sub_cancel_left]
  · rintro ⟨first, second⟩ k inside
    rcases Nat.lt_or_ge k l.length with before | behind
    · rw [first k before, List.getElem?_append_left before]
    · have here := second (k - l.length) (by rw [List.length_append] at inside; omega)
      rw [Nat.add_assoc, Nat.add_sub_cancel' behind] at here
      rw [here, List.getElem?_append_right behind]

theorem holds_cons {data : Vector α n} {i : Nat} {x : α} {l : List α} :
    Holds data i (x :: l) ↔ data[i]? = some x ∧ Holds data (i + 1) l := by
  rw [show x :: l = [x] ++ l from rfl, holds_append]
  constructor
  · rintro ⟨first, rest⟩
    exact ⟨first 0 Nat.zero_lt_one, rest⟩
  · rintro ⟨first, rest⟩
    refine ⟨fun k inside => ?_, rest⟩
    obtain rfl : k = 0 := Nat.lt_one_iff.mp inside
    exact first

/-- What an array holds lies inside it. -/
theorem Holds.bound {data : Vector α n} {i : Nat} {l : List α} (holds : Holds data i l)
    (some_element : l ≠ []) : i + l.length ≤ n := by
  have positive := List.length_pos_of_ne_nil some_element
  have last := holds (l.length - 1) (by omega)
  rw [List.getElem?_eq_getElem (by omega)] at last
  have inside := (Vector.getElem?_eq_some_iff.mp last).1
  omega

/-- A store beside the part already known leaves it alone. -/
theorem Holds.set {data : Vector α n} {i j : Nat} {l : List α} {x : α} (holds : Holds data i l)
    (inside : j < n) (apart : j < i ∨ i + l.length ≤ j) : Holds (data.set j x inside) i l := by
  intro k short
  rw [Vector.getElem?_set_ne inside (by omega)]
  exact holds k short

/-- A store at the end of the part already known extends it. -/
theorem Holds.extend {data : Vector α n} {i : Nat} {l : List α} {x : α} (holds : Holds data i l)
    (inside : i + l.length < n) :
    Holds (data.set (i + l.length) x inside) i (l ++ [x]) := by
  rw [holds_append]
  refine ⟨holds.set inside (.inr (Nat.le_refl _)), ?_⟩
  rw [holds_cons]
  exact ⟨by simp, Holds.nil _ _⟩

theorem store_of_lt {data : Vector α n} {i : Nat} {x : α} (inside : i < n) :
    store data i x = .ok (data.set i x inside) :=
  dif_pos inside

theorem load_of_lt {data : Vector α n} {i : Nat} (inside : i < n) :
    load data i = .ok (data.get ⟨i, inside⟩) :=
  dif_pos inside

theorem load_of_getElem? {data : Vector α n} {i : Nat} {x : α} (holds : data[i]? = some x) :
    load data i = .ok x := by
  obtain ⟨inside, rfl⟩ := Vector.getElem?_eq_some_iff.mp holds
  exact dif_pos inside

/-- The first cells, read as a list. -/
theorem Holds.take {data : Vector α n} {l : List α} (holds : Holds data 0 l) :
    data.toList.take l.length = l := by
  apply List.ext_getElem?
  intro k
  rw [List.getElem?_take]
  split
  · next inside =>
      have here := holds k inside
      rw [Nat.zero_add] at here
      rw [← here]
      simp
  · next outside => rw [List.getElem?_eq_none (by omega)]

theorem holds_of_take {data : Vector α n} {l : List α} (first : data.toList.take l.length = l) :
    Holds data 0 l := by
  intro k inside
  rw [Nat.zero_add]
  conv_rhs => rw [← first]
  rw [List.getElem?_take_of_lt inside]
  simp

/-- The rule for a counted loop: an invariant of the counter and the variables
that every round re-establishes. -/
theorem counted_loop {σ ε : Type u} {step : σ → Nat → Except ε σ} {start : σ}
    (inv : Nat → σ → Prop) (rounds : Nat) (init : inv 0 start)
    (round : ∀ k s, k < rounds → inv k s → ∃ s', step s k = .ok s' ∧ inv (k + 1) s') :
    ∃ s, (List.range rounds).foldlM step start = .ok s ∧ inv rounds s := by
  induction rounds with
  | zero => exact ⟨start, rfl, init⟩
  | succ rounds ih =>
      obtain ⟨s, run, kept⟩ := ih fun k s inside => round k s (Nat.lt_succ_of_lt inside)
      obtain ⟨s', last, kept'⟩ := round rounds s (Nat.lt_succ_self rounds) kept
      refine ⟨s', ?_, kept'⟩
      rw [List.range_succ, List.foldlM_append, run]
      simp [last, bind, Except.bind, pure, Except.pure]

/-- A loop that reaches a round that always faults does not end. -/
theorem faulting_loop {σ ε : Type u} {step : σ → Nat → Except ε σ} {k rounds : Nat}
    (faults : ∀ s, ∃ fault, step s k = .error fault) (reached : k < rounds) (start : σ) :
    ∃ fault, (List.range rounds).foldlM step start = .error fault := by
  induction rounds with
  | zero => exact absurd reached (Nat.not_lt_zero k)
  | succ rounds ih =>
      rw [List.range_succ, List.foldlM_append]
      rcases Nat.lt_succ_iff_lt_or_eq.mp reached with before | rfl
      · obtain ⟨fault, stopped⟩ := ih before
        exact ⟨fault, by rw [stopped]; rfl⟩
      · cases front : (List.range k).foldlM step start with
        | error fault => exact ⟨fault, rfl⟩
        | ok s =>
            obtain ⟨fault, stopped⟩ := faults s
            exact ⟨fault, by simp [stopped, bind, Except.bind]⟩

end FixedBuffer

end OrpsocCores
