import Mathlib.Algebra.BigOperators.Group.List.Basic
import Mathlib.Algebra.Ring.Int.Defs
import Mathlib.Algebra.Ring.Nat
import Mathlib.Data.List.Nodup
import Mathlib.Tactic.Common

/-!
# Dictionaries in order of insertion

The values carry their own key.  Assigning to a key that is there replaces the value
in its place; a new key goes to the end.  That no two values share a key is a field.
-/

set_option autoImplicit false

namespace OrpsocCores

/-- A dictionary of values that know their key. -/
structure OrderedDict {α κ : Type} (key : α → κ) where
  values : List α
  nodup_keys : (values.map key).Nodup

namespace OrderedDict

variable {α κ : Type} {key : α → κ}

/-- The dictionary without entries. -/
def empty : OrderedDict key := ⟨[], List.nodup_nil⟩

variable [DecidableEq κ]

/-- The values after an assignment. -/
def assigned (values : List α) (key : α → κ) (a : α) : List α :=
  if key a ∈ values.map key then values.map fun b => if key b = key a then a else b
  else values ++ [a]

theorem nodup_keys_assigned {values : List α} (nodup : (values.map key).Nodup) (a : α) :
    ((assigned values key a).map key).Nodup := by
  rw [assigned]
  split
  case isTrue present =>
      have kept : (values.map fun b => if key b = key a then a else b).map key =
          values.map key := by
        rw [List.map_map]
        apply List.map_congr_left
        intro b member
        rw [Function.comp_apply]
        split
        case isTrue same => exact same.symm
        case isFalse => rfl
      rwa [kept]
  case isFalse absent =>
      rw [List.map_append, List.map_singleton]
      refine List.Nodup.append nodup (List.nodup_singleton _) ?_
      rwa [List.disjoint_singleton]

/-- `d[key] = a`. -/
def assign (d : OrderedDict key) (a : α) : OrderedDict key :=
  ⟨assigned d.values key a, nodup_keys_assigned d.nodup_keys a⟩

/-- `d[k]`, or nothing where the lookup raises. -/
def get? (d : OrderedDict key) (k : κ) : Option α := d.values.find? fun a => key a = k

theorem mem_of_get? {d : OrderedDict key} {k : κ} {a : α} (found : d.get? k = some a) :
    a ∈ d.values ∧ key a = k := by
  refine ⟨List.mem_of_find?_eq_some found, ?_⟩
  simpa using List.find?_some found

omit [DecidableEq κ] in
theorem eq_of_key_eq {d : OrderedDict key} {a b : α} (left : a ∈ d.values) (right : b ∈ d.values)
    (same : key a = key b) : a = b :=
  List.inj_on_of_nodup_map d.nodup_keys left right same

theorem get?_key {d : OrderedDict key} {a : α} (member : a ∈ d.values) :
    d.get? (key a) = some a := by
  obtain ⟨b, found⟩ : ∃ b, d.get? (key a) = some b := by
    rw [← Option.isSome_iff_exists, get?, List.find?_isSome]
    exact ⟨a, member, decide_eq_true rfl⟩
  obtain ⟨inside, same⟩ := mem_of_get? found
  rw [found, eq_of_key_eq inside member same]

/-- A sum over the values of one key is the summand of the value with that key. -/
theorem sum_key {M : Type} [AddCommMonoid M] (d : OrderedDict key) (k : κ) (summand : α → M) :
    (d.values.map fun a => if k = key a then summand a else 0).sum =
      (d.get? k).elim 0 summand := by
  obtain ⟨values, nodup⟩ := d
  rw [get?]
  induction values with
  | nil => rfl
  | cons a rest ih =>
      rw [List.map_cons, List.nodup_cons] at nodup
      rw [List.map_cons, List.sum_cons, ih nodup.2, List.find?_cons]
      by_cases same : key a = k
      · have others : rest.find? (fun b => decide (key b = k)) = none := by
          rw [List.find?_eq_none]
          intro b member
          rw [decide_eq_true_eq, ← same]
          exact fun equal => nodup.1 (equal ▸ List.mem_map_of_mem member)
        rw [others, decide_eq_true same, if_pos same.symm]
        exact add_zero _
      · rw [decide_eq_false same, if_neg (Ne.symm same)]
        exact zero_add _

end OrderedDict

end OrpsocCores
