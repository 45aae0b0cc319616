import Mathlib.Algebra.BigOperators.Group.Multiset.Basic
import OrpsocCores.WbIntercon.Config

/-!
# Connections seen from both sides

A connection is a listing of a slave by a master.  The masters know their slaves and
the slaves know their masters; `sum_mastersOf` counts the connections from either side.
-/

set_option autoImplicit false

namespace OrpsocCores.WbIntercon

variable {intercon : WbIntercon} {master : Master} {slave : Slave}

theorem mem_slavesOf : slave ∈ intercon.slavesOf master ↔
    slave ∈ intercon.slaves.values ∧ slave.name ∈ master.listed := by
  rw [slavesOf, List.mem_filterMap]
  constructor
  · rintro ⟨name, listed, found⟩
    obtain ⟨member, rfl⟩ := OrderedDict.mem_of_get? found
    exact ⟨member, listed⟩
  · rintro ⟨member, listed⟩
    exact ⟨slave.name, listed, OrderedDict.get?_key member⟩

theorem mem_mastersOf : master ∈ intercon.mastersOf slave ↔
    master ∈ intercon.masters.values ∧ slave.name ∈ master.listed := by
  simp only [mastersOf, List.mem_flatMap, List.mem_map, List.mem_filter, decide_eq_true_eq]
  constructor
  · rintro ⟨other, member, name, ⟨listed, rfl⟩, rfl⟩
    exact ⟨member, listed⟩
  · rintro ⟨member, listed⟩
    exact ⟨master, member, slave.name, ⟨listed, rfl⟩, rfl⟩

/-- Every name in a list belongs to a slave. -/
theorem length_slavesOf (member : master ∈ intercon.masters.values) :
    (intercon.slavesOf master).length = master.listed.length := by
  rw [slavesOf, List.length_filterMap_eq_countP, List.countP_eq_length]
  exact fun name listed => intercon.slave_of_listed master member name listed

section

variable {M : Type} [AddCommMonoid M]

theorem sum_map_filter_eq (names : List String) (name : String) (summand : M) :
    ((names.filter (· = name)).map fun _ => summand).sum =
      (names.map fun other => if other = name then summand else 0).sum := by
  induction names with
  | nil => rfl
  | cons other rest ih =>
      rw [List.map_cons, List.sum_cons, ← ih, List.filter_cons]
      by_cases same : other = name
      · rw [if_pos (decide_eq_true same), if_pos same, List.map_cons, List.sum_cons]
      · rw [if_neg (by simpa using same), if_neg same, zero_add]

theorem sum_mastersOf_eq (intercon : WbIntercon) (slave : Slave) (summand : Master → M) :
    ((intercon.mastersOf slave).map summand).sum =
      (intercon.masters.values.map fun m =>
        (m.listed.map fun name => if name = slave.name then summand m else 0).sum).sum := by
  rw [mastersOf]
  induction intercon.masters.values with
  | nil => rfl
  | cons m rest ih =>
      rw [List.flatMap_cons, List.map_append, List.sum_append, ih, List.map_map, List.map_cons,
        List.sum_cons, ← sum_map_filter_eq]
      rfl

theorem sum_slavesOf_eq (intercon : WbIntercon) (master : Master) (summand : Slave → M) :
    ((intercon.slavesOf master).map summand).sum =
      (master.listed.map fun name => (intercon.slaves.get? name).elim 0 summand).sum := by
  rw [slavesOf]
  induction master.listed with
  | nil => rfl
  | cons name rest ih =>
      cases found : intercon.slaves.get? name with
      | none => simp [found, ih]
      | some s => simp [found, ih]

theorem sum_comm {α β : Type} (as : List α) (bs : List β) (summand : α → β → M) :
    (as.map fun a => (bs.map fun b => summand a b).sum).sum =
      (bs.map fun b => (as.map fun a => summand a b).sum).sum := by
  have exchanged := Multiset.sum_map_sum_map (as : Multiset α) (bs : Multiset β) (f := summand)
  simpa only [Multiset.map_coe, Multiset.sum_coe] using exchanged

/-- **The connections are the same from the slaves' and from the masters' side.** -/
theorem sum_mastersOf (intercon : WbIntercon) (summand : Master → Slave → M) :
    (intercon.slaves.values.map fun s =>
        ((intercon.mastersOf s).map fun m => summand m s).sum).sum =
      (intercon.masters.values.map fun m =>
        ((intercon.slavesOf m).map fun s => summand m s).sum).sum := by
  simp only [sum_mastersOf_eq, sum_slavesOf_eq]
  rw [sum_comm]
  congr 1
  apply List.map_congr_left
  intro m _
  rw [sum_comm]
  congr 1
  apply List.map_congr_left
  intro name _
  exact OrderedDict.sum_key intercon.slaves name (summand m)

end

end OrpsocCores.WbIntercon
