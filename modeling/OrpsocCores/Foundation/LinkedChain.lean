import Mathlib.Algebra.Ring.Int.Defs
import Mathlib.Algebra.Ring.Nat
import Mathlib.Data.List.Nodup
import Mathlib.Logic.Function.Basic

/-!
# Linked chains in a heap

A heap maps pointers to cells, a cell holds some data and the pointer to the
next cell.  `Chain heap head l` says that the cells reached from `head` are
those of the finite list `l`, in this order, and that the last one has no
successor.  Such a chain cannot run into itself (`Chain.nodup`).

The rules are the ones a program on chains needs: a store to any other cell
leaves a chain alone (`Chain.frame`), a fresh cell in front of it extends it
(`Chain.push`), and redirecting a cell past its successor takes the successor
out (`Chain.unlink`).
-/

set_option autoImplicit false

namespace OrpsocCores

universe u v

/-- A cell of a linked chain. -/
structure Cell (π : Type u) (δ : Type v) where
  data : δ
  next : Option π
  deriving DecidableEq

variable {π : Type u} {δ : Type v} {heap heap' : π → Option (Cell π δ)}

/-- The cells reached from a pointer, up to the end of the chain. -/
def Chain (heap : π → Option (Cell π δ)) : Option π → List (π × δ) → Prop
  | head, [] => head = none
  | head, (p, d) :: l => head = some p ∧ ∃ next, heap p = some ⟨d, next⟩ ∧ Chain heap next l

namespace Chain

/-- A cell of a chain is in the heap. -/
theorem cell {head : Option π} {l : List (π × δ)} (chain : Chain heap head l) {p : π} {d : δ}
    (member : (p, d) ∈ l) : ∃ next, heap p = some ⟨d, next⟩ := by
  induction l generalizing head with
  | nil => exact absurd member List.not_mem_nil
  | cons x l ih =>
      obtain ⟨-, next, here, rest⟩ := chain
      rcases List.mem_cons.mp member with rfl | later
      · exact ⟨next, here⟩
      · exact ih rest later

theorem unique {head : Option π} {l l' : List (π × δ)} (chain : Chain heap head l)
    (chain' : Chain heap head l') : l = l' := by
  induction l generalizing head l' with
  | nil =>
      cases l' with
      | nil => rfl
      | cons x l' =>
          obtain ⟨start, -⟩ := chain'
          exact absurd (chain.symm.trans start) (Option.some_ne_none _).symm
  | cons x l ih =>
      obtain ⟨start, next, here, rest⟩ := chain
      cases l' with
      | nil => exact absurd (start.symm.trans chain') (Option.some_ne_none _)
      | cons x' l' =>
          obtain ⟨start', next', here', rest'⟩ := chain'
          obtain ⟨p, d⟩ := x
          obtain ⟨p', d'⟩ := x'
          obtain rfl : p = p' := Option.some.inj (start.symm.trans start')
          have same := Option.some.inj (here.symm.trans here')
          rw [Cell.mk.injEq] at same
          obtain ⟨rfl, rfl⟩ := same
          rw [ih rest rest']

theorem suffix {head : Option π} {before l : List (π × δ)} (chain : Chain heap head (before ++ l)) :
    ∃ mid, Chain heap mid l := by
  induction before generalizing head with
  | nil => exact ⟨head, chain⟩
  | cons x before ih =>
      obtain ⟨-, next, -, rest⟩ := chain
      exact ih rest

/-- **A finite chain is acyclic.** -/
theorem nodup {head : Option π} {l : List (π × δ)} (chain : Chain heap head l) :
    (l.map Prod.fst).Nodup := by
  induction l generalizing head with
  | nil => exact List.nodup_nil
  | cons x l ih =>
      obtain ⟨start, next, here, rest⟩ := id chain
      refine List.nodup_cons.mpr ⟨?_, ih rest⟩
      intro again
      obtain ⟨y, member, same⟩ := List.mem_map.mp again
      obtain ⟨before, behind, rfl⟩ := List.append_of_mem member
      -- the chain from the second occurrence on is the whole chain
      obtain ⟨mid, from_second⟩ := rest.suffix
      obtain ⟨start', -⟩ := id from_second
      have restarts : mid = head := by rw [start', start, same]
      rw [restarts] at from_second
      have lengths := congrArg List.length (chain.unique from_second)
      simp only [List.length_cons, List.length_append] at lengths
      omega

/-- A chain depends on its own cells only. -/
theorem frame {head : Option π} {l : List (π × δ)} (chain : Chain heap head l)
    (same : ∀ p ∈ l.map Prod.fst, heap' p = heap p) : Chain heap' head l := by
  induction l generalizing head with
  | nil => exact chain
  | cons x l ih =>
      obtain ⟨start, next, here, rest⟩ := chain
      refine ⟨start, next, ?_, ih rest fun p member => same p (List.mem_cons_of_mem _ member)⟩
      rw [same x.1 List.mem_cons_self, here]

variable [DecidableEq π]

/-- A fresh cell in front of a chain. -/
theorem push {head : Option π} {l : List (π × δ)} (chain : Chain heap head l) {p : π} (d : δ)
    (fresh : p ∉ l.map Prod.fst) :
    Chain (Function.update heap p (some ⟨d, head⟩)) (some p) ((p, d) :: l) := by
  refine ⟨rfl, head, Function.update_self .., chain.frame fun q member => ?_⟩
  apply Function.update_of_ne
  rintro rfl
  exact fresh member

/-- A cell redirected past its successor. -/
theorem unlink {head : Option π} {before l : List (π × δ)} {q p : π} {e d : δ}
    {next : Option π} (chain : Chain heap head (before ++ (q, e) :: (p, d) :: l))
    (here : heap p = some ⟨d, next⟩) :
    Chain (Function.update heap q (some ⟨e, next⟩)) head (before ++ (q, e) :: l) := by
  induction before generalizing head with
  | nil =>
      have distinct := chain.nodup
      obtain ⟨start, -, -, start', next', here', rest⟩ := chain
      have same := Option.some.inj (here.symm.trans here')
      rw [Cell.mk.injEq] at same
      obtain ⟨-, rfl⟩ := same
      refine ⟨start, next, Function.update_self .., rest.frame fun r member => ?_⟩
      apply Function.update_of_ne
      rintro rfl
      exact (List.nodup_cons.mp distinct).1 (List.mem_cons_of_mem _ member)
  | cons x before ih =>
      have distinct := chain.nodup
      rw [List.cons_append, List.map_cons, List.nodup_cons, List.map_append] at distinct
      obtain ⟨start, mid, first, rest⟩ := chain
      refine ⟨start, mid, ?_, ih rest⟩
      rw [Function.update_of_ne ?_, first]
      intro same
      exact distinct.1 (same ▸ List.mem_append_right _ List.mem_cons_self)

end Chain

end OrpsocCores
