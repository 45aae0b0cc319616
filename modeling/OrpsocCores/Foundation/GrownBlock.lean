import Mathlib.Data.List.Induction
import Mathlib.Logic.Nontrivial.Basic
import Mathlib.Order.Defs.LinearOrder
import OrpsocCores.Foundation.FixedBuffer

/-!
# Blocks that grow while pieces are copied into them

A loader puts pieces of bytes to their places in one block of memory, and resizes the
block when a piece ends at or behind its end.  The block comes from an allocator whose
fresh bytes hold anything, and which may or may not give a block for a request of no
bytes.

`contents` is what the block holds after some pieces: at each place the byte of the last
piece that covers it, and what the allocator left where there is none.  Placing one more
piece never leaves the block (`place_contents`).  Against an image that is wanted,
whatever the allocator leaves, the copied pieces have to cover every place
(`covers_iff`).
-/

set_option autoImplicit false

namespace OrpsocCores.GrownBlock

universe u

variable {β : Type u}

/-! ## Pieces -/

/-- Bytes and the place of the first of them. -/
structure Piece (β : Type u) where
  start : Nat
  bytes : List β

/-- The place behind a piece. -/
def Piece.stop (p : Piece β) : Nat := p.start + p.bytes.length

/-- The byte that a piece has for a place. -/
def Piece.at? (p : Piece β) (a : Nat) : Option β :=
  if p.start ≤ a then p.bytes[a - p.start]? else none

/-- The place behind all pieces. -/
def top (pieces : List (Piece β)) : Nat := pieces.foldl (fun stop p => max stop p.stop) 0

/-- The byte of the last piece that covers a place. -/
def last? (pieces : List (Piece β)) (a : Nat) : Option β :=
  pieces.foldl (fun found p => (p.at? a).or found) none

@[simp] theorem top_nil : top ([] : List (Piece β)) = 0 := rfl

theorem top_concat (pieces : List (Piece β)) (p : Piece β) :
    top (pieces ++ [p]) = max (top pieces) p.stop := by
  simp [top]

theorem last?_concat (pieces : List (Piece β)) (p : Piece β) (a : Nat) :
    last? (pieces ++ [p]) a = (p.at? a).or (last? pieces a) := by
  simp [last?]

/-- No piece ends behind the top. -/
theorem stop_le_top {pieces : List (Piece β)} {p : Piece β} (listed : p ∈ pieces) :
    p.stop ≤ top pieces := by
  induction pieces using List.reverseRecOn with
  | nil => cases listed
  | append_singleton front last ih =>
      rw [top_concat]
      rcases List.mem_append.mp listed with earlier | same
      · exact le_trans (ih earlier) (le_max_left _ _)
      · rw [List.mem_singleton.mp same]
        exact le_max_right _ _

theorem top_lt {pieces : List (Piece β)} {bound : Nat} (positive : 0 < bound)
    (below : ∀ p ∈ pieces, p.stop < bound) : top pieces < bound := by
  induction pieces using List.reverseRecOn with
  | nil => exact positive
  | append_singleton front last ih =>
      rw [top_concat]
      exact max_lt (ih fun p listed => below p (List.mem_append_left _ listed))
        (below last (by simp))

/-! ## Blocks -/

/-- What a program cannot know of an allocator: what fresh bytes hold, and whether a
request of no bytes gives a block, with none and with a block to resize.  A block grows over
a place once, so that what a fresh byte holds may depend on its place alone. -/
structure Heap (β : Type u) where
  fresh : Nat → β
  mallocZero : Bool
  reallocZero : Bool

/-- `realloc`, for an allocator that does not run out of memory; a pointer to nothing is
`none`. -/
def Heap.realloc (heap : Heap β) (block : Option (List β)) (size : Nat) : Option (List β) :=
  if size = 0 then
    match block with
    | none => if heap.mallocZero then some [] else none
    | some _ => if heap.reallocZero then some [] else none
  else some ((List.range size).map fun a => (block.getD [])[a]?.getD (heap.fresh a))

/-- `memcpy` to a place of a block. -/
def memcpy (block : Option (List β)) (place : Nat) (bytes : List β) :
    Except Fault (Option (List β)) :=
  if place + bytes.length ≤ (block.getD []).length then
    .ok (block.map fun old => old.take place ++ bytes ++ old.drop (place + bytes.length))
  else .error .outOfBounds

/-- What a block holds after these pieces. -/
def contents (fresh : Nat → β) (pieces : List (Piece β)) : List β :=
  (List.range (top pieces)).map fun a => (last? pieces a).getD (fresh a)

@[simp] theorem length_contents (fresh : Nat → β) (pieces : List (Piece β)) :
    (contents fresh pieces).length = top pieces := by
  simp [contents]

theorem getElem?_contents {fresh : Nat → β} {pieces : List (Piece β)} {a : Nat}
    (inside : a < top pieces) :
    (contents fresh pieces)[a]? = some ((last? pieces a).getD (fresh a)) := by
  simp [contents, inside]

/-- A place behind the pieces is covered by none. -/
theorem last?_eq_none {pieces : List (Piece β)} {a : Nat} (behind : top pieces ≤ a) :
    last? pieces a = none := by
  induction pieces using List.reverseRecOn with
  | nil => rfl
  | append_singleton front last ih =>
      rw [top_concat] at behind
      have outside : last.at? a = none := by
        have stop : last.start + last.bytes.length ≤ a := le_trans (le_max_right _ _) behind
        rw [Piece.at?, if_pos (by omega), List.getElem?_eq_none (by omega)]
      rw [last?_concat, outside, ih (le_trans (le_max_left _ _) behind)]
      rfl

/-- A copy inside a block. -/
theorem getElem?_copied {old : List β} {p : Piece β} (inside : p.stop ≤ old.length) (a : Nat) :
    (old.take p.start ++ p.bytes ++ old.drop p.stop)[a]? = (p.at? a).or old[a]? := by
  have stop : p.stop = p.start + p.bytes.length := rfl
  have front : (old.take p.start).length = p.start := by
    rw [List.length_take]
    omega
  have copied : (old.take p.start ++ p.bytes).length = p.stop := by
    rw [List.length_append, front, stop]
  rw [Piece.at?]
  rcases Nat.lt_or_ge a p.start with before | after
  · rw [if_neg (by omega), List.append_assoc, List.getElem?_append_left (by omega),
      List.getElem?_take, if_pos before]
    rfl
  · rw [if_pos after]
    rcases Nat.lt_or_ge a p.stop with within | behind
    · rw [List.getElem?_append_left (by omega), List.getElem?_append_right (by omega), front,
        List.getElem?_eq_getElem (by omega)]
      rfl
    · have outside : p.bytes[a - p.start]? = none := List.getElem?_eq_none (by omega)
      rw [List.getElem?_append_right (by omega), copied, List.getElem?_drop, outside,
        Nat.add_sub_cancel' behind]
      rfl

/-- The block is resized when the piece does not end before its end. -/
def grown (heap : Heap β) (block : Option (List β)) (size stop : Nat) : Option (List β) :=
  if size ≤ stop then heap.realloc block stop else block

theorem getD_realloc (heap : Heap β) (block : Option (List β)) (size : Nat) :
    (heap.realloc block size).getD [] =
      (List.range size).map fun a => (block.getD [])[a]?.getD (heap.fresh a) := by
  unfold Heap.realloc
  split
  · rename_i zero
    subst zero
    cases block <;> dsimp only <;> split <;> rfl
  · rfl

/-- What a resized block holds. -/
theorem getD_grown {heap : Heap β} {block : Option (List β)} {pieces : List (Piece β)}
    (holds : block.getD [] = contents heap.fresh pieces) (stop : Nat) :
    (grown heap block (top pieces) stop).getD [] =
      (List.range (max (top pieces) stop)).map fun a => (last? pieces a).getD (heap.fresh a) := by
  rw [grown]
  split
  · rename_i grows
    rw [getD_realloc, holds, max_eq_right grows]
    refine List.map_congr_left fun a _ => ?_
    rcases Nat.lt_or_ge a (top pieces) with inside | behind
    · rw [getElem?_contents inside]
      rfl
    · rw [List.getElem?_eq_none (by simpa using behind), last?_eq_none behind]
  · rename_i kept
    rw [holds, max_eq_left (by omega)]
    rfl

/-- An allocator that gives a block for every request. -/
def Heap.Generous (heap : Heap β) : Prop := heap.mallocZero = true ∧ heap.reallocZero = true

theorem Heap.Generous.realloc_ne_none {heap : Heap β} (generous : heap.Generous)
    (block : Option (List β)) (size : Nat) : heap.realloc block size ≠ none := by
  obtain ⟨mallocZero, reallocZero⟩ := generous
  simp only [Heap.realloc, mallocZero, reallocZero, if_true]
  split
  · cases block <;> exact Option.some_ne_none _
  · exact Option.some_ne_none _

theorem Heap.Generous.grown_ne_none {heap : Heap β} (generous : heap.Generous)
    {block : Option (List β)} {pieces : List (Piece β)}
    (holds : block.getD [] = contents heap.fresh pieces) (stop : Nat) :
    grown heap block (top pieces) stop ≠ none := by
  rw [grown]
  split
  · exact generous.realloc_ne_none block stop
  · -- the block is kept, and it is not empty
    rename_i behind
    intro nothing
    have length := congrArg List.length holds
    rw [nothing, length_contents] at length
    have empty : 0 = top pieces := length
    omega

/-- **One more piece is placed inside the block.** -/
theorem place_contents {heap : Heap β} {block : Option (List β)} {pieces : List (Piece β)}
    (holds : block.getD [] = contents heap.fresh pieces) (p : Piece β) :
    ∃ block', memcpy (grown heap block (top pieces) p.stop) p.start p.bytes = .ok block' ∧
      block'.getD [] = contents heap.fresh (pieces ++ [p]) ∧
      (block' = none ↔ grown heap block (top pieces) p.stop = none) := by
  have before := getD_grown holds p.stop
  have length : ((grown heap block (top pieces) p.stop).getD []).length =
      max (top pieces) p.stop := by
    rw [before, List.length_map, List.length_range]
  have inside : p.stop ≤ max (top pieces) p.stop := le_max_right _ _
  refine ⟨_, if_pos (length ▸ inside), ?_, Option.map_eq_none_iff⟩
  apply List.ext_getElem?
  intro a
  have placed : ((grown heap block (top pieces) p.stop).map fun old =>
      old.take p.start ++ p.bytes ++ old.drop p.stop).getD [] =
      ((grown heap block (top pieces) p.stop).getD []).take p.start ++ p.bytes ++
        ((grown heap block (top pieces) p.stop).getD []).drop p.stop := by
    cases isBlock : grown heap block (top pieces) p.stop with
    | some old => rfl
    | none =>
        rw [isBlock] at length
        have empty : p.bytes = [] := by
          apply List.eq_nil_of_length_eq_zero
          have stop : p.stop = p.start + p.bytes.length := rfl
          have zero : ([] : List β).length = max (top pieces) p.stop := length
          rw [List.length_nil] at zero
          omega
        simp [empty]
  change (((grown heap block (top pieces) p.stop).map fun old =>
      old.take p.start ++ p.bytes ++ old.drop p.stop).getD [])[a]? = _
  rw [placed, getElem?_copied (length ▸ inside), before]
  rcases Nat.lt_or_ge a (max (top pieces) p.stop) with within | behind
  · rw [getElem?_contents (top_concat pieces p ▸ within), last?_concat]
    simp [within]
  · have outside : p.at? a = none := by
      have stop : p.start + p.bytes.length ≤ a := le_trans inside behind
      rw [Piece.at?, if_pos (by omega), List.getElem?_eq_none (by omega)]
    rw [outside, List.getElem?_eq_none (by simpa using behind),
      List.getElem?_eq_none (by simpa [top_concat] using behind)]
    rfl

/-! ## The image that is wanted -/

/-- The copied pieces give the image of the wanted ones, with this byte where none of these
is. -/
def Covers (blank : β) (copied wanted : List (Piece β)) : Prop :=
  top copied = top wanted ∧
    ∀ a < top wanted, last? copied a = some ((last? wanted a).getD blank)

instance [DecidableEq β] (blank : β) (copied wanted : List (Piece β)) :
    Decidable (Covers blank copied wanted) :=
  inferInstanceAs (Decidable (_ ∧ ∀ a < _, _))

/-- **Whatever fresh bytes hold, the block is the wanted image exactly when the copied pieces
cover it.** -/
theorem covers_iff [Nontrivial β] (blank : β) (copied wanted : List (Piece β)) :
    Covers blank copied wanted ↔
      ∀ fresh : Nat → β, top copied = top wanted ∧
        contents fresh copied = contents (fun _ => blank) wanted := by
  constructor
  · rintro ⟨same, bytes⟩ fresh
    refine ⟨same, List.ext_getElem? fun a => ?_⟩
    rcases Nat.lt_or_ge a (top wanted) with inside | behind
    · rw [getElem?_contents (same ▸ inside), getElem?_contents inside, bytes a inside]
      rfl
    · rw [List.getElem?_eq_none (by simpa [same] using behind),
        List.getElem?_eq_none (by simpa using behind)]
  · intro always
    refine ⟨(always fun _ => blank).1, fun a inside => ?_⟩
    -- a fresh byte that is not the wanted one shows where nothing was copied
    obtain ⟨other, differs⟩ := exists_ne ((last? wanted a).getD blank)
    obtain ⟨same, equal⟩ := always fun _ => other
    have here := congrArg (·[a]?) equal
    simp only [getElem?_contents (same ▸ inside), getElem?_contents inside,
      Option.some.injEq] at here
    cases found : last? copied a with
    | some byte =>
        rw [found] at here
        exact congrArg some here
    | none =>
        rw [found] at here
        exact absurd here differs

end OrpsocCores.GrownBlock
