import Mathlib.Data.List.Basic
import OrpsocCores.JpVpi.Bridge

/-!
# Receiving a block

`get_block_data_from_vpi` reads until it has counted as many bytes as it wants.  How many
a call of `read` gives is for the operating system to say.  Every call is given the start
of the buffer, and no other, so that what it reads lands on what came before.  The last
call that is long enough to reach a place decides what is there (`landed`), and a block
arrives whatever its bytes are exactly when one call reads it all (`block_receive_iff`).
-/

set_option autoImplicit false

namespace OrpsocCores.JpVpi

/-- The buffer behind a call of `read` that gives so many bytes of the stream, from a
position on. -/
def readInto (sent : Nat → Byte) (position count : Nat) (recvBuf : Nat → Byte) : Nat → Byte :=
  fun place => if place < count then sent (position + place) else recvBuf place

/-- The loop of `get_block_data_from_vpi`: `n` bytes of the stream have been read, and
these are the results of `read` to come. -/
def getBlockLoop (sent : Nat → Byte) (len : Nat) : Nat → List Int → (Nat → Byte) →
    Option (Nat → Byte)
  | n, [], recvBuf => if n < len then none else some recvBuf
  | n, status :: rest, recvBuf =>
      if n < len then
        if 0 < status then
          getBlockLoop sent len (n + status.toNat) rest (readInto sent n status.toNat recvBuf)
        else getBlockLoop sent len n rest recvBuf
      else some recvBuf

/-- `get_block_data_from_vpi`, with the stream of bytes, the results of `read`, and what
`data` points to. -/
def getBlockData (sent : Nat → Byte) (len : Nat) (statuses : List Int) (data : Nat → Byte) :
    Option (Nat → Byte) :=
  getBlockLoop sent len 0 statuses data

/-- The sizes of the reads that give something. -/
def sizes (statuses : List Int) : List Nat :=
  (statuses.filter fun status => 0 < status).map Int.toNat

/-- The position in the stream at which the last read that reaches a place begins. -/
def lastReach : List Nat → Nat → Option Nat
  | [], _ => none
  | size :: rest, place =>
      match lastReach rest place with
      | some position => some (size + position)
      | none => if place < size then some 0 else none

/-- The byte that lands at a place. -/
def landed (sent : Nat → Byte) (sizes : List Nat) (data : Nat → Byte) (place : Nat) : Byte :=
  match lastReach sizes place with
  | some position => sent (position + place)
  | none => data place

theorem landed_cons (sent : Nat → Byte) (size : Nat) (rest : List Nat) (data : Nat → Byte)
    (position place : Nat) :
    landed (fun i => sent (position + i)) (size :: rest) data place =
      landed (fun i => sent (position + size + i)) rest (readInto sent position size data)
        place := by
  simp only [landed, lastReach]
  cases lastReach rest place with
  | some later => simp only [Nat.add_assoc]
  | none =>
      by_cases reached : place < size
      · simp only [if_pos reached, readInto, Nat.zero_add]
      · simp only [if_neg reached, readInto]

theorem sizes_cons_pos {status : Int} (positive : 0 < status) (rest : List Int) :
    sizes (status :: rest) = status.toNat :: sizes rest := by
  rw [sizes, List.filter_cons_of_pos (by simpa using positive), List.map_cons, sizes]

theorem sizes_cons_neg {status : Int} (failed : ¬ 0 < status) (rest : List Int) :
    sizes (status :: rest) = sizes rest := by
  rw [sizes, List.filter_cons_of_neg (by simpa using failed), sizes]

theorem pos_of_mem_sizes {statuses : List Int} {size : Nat} (member : size ∈ sizes statuses) :
    0 < size := by
  obtain ⟨status, kept, rfl⟩ := List.mem_map.mp member
  have positive : 0 < status := by simpa using (List.mem_filter.mp kept).2
  omega

theorem sizes_eq_nil {statuses : List Int} (nothing : (sizes statuses).sum = 0) :
    sizes statuses = [] := by
  cases all : sizes statuses with
  | nil => rfl
  | cons size rest =>
      have positive : 0 < size := pos_of_mem_sizes (by rw [all]; exact List.mem_cons_self)
      rw [all, List.sum_cons] at nothing
      omega

/-- **The loop ends, and each place holds the byte of the last read that reaches it.** -/
theorem getBlockLoop_eq (sent : Nat → Byte) (len : Nat) (statuses : List Int) (n : Nat)
    (recvBuf : Nat → Byte) (whole : n + (sizes statuses).sum = len) :
    getBlockLoop sent len n statuses recvBuf =
      some (landed (fun i => sent (n + i)) (sizes statuses) recvBuf) := by
  induction statuses generalizing n recvBuf with
  | nil =>
      have done : ¬ n < len := by
        have nothing : (sizes []).sum = 0 := rfl
        omega
      rw [getBlockLoop, if_neg done]
      rfl
  | cons status rest ih =>
      rw [getBlockLoop]
      by_cases more : n < len
      · rw [if_pos more]
        by_cases positive : 0 < status
        · rw [if_pos positive]
          rw [sizes_cons_pos positive, List.sum_cons] at whole
          rw [ih _ _ (by omega), sizes_cons_pos positive]
          congr 1
          funext place
          exact (landed_cons sent status.toNat (sizes rest) recvBuf n place).symm
        · rw [if_neg positive]
          rw [sizes_cons_neg positive] at whole
          rw [ih _ _ whole, sizes_cons_neg positive]
      · -- What is left of the results are failures.
        have nothing : sizes (status :: rest) = [] := sizes_eq_nil (by omega)
        rw [if_neg more, nothing]
        rfl

/-- The call returns with the block in its place. -/
def Received (sent : Nat → Byte) (len : Nat) (statuses : List Int) (data : Nat → Byte) : Prop :=
  ∃ result, getBlockData sent len statuses data = some result ∧
    ∀ place < len, result place = sent place

/-- Where reads land on each other, the bytes of the stream happen to agree. -/
def Agrees (sent : Nat → Byte) (len : Nat) (statuses : List Int) (data : Nat → Byte) : Prop :=
  ∀ place < len,
    (∀ position, lastReach (sizes statuses) place = some position →
      sent (position + place) = sent place) ∧
    (lastReach (sizes statuses) place = none → data place = sent place)

theorem received_iff {sent : Nat → Byte} {len : Nat} {statuses : List Int} {data : Nat → Byte}
    (whole : (sizes statuses).sum = len) :
    Received sent len statuses data ↔ Agrees sent len statuses data := by
  have ended : getBlockData sent len statuses data =
      some (landed sent (sizes statuses) data) := by
    have loop := getBlockLoop_eq sent len statuses 0 data (by omega)
    simp only [Nat.zero_add] at loop
    exact loop
  have place_iff : ∀ place, landed sent (sizes statuses) data place = sent place ↔
      (∀ position, lastReach (sizes statuses) place = some position →
        sent (position + place) = sent place) ∧
      (lastReach (sizes statuses) place = none → data place = sent place) := by
    intro place
    rw [landed]
    cases lastReach (sizes statuses) place with
    | some position => simp
    | none => simp
  constructor
  · rintro ⟨result, returned, right⟩ place inside
    rw [ended] at returned
    rw [← place_iff, Option.some.inj returned]
    exact right place inside
  · intro agrees
    exact ⟨_, ended, fun place inside => (place_iff place).mpr (agrees place inside)⟩

/-- Every read reaches the first place. -/
theorem lastReach_zero {sizes : List Nat} (positive : ∀ size ∈ sizes, 0 < size)
    (some_read : sizes ≠ []) : ∃ position, lastReach sizes 0 = some position := by
  cases sizes with
  | nil => exact absurd rfl some_read
  | cons size rest =>
      rw [lastReach]
      cases lastReach rest 0 with
      | some position => exact ⟨size + position, rfl⟩
      | none => exact ⟨0, if_pos (positive size List.mem_cons_self)⟩

/-- A second read lands on the first. -/
theorem exists_lost {statuses : List Int} (several : 1 < (sizes statuses).length) :
    ∃ position, 0 < position ∧ lastReach (sizes statuses) 0 = some position := by
  have positive : ∀ size ∈ sizes statuses, 0 < size := fun size => pos_of_mem_sizes
  match all : sizes statuses with
  | [] | [_] => rw [all] at several; simp at several
  | size :: other :: rest =>
      rw [all] at positive
      obtain ⟨position, reach⟩ := lastReach_zero
        (fun later member => positive later (List.mem_cons_of_mem size member))
        (List.cons_ne_nil other rest)
      have first := positive size List.mem_cons_self
      refine ⟨size + position, by omega, ?_⟩
      rw [lastReach, reach]

/-- **The block arrives exactly when the bytes that land on each other agree; it arrives
whatever the bytes are exactly when one read gives all of it.** -/
theorem block_receive_iff (len : Nat) (statuses : List Int) (whole : (sizes statuses).sum = len) :
    (∀ sent data, Received sent len statuses data ↔ Agrees sent len statuses data) ∧
      ((∀ sent data, Received sent len statuses data) ↔ (sizes statuses).length ≤ 1) := by
  refine ⟨fun sent data => received_iff whole, ?_⟩
  constructor
  · intro always
    by_contra several
    obtain ⟨position, later, reach⟩ := exists_lost (Nat.lt_of_not_le several)
    -- A stream whose first byte is like no other.
    have agrees := (received_iff whole).mp (always (fun i => if i = 0 then 1 else 0) fun _ => 0)
    have some_len : 0 < len := by
      match all : sizes statuses with
      | [] => rw [all] at several; simp at several
      | size :: rest =>
          have positive : 0 < size := pos_of_mem_sizes (by rw [all]; exact List.mem_cons_self)
          rw [all, List.sum_cons] at whole
          omega
    have lost : (if position = 0 then (1 : Byte) else 0) = 1 :=
      (agrees 0 some_len).1 position reach
    rw [if_neg (by omega)] at lost
    exact absurd lost (by decide)
  · intro once sent data
    rw [received_iff whole]
    intro place inside
    match all : sizes statuses with
    | [] =>
        rw [all] at whole
        exact absurd inside (by simp [← whole])
    | [size] =>
        rw [all, List.sum_singleton] at whole
        have reach : lastReach [size] place = some 0 := by
          rw [lastReach, lastReach]
          exact if_pos (by omega)
        rw [reach]
        refine ⟨?_, fun other => nomatch other⟩
        intro position same
        rw [← Option.some.inj same, Nat.zero_add]
    | _ :: _ :: _ => rw [all] at once; simp at once

/-- A block that is read at once arrives, also behind a read that fails. -/
theorem one_read_arrives : Received (fun i => BitVec.ofNat 8 (i + 1)) 4 [-1, 4] fun _ => 0 :=
  (block_receive_iff 4 [-1, 4] (by decide)).2.mpr (by decide) _ _

/-- Two words in two reads: the second word lies on the first. -/
theorem two_reads_wrong :
    (sizes [4, 4]).sum = 8 ∧
      ¬ Received (fun i => BitVec.ofNat 8 (i + 1)) 8 [4, 4] fun _ => 0 := by
  refine ⟨by decide, ?_⟩
  intro received
  have agrees := (received_iff (by decide)).mp received 0 (by decide)
  exact absurd (agrees.1 4 (by decide)) (by decide)

end OrpsocCores.JpVpi
