import OrpsocCores.Foundation.FixedBuffer
import OrpsocCores.Foundation.LinkedChain

/-!
# The matchpoint table

The debug server remembers the instructions it has replaced by breakpoints in a
hash table with chains.  A bucket is a pointer to the first entry, an entry
points to the next one, and `NULL` is `none`.  The definitions follow
`mp_hash_init`, `mp_hash_add`, `mp_hash_lookup` and `mp_hash_delete` of `gdb.c`.

The heap is the memory that holds the entries.  The loops along a chain read it,
and reading through a pointer that points to nothing is a fault.  They are given
a number of rounds, since nothing in the data structure itself says that a chain
ends.  The pointer that `malloc` returns is an argument of the insertion.
-/

set_option autoImplicit false

namespace OrpsocCores.Gdb

/-- The kinds of matchpoint, with the digits of the `z` and `Z` packets. -/
inductive MpType where
  | bpMemory
  | bpHardware
  | wpWrite
  | wpRead
  | wpAccess
  deriving DecidableEq, Repr

/-- What an entry says: the substituted instruction at an address. -/
structure Matchpoint where
  type : MpType
  addr : BitVec 32
  instr : BitVec 32
  deriving DecidableEq

abbrev Pointer := Nat

/-- An entry of the table. -/
abbrev MpEntry := Cell Pointer Matchpoint

/-- The number of buckets, the largest prime below `2 ^ 10`. -/
def mpHashSize : Nat := 1021

instance : NeZero mpHashSize := ⟨by decide⟩

/-- The table of the server, and the memory its entries are in. -/
structure Rsp where
  heap : Pointer → Option MpEntry
  mpHash : Fin mpHashSize → Option Pointer

/-- The bucket of an address. -/
def hashValue (addr : BitVec 32) : Fin mpHashSize := Fin.ofNat mpHashSize addr.toNat

/-- Clear all the links. -/
def mpHashInit (s : Rsp) : Rsp := { s with mpHash := fun _ => none }

/-- The search that `mp_hash_add` and `mp_hash_lookup` begin with. -/
def search (heap : Pointer → Option MpEntry) (type : MpType) (addr : BitVec 32) :
    Nat → Option Pointer → Except Fault (Option Pointer)
  | 0, _ => .error .exhausted
  | _ + 1, none => .ok none
  | rounds + 1, some curr =>
      match heap curr with
      | none => .error .dangling
      | some entry =>
          if type = entry.data.type ∧ addr = entry.data.addr then .ok (some curr)
          else search heap type addr rounds entry.next

/-- Add an entry if it was not already there, at the head of its chain. -/
def mpHashAdd (rounds : Nat) (s : Rsp) (type : MpType) (addr instr : BitVec 32)
    (malloc : Pointer) : Except Fault Rsp :=
  match search s.heap type addr rounds (s.mpHash (hashValue addr)) with
  | .error fault => .error fault
  | .ok (some _) => .ok s
  | .ok none =>
      .ok { heap := Function.update s.heap malloc
              (some ⟨⟨type, addr, instr⟩, s.mpHash (hashValue addr)⟩)
            mpHash := Function.update s.mpHash (hashValue addr) (some malloc) }

/-- Look up an entry. -/
def mpHashLookup (rounds : Nat) (s : Rsp) (type : MpType) (addr : BitVec 32) :
    Except Fault (Option Pointer) :=
  search s.heap type addr rounds (s.mpHash (hashValue addr))

/-- The loop of `mp_hash_delete`, with the entry in front of the current one. -/
def mpHashDeleteLoop (s : Rsp) (type : MpType) (addr : BitVec 32) :
    Nat → Option Pointer → Option Pointer → Except Fault (Rsp × Option Pointer)
  | 0, _, _ => .error .exhausted
  | _ + 1, _, none => .ok (s, none)
  | rounds + 1, prev, some curr =>
      match s.heap curr with
      | none => .error .dangling
      | some entry =>
          if type = entry.data.type ∧ addr = entry.data.addr then
            match prev with
            | none =>
                .ok ({ s with mpHash :=
                        Function.update s.mpHash (hashValue addr) entry.next }, some curr)
            | some prev =>
                match s.heap prev with
                | none => .error .dangling
                | some before =>
                    .ok ({ s with heap :=
                            Function.update s.heap prev (some { before with next := entry.next }) },
                      some curr)
          else mpHashDeleteLoop s type addr rounds (some curr) entry.next

/-- Delete an entry from the table and return it; its memory is not freed. -/
def mpHashDelete (rounds : Nat) (s : Rsp) (type : MpType) (addr : BitVec 32) :
    Except Fault (Rsp × Option Pointer) :=
  mpHashDeleteLoop s type addr rounds none (s.mpHash (hashValue addr))

/-- Free an entry that is no longer in the table. -/
def free (s : Rsp) (entry : Pointer) : Rsp :=
  { s with heap := Function.update s.heap entry none }

end OrpsocCores.Gdb
