import OrpsocCores.Foundation.WordMemory
import OrpsocCores.Gdb.MatchpointTable

/-!
# Software breakpoints

A `Z0` packet puts a trap instruction into the memory of the target and
remembers the word that was there, a `z0` packet puts that word back.  Packets
can be lost and sent again, so that both have to cope with duplicates: a second
insertion reads the trap, but the table keeps the first word; a second removal
finds nothing in the table and writes nothing.

`breakpoints_exact` says what that comes to, for any sequence of packets at word
addresses: a word with an active breakpoint holds the trap, every other word
holds what it held at first, and the table maps the active addresses to their
first contents.
-/

set_option autoImplicit false

namespace OrpsocCores.Gdb

/-! ## The requests -/

/-- The trap instruction of the processor. -/
def or1kTrapInstr : BitVec 32 := 0x21000001

/-- The table of the server and the memory of its target. -/
structure Server where
  rsp : Rsp
  memory : Memory

/-- How the debug accesses of a request end: whether the read and the write
fail, and what the variable for the instruction holds when the read does. -/
structure Accesses where
  readErr : Bool
  writeErr : Bool
  instr : BitVec 32

/-- No debug access fails. -/
def Accesses.Succeed (accesses : Accesses) : Prop :=
  accesses.readErr = false ∧ accesses.writeErr = false

instance (accesses : Accesses) : Decidable accesses.Succeed := inferInstanceAs (Decidable (_ ∧ _))

inductive Reply where
  | ok
  | e01
  deriving DecidableEq

/-- The `BP_MEMORY` case of `rsp_insert_matchpoint`.  The result of the read is not
looked at. -/
def rspInsertMemory (rounds : Nat) (s : Server) (addr : BitVec 32) (malloc : Pointer)
    (accesses : Accesses) : Except Fault (Server × Reply) := do
  let instr := if accesses.readErr then accesses.instr else readWord s.memory addr
  let rsp ← mpHashAdd rounds s.rsp .bpMemory addr instr malloc
  if accesses.writeErr then
    return ({ s with rsp := rsp }, .e01)
  else
    return ({ rsp := rsp, memory := writeWord s.memory addr or1kTrapInstr }, .ok)

/-- The `BP_MEMORY` case of `rsp_remove_matchpoint`. -/
def rspRemoveMemory (rounds : Nat) (s : Server) (addr : BitVec 32) (accesses : Accesses) :
    Except Fault (Server × Reply) := do
  let (rsp, mpe) ← mpHashDelete rounds s.rsp .bpMemory addr
  match mpe with
  | none => return ({ s with rsp := rsp }, .ok)
  | some mpe =>
      match rsp.heap mpe with
      | none => .error .dangling
      | some entry =>
          if accesses.writeErr then
            return ({ s with rsp := rsp }, .e01)
          else
            return ({ rsp := free rsp mpe,
                      memory := writeWord s.memory addr entry.data.instr }, .ok)

/-- A request of the client, with what `malloc` and the debug accesses do. -/
inductive BreakpointPacket where
  | insert (addr : BitVec 32) (malloc : Pointer) (accesses : Accesses)
  | remove (addr : BitVec 32) (accesses : Accesses)

namespace BreakpointPacket

def addr : BreakpointPacket → BitVec 32
  | .insert addr _ _ => addr
  | .remove addr _ => addr

def accesses : BreakpointPacket → Accesses
  | .insert _ _ accesses => accesses
  | .remove _ accesses => accesses

def handle (rounds : Nat) (s : Server) : BreakpointPacket → Except Fault (Server × Reply)
  | .insert addr malloc accesses => rspInsertMemory rounds s addr malloc accesses
  | .remove addr accesses => rspRemoveMemory rounds s addr accesses

/-- `malloc` returns memory that is not in use. -/
def Fresh (s : Server) : BreakpointPacket → Prop
  | .insert _ malloc _ => s.rsp.heap malloc = none
  | .remove _ _ => True

/-- The packets of a session, with the replies. -/
def run (rounds : Nat) : Server → List BreakpointPacket → Except Fault (Server × List Reply)
  | s, [] => .ok (s, [])
  | s, packet :: packets => do
      let (s, reply) ← packet.handle rounds s
      let (s, replies) ← run rounds s packets
      return (s, reply :: replies)

/-- Every `malloc` of a session returns memory that is not in use. -/
def FreshRun (rounds : Nat) : Server → List BreakpointPacket → Prop
  | _, [] => True
  | s, packet :: packets => packet.Fresh s ∧
      match packet.handle rounds s with
      | .error _ => True
      | .ok (s, _) => FreshRun rounds s packets

/-- The addresses with a breakpoint after a packet. -/
def activate (active : BitVec 32 → Bool) : BreakpointPacket → BitVec 32 → Bool
  | .insert addr _ _ => Function.update active addr true
  | .remove addr _ => Function.update active addr false

/-- The addresses with a breakpoint after a session: inserted and not removed
since. -/
def activeAfter (packets : List BreakpointPacket) : BitVec 32 → Bool :=
  packets.foldl activate fun _ => false

end BreakpointPacket

/-! ## The invariant -/

/-- The table that remembers the first contents of the active addresses. -/
def remembered (initial : Memory) (active : BitVec 32 → Bool) : MpMap := fun key =>
  if key.1 = .bpMemory ∧ active key.2 then some (readWord initial key.2) else none

/-- The word at an address while these breakpoints are active. -/
def trapped (initial : Memory) (active : BitVec 32 → Bool) (a : BitVec 32) : BitVec 32 :=
  if active a then or1kTrapInstr else readWord initial a

/-- The table and the memory agree on the active breakpoints. -/
structure Substituted (initial : Memory) (active : BitVec 32 → Bool) (longest : Nat)
    (s : Server) : Prop where
  table : Keeps s.rsp (remembered initial active) longest
  memory : ∀ a, Aligned a → readWord s.memory a = trapped initial active a

theorem remembered_memory (initial : Memory) (active : BitVec 32 → Bool) (a : BitVec 32) :
    remembered initial active (.bpMemory, a) =
      if active a then some (readWord initial a) else none := by
  simp [remembered]

/-- Inserting an address that has a breakpoint already leaves the table as it is;
otherwise the first contents are remembered. -/
theorem remembered_add {initial : Memory} {active : BitVec 32 → Bool} {a instr : BitVec 32}
    (first : active a = false → instr = readWord initial a) :
    (remembered initial active).add (.bpMemory, a) instr =
      remembered initial (Function.update active a true) := by
  cases set : active a with
  | true =>
      have unchanged : Function.update active a true = active := by
        rw [← set, Function.update_eq_self]
      rw [MpMap.add, if_pos (by simp [remembered_memory, set]), unchanged]
  | false =>
      rw [MpMap.add, if_neg (by simp [remembered_memory, set]), first set]
      funext key
      obtain ⟨type, b⟩ := key
      by_cases here : (type, b) = (.bpMemory, a)
      · rw [here, Function.update_self, remembered_memory, Function.update_self]
        rfl
      · rw [Function.update_of_ne here]
        unfold remembered
        by_cases same : b = a
        · have other : type ≠ .bpMemory := fun h => here (by rw [h, same])
          simp [other]
        · simp [Function.update_of_ne same]

theorem remembered_delete (initial : Memory) (active : BitVec 32 → Bool) (a : BitVec 32) :
    (remembered initial active).delete (.bpMemory, a) =
      remembered initial (Function.update active a false) := by
  funext key
  obtain ⟨type, b⟩ := key
  unfold MpMap.delete
  by_cases here : (type, b) = (.bpMemory, a)
  · rw [here, Function.update_self, remembered_memory, Function.update_self]
    rfl
  · rw [Function.update_of_ne here]
    unfold remembered
    by_cases same : b = a
    · have other : type ≠ .bpMemory := fun h => here (by rw [h, same])
      simp [other]
    · simp [Function.update_of_ne same]

/-- A word written at the address of a breakpoint that has been set or removed. -/
theorem memory_written {initial memory : Memory} {active : BitVec 32 → Bool} {a word : BitVec 32}
    {value : Bool} (aligned : Aligned a)
    (before : ∀ b, Aligned b → readWord memory b = trapped initial active b)
    (here : word = trapped initial (Function.update active a value) a) (b : BitVec 32)
    (aligned' : Aligned b) :
    readWord (writeWord memory a word) b =
      trapped initial (Function.update active a value) b := by
  by_cases same : b = a
  · subst same
    rw [readWord_writeWord_self, here]
  · rw [readWord_writeWord_of_ne aligned aligned' same, before b aligned']
    simp [trapped, Function.update_of_ne same]

theorem Substituted.insert {initial : Memory} {active : BitVec 32 → Bool} {longest rounds : Nat}
    {s : Server} (h : Substituted initial active longest s) (enough : longest < rounds)
    {a : BitVec 32} (aligned : Aligned a) {malloc : Pointer} (fresh : s.rsp.heap malloc = none)
    {accesses : Accesses} (succeed : accesses.Succeed) :
    ∃ s', rspInsertMemory rounds s a malloc accesses = .ok (s', .ok) ∧
      Substituted initial (Function.update active a true) (longest + 1) s' := by
  -- a duplicate insertion reads the trap, and the table keeps the first word
  have first : active a = false → readWord s.memory a = readWord initial a := by
    intro unset
    rw [h.memory a aligned, trapped, unset]
    rfl
  obtain ⟨rsp, added, table⟩ := h.table.add enough (.bpMemory, a) (readWord s.memory a) fresh
  rw [remembered_add first] at table
  simp only at added
  refine ⟨⟨rsp, writeWord s.memory a or1kTrapInstr⟩, ?_, table, ?_⟩
  · simp [rspInsertMemory, succeed.1, succeed.2, added, bind, Except.bind, pure, Except.pure]
  · exact memory_written aligned h.memory (by simp [trapped])

theorem Substituted.remove {initial : Memory} {active : BitVec 32 → Bool} {longest rounds : Nat}
    {s : Server} (h : Substituted initial active longest s) (enough : longest < rounds)
    {a : BitVec 32} (aligned : Aligned a) {accesses : Accesses} (succeed : accesses.Succeed) :
    ∃ s', rspRemoveMemory rounds s a accesses = .ok (s', .ok) ∧
      Substituted initial (Function.update active a false) longest s' := by
  obtain ⟨rsp, found, deleted, entry, table, released⟩ := h.table.delete enough (.bpMemory, a)
  rw [remembered_delete] at table released
  simp only at deleted
  cases found with
  | none =>
      -- nothing was remembered, so no breakpoint was active
      have absent := Except.ok.inj entry
      have unset : active a = false := by
        by_contra set
        rw [Bool.not_eq_false] at set
        simp [MpMap.entry, remembered_memory, set] at absent
      refine ⟨⟨rsp, s.memory⟩, ?_, table, ?_⟩
      · simp [rspRemoveMemory, deleted, bind, Except.bind, pure, Except.pure]
      · rw [← unset, Function.update_eq_self]
        exact h.memory
  | some mpe =>
      cases cell : rsp.heap mpe with
      | none => simp [entryAt, cell] at entry
      | some e =>
          have present : some e.data = (remembered initial active).entry (.bpMemory, a) := by
            simpa [entryAt, cell] using entry
          have first : e.data.instr = readWord initial a := by
            cases set : active a with
            | true =>
                simp only [MpMap.entry, remembered_memory, set, if_true, Option.map_some,
                  Option.some.injEq] at present
                rw [present]
            | false => simp [MpMap.entry, remembered_memory, set] at present
          refine ⟨⟨free rsp mpe, writeWord s.memory a e.data.instr⟩, ?_, released mpe rfl, ?_⟩
          · simp [rspRemoveMemory, deleted, cell, succeed.2, bind, Except.bind, pure, Except.pure]
          · exact memory_written aligned h.memory (by simp [trapped, first])

/-! ## Sessions -/

open BreakpointPacket

theorem Substituted.handle {initial : Memory} {active : BitVec 32 → Bool} {longest rounds : Nat}
    {s : Server} (h : Substituted initial active longest s) (enough : longest < rounds)
    {packet : BreakpointPacket} (aligned : Aligned packet.addr) (fresh : packet.Fresh s)
    (succeed : packet.accesses.Succeed) :
    ∃ s', packet.handle rounds s = .ok (s', .ok) ∧
      Substituted initial (activate active packet) (longest + 1) s' := by
  cases packet with
  | insert addr malloc accesses => exact h.insert enough aligned fresh succeed
  | remove addr accesses =>
      obtain ⟨s', run, h'⟩ := h.remove enough aligned succeed
      exact ⟨s', run, h'.table.mono (Nat.le_succ _), h'.memory⟩

theorem Substituted.run {initial : Memory} {active : BitVec 32 → Bool} {longest rounds : Nat}
    {s : Server} {packets : List BreakpointPacket} (h : Substituted initial active longest s)
    (enough : longest + packets.length < rounds)
    (aligned : ∀ packet ∈ packets, Aligned packet.addr)
    (succeed : ∀ packet ∈ packets, packet.accesses.Succeed)
    (fresh : FreshRun rounds s packets) :
    ∃ s', BreakpointPacket.run rounds s packets =
        .ok (s', List.replicate packets.length .ok) ∧
      Substituted initial (packets.foldl activate active) (longest + packets.length) s' := by
  induction packets generalizing s active longest with
  | nil => exact ⟨s, rfl, h⟩
  | cons packet packets ih =>
      rw [List.length_cons] at enough
      obtain ⟨here, later⟩ := fresh
      have shallow : longest < rounds := by omega
      obtain ⟨s', step, h'⟩ := h.handle shallow (aligned packet List.mem_cons_self) here
        (succeed packet List.mem_cons_self)
      rw [step] at later
      obtain ⟨s'', rest, h''⟩ := ih h' (by omega)
        (fun p member => aligned p (List.mem_cons_of_mem _ member))
        (fun p member => succeed p (List.mem_cons_of_mem _ member)) later
      refine ⟨s'', ?_, h''.table.mono (by rw [List.length_cons]; omega), h''.memory⟩
      simp [BreakpointPacket.run, step, rest, bind, Except.bind, pure, Except.pure,
        List.replicate_succ]

/-- **Software breakpoints.**  After any session of packets at word addresses in
which no debug access fails, every word with an active breakpoint holds the trap,
every other word its first contents, and the table maps exactly the active
addresses to their first contents; when no breakpoint is active the memory is
the first one. -/
theorem breakpoints_exact {s : Server} (cleared : ∀ h, s.rsp.mpHash h = none)
    {packets : List BreakpointPacket} {rounds : Nat} (enough : packets.length < rounds)
    (aligned : ∀ packet ∈ packets, Aligned packet.addr)
    (succeed : ∀ packet ∈ packets, packet.accesses.Succeed)
    (fresh : FreshRun rounds s packets) :
    ∃ s' replies buckets, BreakpointPacket.run rounds s packets = .ok (s', replies) ∧
      (∀ a, Aligned a → readWord s'.memory a =
        if activeAfter packets a then or1kTrapInstr else readWord s.memory a) ∧
      Shape s'.rsp buckets ∧
      (∀ type a, contents buckets (type, a) =
        if type = .bpMemory ∧ activeAfter packets a then some (readWord s.memory a) else none) ∧
      ((∀ a, activeAfter packets a = false) → s'.memory = s.memory) := by
  have start : Substituted s.memory (fun _ => false) 0 s := by
    refine ⟨?_, fun a _ => by simp [trapped]⟩
    have nothing : remembered s.memory (fun _ => false) = fun _ => none := by
      funext key
      simp [remembered]
    rw [nothing]
    exact keeps_empty cleared
  obtain ⟨s', run, ⟨buckets, shape, map, -⟩, memory⟩ :=
    start.run (by rwa [Nat.zero_add]) aligned succeed fresh
  refine ⟨s', _, buckets, run, memory, shape, ?_, ?_⟩
  · intro type a
    rw [map]
    rfl
  · intro inactive
    apply eq_of_words
    intro a isWord
    rw [memory a isWord, trapped, if_neg]
    exact Bool.eq_false_iff.mp (inactive a)

instance decidableFreshPacket (s : Server) (packet : BreakpointPacket) :
    Decidable (packet.Fresh s) :=
  match packet with
  | .insert _ malloc _ => inferInstanceAs (Decidable (s.rsp.heap malloc = none))
  | .remove _ _ => .isTrue trivial

instance decidableFreshSession (rounds : Nat) :
    ∀ (s : Server) (packets : List BreakpointPacket), Decidable (FreshRun rounds s packets)
  | _, [] => .isTrue trivial
  | s, packet :: packets =>
      match h : packet.handle rounds s with
      | .error _ => decidable_of_iff (packet.Fresh s) (by simp [FreshRun, h])
      | .ok (s', _) =>
          have := decidableFreshSession rounds s' packets
          decidable_of_iff (packet.Fresh s ∧ FreshRun rounds s' packets) (by simp [FreshRun, h])

def successful : Accesses := ⟨false, false, 0⟩

/-- Two breakpoints in one bucket, one of them set twice and removed twice, and a
removal of one that was never set. -/
def repeatedPackets : List BreakpointPacket :=
  [.insert 0x100 0 successful, .insert 0x100 1 successful, .insert 0x10F4 1 successful,
    .remove 0x100 successful, .remove 0x100 successful, .remove 0x200 successful]

def emptyServer : Server := ⟨clearedRsp, fun _ => 0⟩

theorem breakpoints_exact_repeatedPackets :
    FreshRun 7 emptyServer repeatedPackets ∧
      ∃ s' replies, BreakpointPacket.run 7 emptyServer repeatedPackets = .ok (s', replies) ∧
        readWord s'.memory 0x100 = 0 ∧ readWord s'.memory 0x10F4 = or1kTrapInstr := by
  have fresh : FreshRun 7 emptyServer repeatedPackets := by decide +kernel
  obtain ⟨s', replies, -, run, memory, -⟩ :=
    breakpoints_exact (fun _ => rfl) (by decide) (by decide) (by decide) fresh
  refine ⟨fresh, s', replies, run, ?_, ?_⟩
  · rw [memory 0x100 (by decide), if_neg (by decide)]
    decide
  · rw [memory 0x10F4 (by decide), if_pos (by decide)]

end OrpsocCores.Gdb
