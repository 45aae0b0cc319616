import OrpsocCores.Gdb.MemoryRead
import OrpsocCores.Gdb.OneReply

/-!
# What becomes of a debug access that fails

The codes of the debug accesses are zero or negative.  Some handlers test them for being
different from zero, some for being positive, which they never are, some only look at the
last of several, and some at none.

`Makes` describes a sequence of accesses by a list with one entry for each of them, which
says whether its code is tested: the sequence stops with an error at a tested access that
fails, and goes on to its end otherwise.
-/

set_option autoImplicit false

namespace OrpsocCores.Gdb

open Scanf

/-! ## Failing accesses -/

section Accesses

variable (host : Host)

/-- The access with this number fails. -/
def Host.Fails (n : Nat) : Prop := (host.access n).err ≠ .errNone

instance (n : Nat) : Decidable (host.Fails n) := inferInstanceAs (Decidable (_ ≠ _))

/-- One of these accesses fails. -/
def Host.AnyFails (start count : Nat) : Prop := ∃ i, i < count ∧ host.Fails (start + i)

instance (start count : Nat) : Decidable (host.AnyFails start count) :=
  inferInstanceAs (Decidable (∃ i, i < count ∧ _))

/-- One of the accesses whose codes are tested fails. -/
def Host.TestedFails : Nat → List Bool → Prop
  | _, [] => False
  | start, tested :: rest => (tested = true ∧ host.Fails start) ∨ TestedFails (start + 1) rest

instance decidableTestedFails : ∀ start tests, Decidable (host.TestedFails start tests)
  | _, [] => inferInstanceAs (Decidable False)
  | start, tested :: rest =>
      have := decidableTestedFails (start + 1) rest
      inferInstanceAs (Decidable ((tested = true ∧ host.Fails start) ∨ _))

variable {host}

@[simp] theorem Host.not_anyFails_zero (start : Nat) : ¬ host.AnyFails start 0 := by
  rintro ⟨i, none, -⟩
  exact Nat.not_lt_zero i none

theorem Host.anyFails_succ {start n : Nat} :
    host.AnyFails start (n + 1) ↔ host.Fails start ∨ host.AnyFails (start + 1) n := by
  constructor
  · rintro ⟨i, inside, fails⟩
    cases i with
    | zero => exact .inl fails
    | succ i =>
        rw [← Nat.add_assoc, Nat.add_right_comm] at fails
        exact .inr ⟨i, Nat.lt_of_succ_lt_succ inside, fails⟩
  · rintro (fails | ⟨i, inside, fails⟩)
    · exact ⟨0, Nat.succ_pos n, fails⟩
    · rw [Nat.add_right_comm, Nat.add_assoc] at fails
      exact ⟨i + 1, Nat.succ_lt_succ inside, fails⟩

theorem Host.anyFails_one {start : Nat} : host.AnyFails start 1 ↔ host.Fails start := by
  rw [anyFails_succ, or_iff_left (not_anyFails_zero _)]

theorem Host.anyFails_add {start m n : Nat} :
    host.AnyFails start (m + n) ↔ host.AnyFails start m ∨ host.AnyFails (start + m) n := by
  induction m generalizing start with
  | zero => rw [Nat.zero_add, Nat.add_zero, or_iff_right (not_anyFails_zero start)]
  | succ m ih =>
      rw [Nat.add_right_comm, anyFails_succ, ih, anyFails_succ, or_assoc, Nat.add_right_comm,
        Nat.add_assoc start]

theorem Host.testedFails_append {start : Nat} {first second : List Bool} :
    host.TestedFails start (first ++ second) ↔
      host.TestedFails start first ∨ host.TestedFails (start + first.length) second := by
  induction first generalizing start with
  | nil => simp only [List.nil_append, TestedFails, false_or, List.length_nil, Nat.add_zero]
  | cons tested rest ih =>
      rw [List.cons_append, TestedFails, TestedFails, ih, or_assoc, List.length_cons,
        Nat.add_right_comm, Nat.add_assoc]

/-- Without a test no failure counts. -/
theorem Host.not_testedFails_replicate {start n : Nat} :
    ¬ host.TestedFails start (List.replicate n false) := by
  induction n generalizing start with
  | zero => exact id
  | succ n ih =>
      rintro (⟨tested, -⟩ | later)
      · exact Bool.false_ne_true tested
      · exact ih later

/-- If every code is tested, every failure counts. -/
theorem Host.testedFails_replicate {start n : Nat} :
    host.TestedFails start (List.replicate n true) ↔ host.AnyFails start n := by
  induction n generalizing start with
  | zero => exact iff_of_false id (not_anyFails_zero start)
  | succ n ih => rw [List.replicate_succ, TestedFails, ih, anyFails_succ, and_iff_right rfl]

theorem Host.testedFails_of_all {start : Nat} {tests : List Bool}
    (all : ∀ tested ∈ tests, tested = true) :
    host.TestedFails start tests ↔ host.AnyFails start tests.length := by
  rw [← testedFails_replicate, ← List.eq_replicate_of_mem all]

/-- A read that does not fail. -/
theorem Target.reads_of_fine {α : Type} {t : Target} (fine : ¬ host.Fails t.performed)
    (data garbage : α) :
    t.reads host data garbage = ⟨{ t with performed := t.performed + 1 }, .errNone, data⟩ := by
  have none : t.err host = .errNone := not_not.mp fine
  rw [Target.reads, none, if_pos rfl]

/-- A write that does not fail. -/
theorem Target.writes_of_fine {t : Target} (fine : ¬ host.Fails t.performed) (written : Target) :
    t.writes host written = ⟨{ written with performed := t.performed + 1 }, .errNone, ()⟩ := by
  have none : t.err host = .errNone := not_not.mp fine
  rw [Target.writes, none, if_pos rfl]

end Accesses

/-! ## Sequences of accesses -/

/-- A sequence of accesses that tests these of their codes, with the code it ends with. -/
structure Makes {α : Type} (host : Host) (t : Target) (result : Result α) (tests : List Bool) :
    Prop where
  err : result.err = .errNone ↔ ¬ host.TestedFails t.performed tests
  performed : result.err = .errNone → result.target.performed = t.performed + tests.length

namespace Makes

variable {host : Host} {t : Target} {α β : Type}

/-- No access. -/
theorem nil (data : α) : Makes host t ⟨t, .errNone, data⟩ [] :=
  ⟨iff_of_true rfl id, fun _ => rfl⟩

/-- A read whose code is tested. -/
theorem reads (data garbage : α) : Makes host t (t.reads host data garbage) [true] := by
  constructor
  case err =>
      simp [Target.reads, Target.err, Host.TestedFails, Host.Fails]
  case performed => exact fun _ => rfl

/-- A write whose code is tested. -/
theorem writes (written : Target) : Makes host t (t.writes host written) [true] := by
  constructor
  case err =>
      simp [Target.writes, Target.err, Host.TestedFails, Host.Fails]
  case performed => exact fun _ => rfl

/-- One sequence and then another, which is made if the first one ends well. -/
theorem append {first : Result α} {whole : Result β} {tests tests' : List Bool}
    (made : Makes host t first tests)
    (next : first.err = .errNone → Makes host first.target whole tests')
    (stop : first.err ≠ .errNone → whole.err ≠ .errNone) :
    Makes host t whole (tests ++ tests') := by
  by_cases fine : first.err = .errNone
  · obtain ⟨err, performed⟩ := next fine
    rw [made.performed fine] at err performed
    constructor
    · rw [Host.testedFails_append, not_or, err]
      exact (and_iff_right (made.err.mp fine)).symm
    · intro ends
      rw [performed ends, List.length_append, Nat.add_assoc]
  · constructor
    · refine iff_of_false (stop fine) fun none => ?_
      rw [Host.testedFails_append, not_or] at none
      exact fine (made.err.mpr none.1)
    · exact fun ends => absurd ends (stop fine)

/-- The data that is returned does not matter. -/
theorem of_eq {first : Result α} {second : Result β} {tests : List Bool}
    (made : Makes host t first tests) (target : second.target = first.target)
    (err : second.err = first.err) : Makes host t second tests := by
  constructor
  · rw [err]
    exact made.err
  · rw [err, target]
    exact made.performed

end Makes

section Memory

variable (host : Host)

/-- Every byte is looked at. -/
theorem readBytes_makes (t : Target) (addr : BitVec 32) (n : Nat) :
    Makes host t (readBytes host t addr n) (List.replicate n true) := by
  induction n generalizing t addr with
  | zero => exact .nil _
  | succ n ih =>
      have first : Makes host t (gdbReadByte host t addr) [true] := .reads _ _
      refine first.append (fun fine => ?_) fun failed => ?_
      · have rest := ih (gdbReadByte host t addr).target (addr + 1)
        refine rest.of_eq ?_ ?_ <;> rw [readBytes, if_neg (not_not.mpr fine)]
      · rw [readBytes, if_pos failed]
        exact failed

/-- The accesses that `readMemory` makes. -/
def readTests (addr : BitVec 32) (n : Nat) : List Bool :=
  let before := bytesToAlign addr n
  List.replicate before true ++ ((if (n - before) / 4 = 0 then [] else [true]) ++
    List.replicate ((n - before) % 4) true)

theorem readMemory_makes (t : Target) (addr : BitVec 32) (n : Nat) :
    Makes host t (readMemory host t addr n) (readTests addr n) := by
  unfold readMemory readTests
  extract_lets before head words adr block tail
  have headMade : Makes host t head (List.replicate before true) :=
    readBytes_makes host t addr before
  have blockMade : Makes host head.target block (if words = 0 then [] else [true]) := by
    by_cases none : words = 0
    · simp only [block, if_pos none]
      exact .nil _
    · simp only [block, if_neg none]
      exact .reads _ _
  have tailMade : Makes host block.target tail (List.replicate ((n - before) % 4) true) :=
    readBytes_makes host _ _ _
  refine headMade.append (fun fine => ?_) fun failed => ?_
  · rw [if_neg (not_not.mpr fine)]
    refine blockMade.append (fun fine => ?_) fun failed => ?_
    · rw [if_neg (not_not.mpr fine)]
      exact tailMade.of_eq rfl rfl
    · rw [if_pos failed]
      exact failed
  · rw [if_pos failed]
    exact failed

/-- Every word is looked at. -/
theorem writeNibbles_makes (t : Target) (addr val : BitVec 32) (nibc : Nat) (digits : List Byte) :
    Makes host t (writeNibbles host t addr val nibc digits)
      (List.replicate ((nibc % 8 + digits.length) / 8) true) := by
  induction digits generalizing t addr val nibc with
  | nil =>
      have none : (nibc % 8 + [].length (α := Byte)) / 8 = 0 := by
        rw [List.length_nil]
        omega
      rw [none]
      exact .nil _
  | cons digit rest ih =>
      rw [writeNibbles, List.length_cons]
      by_cases last : nibc % 8 = 7
      · have count : (nibc % 8 + (rest.length + 1)) / 8 =
            ((nibc + 1) % 8 + rest.length) / 8 + 1 := by
          omega
        rw [if_pos last, count, List.replicate_succ]
        extract_lets written
        have word : Makes host t written [true] := .writes _
        refine word.append (fun fine => ?_) fun failed => ?_
        · rw [if_neg (not_not.mpr fine)]
          exact ih _ _ _ _
        · rw [if_pos failed]
          exact failed
      · have count : (nibc % 8 + (rest.length + 1)) / 8 = ((nibc + 1) % 8 + rest.length) / 8 := by
          omega
        rw [if_neg last, count]
        exact ih _ _ _ _

/-- Bytes of which only the last one is looked at. -/
def lastTested : Nat → List Bool
  | 0 => []
  | n + 1 => List.replicate n false ++ [true]

@[simp] theorem length_lastTested (n : Nat) : (lastTested n).length = n := by
  cases n with
  | zero => rfl
  | succ n => rw [lastTested, List.length_append, List.length_replicate, List.length_singleton]

theorem writeBytes_succ (t : Target) (addr : BitVec 32) (data : Chars) (n : Nat) :
    writeBytes host t addr data (n + 1) =
      gdbWriteByte host (writeBytes host t addr data n).target (addr + BitVec.ofNat 32 n)
        (data n) := by
  rw [writeBytes, List.range_succ, List.foldl_append]
  rfl

theorem writeBytes_performed (t : Target) (addr : BitVec 32) (data : Chars) (n : Nat) :
    (writeBytes host t addr data n).target.performed = t.performed + n := by
  induction n with
  | zero => rfl
  | succ n ih =>
      rw [writeBytes_succ, ← Nat.add_assoc, ← ih]
      rfl

theorem writeBytes_makes (t : Target) (addr : BitVec 32) (data : Chars) (n : Nat) :
    Makes host t (writeBytes host t addr data n) (lastTested n) := by
  cases n with
  | zero => exact .nil _
  | succ n =>
      have last : Makes host (writeBytes host t addr data n).target
          (writeBytes host t addr data (n + 1)) [true] := by
        rw [writeBytes_succ]
        exact .writes _
      constructor
      · rw [last.err, writeBytes_performed, lastTested, Host.testedFails_append,
          List.length_replicate, or_iff_right Host.not_testedFails_replicate]
      · intro _
        rw [writeBytes_performed, length_lastTested]

/-- The accesses that `writeMemory` makes. -/
def writeTests (addr : BitVec 32) (n : Nat) : List Bool :=
  let before := bytesToAlign addr n
  lastTested before ++ ((if 3 < n - before then [true] else []) ++ lastTested ((n - before) % 4))

theorem writeMemory_makes (t : Target) (addr : BitVec 32) (data : Chars) (n : Nat) :
    Makes host t (writeMemory host t addr data n) (writeTests addr n) := by
  unfold writeMemory writeTests
  extract_lets before head addr' words block
  have headMade : Makes host t head (lastTested before) := writeBytes_makes host _ _ _ _
  refine headMade.append (fun fine => ?_) fun failed => ?_
  · have blockMade : Makes host head.target block (if 3 < n - before then [true] else []) := by
      by_cases more : 3 < n - before
      · simp only [block, if_pos more, if_pos (And.intro more fine)]
        exact .writes _
      · have none : ¬ (3 < n - before ∧ head.err = .errNone) := fun both => more both.1
        simp only [block, if_neg more, if_neg none]
        exact Makes.of_eq (Makes.nil ()) rfl fine
    refine blockMade.append (fun fine => ?_) fun failed => ?_
    · by_cases more : (n - before) % 4 ≠ 0
      · rw [if_pos ⟨more, fine⟩]
        exact writeBytes_makes host _ _ _ _
      · rw [if_neg fun both => more both.1, not_not.mp more]
        exact Makes.of_eq (Makes.nil ()) rfl fine
    · rw [if_neg fun both => failed both.2]
      exact failed
  · have skipped : block = head := if_neg fun both => failed both.2
    rw [if_neg fun both => failed (skipped ▸ both.2), skipped]
    exact failed

end Memory

/-! ## Requests -/

section Requests

variable {host : Host} {s s₁ s' : RspServer}

/-- One of the accesses made on the way from one state to a later one has failed. -/
def AccessFailed (host : Host) (s s' : RspServer) : Prop :=
  ∃ n, s.target.performed ≤ n ∧ n < s'.target.performed ∧ host.Fails n

theorem accessFailed_iff {count : Nat} (made : s'.target.performed = s.target.performed + count) :
    AccessFailed host s s' ↔ host.AnyFails s.target.performed count := by
  constructor
  · rintro ⟨n, first, last, fails⟩
    have number : s.target.performed + (n - s.target.performed) = n := Nat.add_sub_cancel' first
    refine ⟨n - s.target.performed, by omega, ?_⟩
    rw [number]
    exact fails
  · rintro ⟨i, inside, fails⟩
    exact ⟨s.target.performed + i, by omega, by omega, fails⟩

/-- The accesses up to a state between and those behind it. -/
theorem accessFailed_split {count : Nat}
    (made : s₁.target.performed = s.target.performed + count)
    (later : s₁.target.performed ≤ s'.target.performed) :
    AccessFailed host s s' ↔
      host.AnyFails s.target.performed count ∨ AccessFailed host s₁ s' := by
  rw [← accessFailed_iff made]
  constructor
  · rintro ⟨n, first, last, fails⟩
    rcases Nat.lt_or_ge n s₁.target.performed with before | behind
    · exact .inl ⟨n, first, before, fails⟩
    · exact .inr ⟨n, behind, last, fails⟩
  · rintro (⟨n, first, last, fails⟩ | ⟨n, first, last, fails⟩)
    · exact ⟨n, first, by omega, fails⟩
    · exact ⟨n, by omega, last, fails⟩

/-- The accesses of a request, and what is answered if one fails whose code is tested, or
if only others do. -/
structure Tests (host : Host) (s s' : RspServer) (tests : List Bool) : Prop where
  tested : host.TestedFails s.target.performed tests → s.replies s' = [str "E01"]
  untested : ¬ host.TestedFails s.target.performed tests → tests ≠ [] →
    s.replies s' ≠ [str "E01"]
  failed : ¬ host.TestedFails s.target.performed tests →
    (AccessFailed host s s' ↔ host.AnyFails s.target.performed tests.length)

namespace Tests

variable {tests : List Bool}

/-- **A request reports its failures exactly when none of its accesses fails, or one whose
code it tests.** -/
theorem reported_iff (made : Tests host s s' tests) :
    (AccessFailed host s s' → s.replies s' = [str "E01"]) ↔
      (host.AnyFails s.target.performed tests.length →
        host.TestedFails s.target.performed tests) := by
  by_cases tested : host.TestedFails s.target.performed tests
  · exact iff_of_true (fun _ => made.tested tested) (fun _ => tested)
  · rw [made.failed tested]
    refine imp_congr_right fun fails => ?_
    have some : tests ≠ [] := by
      rintro rfl
      exact Host.not_anyFails_zero _ fails
    exact iff_of_false (made.untested tested some) tested

/-- A request without an access. -/
theorem none (same : s'.target.performed = s.target.performed) : Tests host s s' [] where
  tested := False.elim
  untested := fun _ some => absurd rfl some
  failed := fun _ => accessFailed_iff same

/-- A request that answers as if nothing had failed. -/
theorem unchecked {count : Nat}
    (failed : AccessFailed host s s' ↔ host.AnyFails s.target.performed count)
    (other : s.replies s' ≠ [str "E01"]) : Tests host s s' (List.replicate count false) where
  tested := fun tested => absurd tested Host.not_testedFails_replicate
  untested := fun _ _ => other
  failed := by
    intro _
    rw [List.length_replicate]
    exact failed

end Tests

/-- A request that answers with the code its accesses end with. -/
theorem Makes.tests {α : Type} {result : Result α} {tests : List Bool}
    (made : Makes host s.target result tests) (target : s'.target = result.target)
    (error : result.err ≠ .errNone → s.replies s' = [str "E01"])
    (fine : result.err = .errNone → s.replies s' ≠ [str "E01"]) : Tests host s s' tests where
  tested := fun tested => error fun ends => made.err.mp ends tested
  untested := fun untested _ => fine (made.err.mpr untested)
  failed := by
    intro untested
    refine accessFailed_iff ?_
    rw [target]
    exact made.performed (made.err.mpr untested)

end Requests

namespace RspServer

variable (host : Host) (s : RspServer)

/-! ## The next program counter -/

/-- `getNpc` answers from its copy. -/
def NpcKnown : Prop := s.stallState = .stalled ∧ s.npcIsCached = true

instance : Decidable s.NpcKnown := inferInstanceAs (Decidable (_ ∧ _))

/-- The number of accesses of `getNpc`. -/
def npcReads : Nat := if s.NpcKnown then 0 else 1

/-- What `getNpc` returns if nothing fails. -/
def npcValue : BitVec 32 :=
  if s.NpcKnown then s.npcCachedValue else s.target.cpu.read npcCpuRegAdd

/-- The number of accesses of `setNpc`, if its read does not fail. -/
def npcWrites (val : BitVec 32) : Nat := s.npcReads + if val = s.npcValue then 0 else 1

theorem getNpc_performed :
    (s.getNpc host).1.target.performed = s.target.performed + s.npcReads := by
  unfold getNpc npcReads NpcKnown
  by_cases stalled : s.stallState = .stalled
  · by_cases cached : s.npcIsCached = true
    · simp [stalled, cached]
    · simp [stalled, cached, gdbReadReg, Target.reads]
  · simp [stalled, gdbReadReg, Target.reads]

theorem getNpc_value (fine : ¬ host.AnyFails s.target.performed s.npcReads) :
    (s.getNpc host).2 = s.npcValue := by
  unfold getNpc npcValue npcReads NpcKnown at *
  by_cases stalled : s.stallState = .stalled
  · by_cases cached : s.npcIsCached = true
    · simp [stalled, cached]
    · simp_all [gdbReadReg, Target.reads, Target.err, Host.AnyFails, Host.Fails]
  · simp_all [gdbReadReg, Target.reads, Target.err, Host.AnyFails, Host.Fails]

theorem setNpc_performed (addr : BitVec 32) :
    (s.setNpc host addr).target.performed =
      s.target.performed + (s.npcReads + if addr = (s.getNpc host).2 then 0 else 1) := by
  rw [← Nat.add_assoc, ← s.getNpc_performed host]
  unfold setNpc
  dsimp only
  split_ifs <;> rfl

/-- The failures of `setNpc`. -/
theorem setNpc_failed (addr : BitVec 32) :
    AccessFailed host s (s.setNpc host addr) ↔
      host.AnyFails s.target.performed (s.npcWrites addr) := by
  rw [accessFailed_iff (s.setNpc_performed host addr), npcWrites]
  by_cases fails : host.AnyFails s.target.performed s.npcReads
  · obtain ⟨i, inside, fails⟩ := fails
    exact iff_of_true ⟨i, by omega, fails⟩ ⟨i, by omega, fails⟩
  · rw [s.getNpc_value host fails]

/-! ## Registers -/

/-- A reply that is longer than an error. -/
theorem replies_ne {s s' : RspServer} {body : List Byte} (sent : s'.sent = s.sent ++ [body])
    (other : body.length ≠ 3) : s.replies s' ≠ [str "E01"] := by
  intro same
  rw [replies_of_sent sent] at same
  exact other (congrArg List.length (List.singleton_inj.mp same))

theorem replies_ok {s s' : RspServer} (sent : s'.sent = s.sent ++ [str "OK"]) :
    s.replies s' ≠ [str "E01"] := replies_ne sent (by decide)

theorem readCpuReg_tests (adr : BitVec 32) :
    Tests host s (s.readCpuReg host adr) (List.replicate 1 false) := by
  have sent : s.readCpuReg host adr =
      { s with target := (gdbReadReg host s.target adr).target }.put
        (reg2hex (gdbReadReg host s.target adr).data) := if_neg (EnumErrors.not_code_pos _)
  rw [sent]
  exact .unchecked (accessFailed_iff rfl) (replies_ne rfl (by rw [reg2hex_length]; decide))

theorem writeCpuReg_tests (adr val : BitVec 32) :
    Tests host s (s.writeCpuReg host adr val) (List.replicate 1 false) := by
  have sent : s.writeCpuReg host adr val =
      { s with target := (gdbWriteReg host s.target adr val).target }.put (str "OK") :=
    if_neg (EnumErrors.not_code_pos _)
  rw [sent]
  exact .unchecked (accessFailed_iff rfl) (replies_ok rfl)

theorem getNpc_tests {body : List Byte} (other : body.length ≠ 3) :
    Tests host s ((s.getNpc host).1.put body) (List.replicate s.npcReads false) :=
  .unchecked (accessFailed_iff (s.getNpc_performed host))
    (replies_ne (by rw [put, getNpc_sent]) other)

theorem setNpc_tests (addr : BitVec 32) :
    Tests host s ((s.setNpc host addr).put (str "OK")) (List.replicate (s.npcWrites addr) false) :=
  .unchecked (s.setNpc_failed host addr) (replies_ok (by rw [put, setNpc_sent]))

/-- The number of accesses for a register, given that for the next program counter. -/
def regAccesses (regnum : BitVec 32) (npc : Nat) : Nat :=
  if regnum.toNat < maxGprs then 1
  else if regnum.toNat = ppcRegnum then 1
  else if regnum.toNat = npcRegnum then npc
  else if regnum.toNat = srRegnum then 1
  else 0

/-- The accesses of `rsp_read_reg`. -/
def readRegTests (buf : RspBuf) : List Bool :=
  match one (sscanf readRegFormat buf.cText) with
  | some regnum => List.replicate (regAccesses regnum s.npcReads) false
  | none => []

theorem rspReadReg_tests (buf : RspBuf) :
    Tests host s (s.rspReadReg host buf) (s.readRegTests buf) := by
  unfold rspReadReg readRegTests
  cases one (sscanf readRegFormat buf.cText) with
  | none => exact .none rfl
  | some regnum =>
      dsimp only
      unfold regAccesses
      split_ifs
      · exact s.readCpuReg_tests host _
      · exact s.readCpuReg_tests host _
      · exact s.getNpc_tests host (by rw [reg2hex_length]; decide)
      · exact s.readCpuReg_tests host _
      · exact .none rfl

/-- The accesses of `rsp_write_reg`. -/
def writeRegTests (buf : RspBuf) : List Bool :=
  match numberAndWord (sscanf writeRegFormat buf.cText) with
  | some (regnum, valstr) =>
      let val := hex2reg (storeString host.uninit 0 valstr)
      List.replicate (regAccesses regnum (s.npcWrites val)) false
  | none => []

theorem rspWriteReg_tests (buf : RspBuf) :
    Tests host s (s.rspWriteReg host buf) (s.writeRegTests host buf) := by
  unfold rspWriteReg writeRegTests
  cases numberAndWord (sscanf writeRegFormat buf.cText) with
  | none => exact .none rfl
  | some both =>
      obtain ⟨regnum, valstr⟩ := both
      dsimp only
      unfold regAccesses
      split_ifs
      · exact s.writeCpuReg_tests host _ _
      · exact s.writeCpuReg_tests host _ _
      · exact s.setNpc_tests host _
      · exact s.writeCpuReg_tests host _ _
      · exact .none rfl

theorem rspReadAllRegs_tests :
    Tests host s (s.rspReadAllRegs host) (List.replicate 2 false) := by
  refine .unchecked (accessFailed_iff rfl) (replies_ne rfl ?_)
  rw [List.length_map, List.length_range]
  decide

/-- A block write beside the next program counter leaves what is read there. -/
theorem writeBlock_read_npc (cpu : Cpu) {adr : BitVec 32} (data : Nat → BitVec 32) {words : Nat}
    (beside : ∀ i < words, npcCpuRegAdd ≠ adr + BitVec.ofNat 32 i) :
    (cpu.writeBlock host adr data words).read npcCpuRegAdd = cpu.read npcCpuRegAdd := by
  have flushed : (cpu.writeBlock host adr data words).flushed = cpu.flushed := by
    induction words with
    | zero => rfl
    | succ words ih =>
        have other : (adr + BitVec.ofNat 32 words == npcCpuRegAdd) = false :=
          beq_false_of_ne (beside words (Nat.lt_succ_self words)).symm
        rw [Cpu.writeBlock_succ, Cpu.write]
        dsimp only
        rw [other, Bool.and_false, Bool.or_false,
          ih fun i inside => beside i (Nat.lt_succ_of_lt inside)]
  rw [Cpu.read, Cpu.read, flushed, Cpu.writeBlock_spr_outside host cpu beside]

theorem writeRegs_read_npc {t : Target} {adr : BitVec 32} (data : Nat → BitVec 32) {words : Nat}
    (beside : ∀ i < words, npcCpuRegAdd ≠ adr + BitVec.ofNat 32 i) :
    (gdbWriteRegs host t adr data words).target.cpu.read npcCpuRegAdd =
      t.cpu.read npcCpuRegAdd := by
  unfold gdbWriteRegs Target.writes
  dsimp only
  split_ifs
  · exact writeBlock_read_npc host t.cpu data beside
  · rfl

/-- The accesses of `rsp_write_all_regs`. -/
def writeAllRegsTests (buf : RspBuf) : List Bool :=
  List.replicate (2 + s.npcWrites (packetReg buf npcRegnum)) false

theorem rspWriteAllRegs_tests (buf : RspBuf) :
    Tests host s (s.rspWriteAllRegs host buf) (s.writeAllRegsTests buf) := by
  refine .unchecked ?_ (replies_ok (by rw [rspWriteAllRegs, put, setNpc_sent, touch]))
  unfold rspWriteAllRegs
  extract_lets gprRegs gprs s₁ pcsAndSr s₂
  have made : s₂.target.performed = s.target.performed + 2 := rfl
  have later : s₂.target.performed ≤
      ((s₂.setNpc host (packetReg buf npcRegnum)).put (str "OK")).target.performed := by
    rw [put, s₂.setNpc_performed host]
    exact Nat.le_add_right _ _
  have read : s₂.target.cpu.read npcCpuRegAdd = s.target.cpu.read npcCpuRegAdd := by
    have first : s₁.target.cpu.read npcCpuRegAdd = s.target.cpu.read npcCpuRegAdd := by
      refine writeRegs_read_npc host _ fun i inside same => ?_
      simp only [gprBlockWords, maxGprs, npcCpuRegAdd, gprCpuRegAdd] at inside same
      bv_omega
    rw [← first]
    refine writeRegs_read_npc host _ fun i inside same => ?_
    simp only [npcCpuRegAdd, srCpuRegAdd] at same
    bv_omega
  have writes : s₂.npcWrites (packetReg buf npcRegnum) = s.npcWrites (packetReg buf npcRegnum) := by
    have value : s₂.npcValue = s.npcValue := by
      rw [npcValue, npcValue, read]
      rfl
    rw [npcWrites, npcWrites, value]
    rfl
  rw [accessFailed_split made later, Host.anyFails_add, ← made, ← writes]
  exact or_congr_right (s₂.setNpc_failed host _)

/-! ## Special purpose registers -/

/-- The number of accesses of `getDebugRegisters`. -/
def debugReads : Nat := if s.dbgRegsCacheDirty ≠ -1 then 0 else 1

theorem getDebugRegisters_performed :
    (s.getDebugRegisters host).target.performed = s.target.performed + s.debugReads := by
  unfold getDebugRegisters debugReads
  split_ifs <;> rfl

/-- The number of accesses for a special purpose register, given that for the next program
counter. -/
def sprAccesses (regno : BitVec 32) (npc : Nat) : Nat :=
  if regno = npcCpuRegAdd then npc else if inDebugGroup regno then s.debugReads else 1

theorem readspr_tests (regno : BitVec 32) :
    Tests host s (s.readspr host regno)
      (List.replicate (s.sprAccesses regno s.npcReads) false) := by
  have other (val : BitVec 32) : (ascii2hex (sprintf8x val)).length ≠ 3 := by
    rw [ascii2hex_length]
    omega
  unfold readspr sprAccesses
  dsimp only
  split_ifs
  · exact s.getNpc_tests host (other _)
  · refine .unchecked (accessFailed_iff (s.getDebugRegisters_performed host)) ?_
    exact replies_ne (by rw [put, touch, getDebugRegisters_sent]) (other _)
  · exact .unchecked (accessFailed_iff rfl) (replies_ne rfl (other _))

theorem writespr_tests (regno val : BitVec 32) :
    Tests host s (s.writespr host regno val)
      (List.replicate (s.sprAccesses regno (s.npcWrites val)) false) := by
  unfold writespr sprAccesses
  dsimp only
  split_ifs
  · exact s.setNpc_tests host val
  · refine .unchecked (accessFailed_iff (s.getDebugRegisters_performed host)) ?_
    exact replies_ok (by rw [put, touch, getDebugRegisters_sent])
  · exact s.writeCpuReg_tests host _ _

/-- The accesses of `rsp_command`. -/
def commandTests (buf : RspBuf) : List Bool :=
  let cmd := command buf
  let accesses (regno : BitVec 32) (npc : Nat) :=
    if maxSprs < regno.toNat then 0 else s.sprAccesses regno npc
  if (str "readspr").isPrefixOf cmd then
    match one (sscanf readsprFormat cmd) with
    | some regno => List.replicate (accesses regno s.npcReads) false
    | none => []
  else if (str "writespr").isPrefixOf cmd then
    match two (sscanf writesprFormat cmd) with
    | some (regno, val) => List.replicate (accesses regno (s.npcWrites val)) false
    | none => []
  else []

theorem rspCommand_tests (buf : RspBuf) :
    Tests host s (s.rspCommand host buf) (s.commandTests buf) := by
  unfold rspCommand commandTests
  dsimp only
  split_ifs
  · cases one (sscanf readsprFormat (command buf)) with
    | none => exact .none rfl
    | some regno =>
        dsimp only
        split_ifs
        · exact .none rfl
        · exact s.readspr_tests host regno
  · cases two (sscanf writesprFormat (command buf)) with
    | none => exact .none rfl
    | some both =>
        obtain ⟨regno, val⟩ := both
        dsimp only
        split_ifs
        · exact .none rfl
        · exact s.writespr_tests host regno val
  · exact .none rfl

/-! ## Memory -/

/-- The accesses of `rsp_read_mem`. -/
def readMemTests (buf : RspBuf) : List Bool :=
  match two (sscanf (memFormat 'm') buf.cText) with
  | some (addr, len) =>
      if host.mallocs (readLength len) then readTests addr (readLength len).toNat else []
  | none => []

theorem rspReadMem_tests (buf : RspBuf) :
    Tests host s (s.rspReadMem host buf) (readMemTests host buf) := by
  unfold rspReadMem readMemTests
  cases two (sscanf (memFormat 'm') buf.cText) with
  | none => exact .none rfl
  | some both =>
      obtain ⟨addr, len⟩ := both
      dsimp only
      have made := readMemory_makes host s.target addr (readLength len).toNat
      split_ifs with granted failed fits
      · exact made.tests rfl (fun _ => replies_of_sent rfl) (absurd · failed)
      · refine made.tests rfl (absurd · failed) fun _ same => ?_
        rw [replies_of_sent rfl] at same
        exact ascii2hex_ne_error _ (List.singleton_inj.mp same).symm
      · refine made.tests rfl (absurd · failed) fun _ same => ?_
        exact not_one_of_silent rfl (congrArg List.length same)
      · exact .none rfl

/-- The accesses of `rsp_write_mem`: one for every eight digits. -/
def writeMemTests (buf : RspBuf) : List Bool :=
  match two (sscanf (memFormat 'M') buf.cText) with
  | some (_, len) =>
      if (len * 2).toInt ≠ datlen host buf then []
      else if buf.colon = none ∧ 0 < datlen host buf then []
      else
        let digits :=
          (buf.data.toList.drop (symdat host buf).toNat).take (datlen host buf).toNat
        List.replicate (digits.length / 8) true
  | none => []

theorem rspWriteMem_tests (buf : RspBuf) :
    Tests host s (s.rspWriteMem host buf) (writeMemTests host buf) := by
  unfold rspWriteMem writeMemTests
  cases two (sscanf (memFormat 'M') buf.cText) with
  | none => exact .none rfl
  | some both =>
      obtain ⟨addr, len⟩ := both
      dsimp only
      have made := writeNibbles_makes host s.target addr 0 0
        ((buf.data.toList.drop (symdat host buf).toNat).take (datlen host buf).toNat)
      rw [Nat.zero_mod, Nat.zero_add] at made
      split_ifs with differs wild failed
      · exact .none rfl
      · exact .none rfl
      · exact made.tests rfl (fun _ => replies_of_sent rfl) (absurd · failed)
      · exact made.tests rfl (absurd · failed) fun _ => replies_ok rfl

/-- The accesses of `rsp_write_mem_bin`. -/
def writeMemBinTests (buf : RspBuf) : List Bool :=
  match two (sscanf (memFormat 'X') buf.cText) with
  | some (addr, len) =>
      match buf.colon with
      | none => []
      | some i =>
          let off := i + 1
          if gdbBufMax ≤ off then []
          else
            match rspUnescape (buf.data.drop off) (buf.len - off) with
            | .error _ => []
            | .ok (_, newlen) =>
                let len : Int := min len.toInt newlen
                if len = 0 then [] else writeTests addr len.toNat
  | none => []

theorem rspWriteMemBin_tests (buf : RspBuf) :
    Tests host s (s.rspWriteMemBin host buf) (writeMemBinTests buf) := by
  unfold rspWriteMemBin writeMemBinTests
  cases two (sscanf (memFormat 'X') buf.cText) with
  | none => exact .none rfl
  | some both =>
      obtain ⟨addr, len⟩ := both
      dsimp only
      cases buf.colon with
      | none => exact .none rfl
      | some i =>
          dsimp only
          by_cases outside : gdbBufMax ≤ i + 1
          · rw [if_pos outside, if_pos outside]
            exact .none rfl
          · rw [if_neg outside, if_neg outside]
            cases rspUnescape (buf.data.drop (i + 1)) (buf.len - (i + 1)) with
            | error _ => exact .none rfl
            | ok unescaped =>
                obtain ⟨data, newlen⟩ := unescaped
                dsimp only
                split_ifs with none failed
                · exact .none rfl
                · refine (writeMemory_makes host s.target addr _ _).tests rfl
                    (fun _ => replies_of_sent rfl) (absurd · failed)
                · refine (writeMemory_makes host s.target addr _ _).tests rfl
                    (absurd · failed) fun _ => replies_ok rfl

/-! ## Software breakpoints -/

theorem insertMemory_tests (addr : BitVec 32) :
    Tests host s (s.insertMemory host addr) [false, true] := by
  have tested : host.TestedFails s.target.performed [false, true] ↔
      host.Fails (s.target.performed + 1) := by
    simp [Host.TestedFails]
  unfold insertMemory
  extract_lets instr written s₁
  have err : written.err ≠ .errNone ↔ host.Fails (s.target.performed + 1) := Iff.rfl
  constructor
  · intro fails
    rw [if_pos (err.mpr (tested.mp fails))]
    exact replies_of_sent rfl
  · intro fine _
    rw [if_neg fun failed => fine (tested.mpr (err.mp failed))]
    exact replies_ok rfl
  · intro fine
    rw [if_neg fun failed => fine (tested.mpr (err.mp failed))]
    exact accessFailed_iff rfl

theorem removeMemory_tests (addr : BitVec 32) :
    Tests host s (s.removeMemory host addr)
      (if (s.mpHash (.bpMemory, addr)).isSome then [true] else []) := by
  unfold removeMemory
  cases s.mpHash (.bpMemory, addr) with
  | none => exact .none rfl
  | some instr =>
      have made : Makes host s.target (gdbWriteWords host s.target addr (fun _ => instr) 1)
          [true] := .writes _
      dsimp only
      rw [if_pos Option.isSome_some]
      split_ifs with failed
      · exact made.tests rfl (fun _ => replies_of_sent rfl) (absurd · failed)
      · exact made.tests rfl (absurd · failed) fun _ => replies_ok rfl

end RspServer

/-- The two requests for a software breakpoint. -/
inductive SoftwareBreakpoint where
  | insert (addr : BitVec 32)
  | remove (addr : BitVec 32)

/-- The address in a matchpoint request for a software breakpoint. -/
def breakpointAddr (request : Char) (buf : RspBuf) : Option (BitVec 32) :=
  match three (sscanf (matchpointFormat request) buf.cText) with
  | some (type, addr, _) => if type = 0 then some addr else none
  | none => none

/-- The request for a software breakpoint that a packet is, if it is one. -/
def softwareBreakpoint (buf : RspBuf) : Option SoftwareBreakpoint :=
  match requestKind (buf.chars 0) with
  | .insertMatchpoint => (breakpointAddr 'Z' buf).map .insert
  | .removeMatchpoint => (breakpointAddr 'z' buf).map .remove
  | _ => none

namespace RspServer

variable (host : Host) (s : RspServer) (buf : RspBuf)

/-- What is done for a software breakpoint. -/
def serveBreakpoint : SoftwareBreakpoint → RspServer
  | .insert addr => s.insertMemory host addr
  | .remove addr => s.removeMemory host addr

theorem rspClientRequest_breakpoint {buf : RspBuf} {request : SoftwareBreakpoint}
    (is : softwareBreakpoint buf = some request) :
    s.rspClientRequest host buf = s.serveBreakpoint host request := by
  have parsed {ch : Char} {addr : BitVec 32} (found : breakpointAddr ch buf = some addr) :
      ∃ len, three (sscanf (matchpointFormat ch) buf.cText) = some (0, addr, len) := by
    unfold breakpointAddr at found
    split at found
    · rename_i type addr' len whole
      split_ifs at found with memory
      rw [Option.some.injEq] at found
      exact ⟨len, by rw [whole, memory, found]⟩
    · cases found
  unfold softwareBreakpoint at is
  unfold rspClientRequest
  split at is
  · rename_i kind
    obtain ⟨addr, found, rfl⟩ := Option.map_eq_some_iff.mp is
    obtain ⟨len, whole⟩ := parsed found
    rw [kind]
    dsimp only
    rw [rspInsertMatchpoint, whole]
    rfl
  · rename_i kind
    obtain ⟨addr, found, rfl⟩ := Option.map_eq_some_iff.mp is
    obtain ⟨len, whole⟩ := parsed found
    rw [kind]
    dsimp only
    rw [rspRemoveMatchpoint, whole]
    rfl
  · cases is

/-- The accesses for a software breakpoint. -/
def breakpointTests : SoftwareBreakpoint → List Bool
  | .insert _ => [false, true]
  | .remove addr => if (s.mpHash (.bpMemory, addr)).isSome then [true] else []

/-- The accesses of a request, each with whether its code is tested. -/
def accessTests : List Bool :=
  match requestKind (buf.chars 0) with
  | .readAllRegs => List.replicate 2 false
  | .writeAllRegs => s.writeAllRegsTests buf
  | .readReg => s.readRegTests buf
  | .writeReg => s.writeRegTests host buf
  | .readMem => readMemTests host buf
  | .writeMem => writeMemTests host buf
  | .writeMemBin => writeMemBinTests buf
  | .query => s.commandTests buf
  | _ => (softwareBreakpoint buf).elim [] s.breakpointTests

end RspServer

/-- The requests that make debug accesses and are answered by data, `OK` or an error. -/
def MakesAccesses (buf : RspBuf) : Prop :=
  requestKind (buf.chars 0) ∈
      [.readAllRegs, .writeAllRegs, .readReg, .writeReg, .readMem, .writeMem, .writeMemBin] ∨
    (softwareBreakpoint buf).isSome = true ∨
    requestKind (buf.chars 0) = .query ∧ buf.startsWith "qRcmd," = true

instance (buf : RspBuf) : Decidable (MakesAccesses buf) :=
  inferInstanceAs (Decidable (_ ∨ _ ∨ _))

theorem RspServer.rspClientRequest_tests (host : Host) (s : RspServer) {buf : RspBuf}
    (accesses : MakesAccesses buf) :
    Tests host s (s.rspClientRequest host buf) (s.accessTests host buf) := by
  rcases accesses with listed | isBreakpoint | ⟨isQuery, isCommand⟩
  · unfold rspClientRequest accessTests
    simp only [List.mem_cons, List.not_mem_nil, or_false] at listed
    rcases listed with kind | kind | kind | kind | kind | kind | kind <;> rw [kind]
    · exact s.rspReadAllRegs_tests host
    · exact s.rspWriteAllRegs_tests host buf
    · exact s.rspReadReg_tests host buf
    · exact s.rspWriteReg_tests host buf
    · exact s.rspReadMem_tests host buf
    · exact s.rspWriteMem_tests host buf
    · exact s.rspWriteMemBin_tests host buf
  · obtain ⟨request, is⟩ := Option.isSome_iff_exists.mp isBreakpoint
    have tests : s.accessTests host buf = s.breakpointTests request := by
      unfold accessTests
      rw [is]
      unfold softwareBreakpoint at is
      split at is
      · rename_i kind
        rw [kind]
        rfl
      · rename_i kind
        rw [kind]
        rfl
      · cases is
    rw [tests, s.rspClientRequest_breakpoint host is]
    cases request with
    | insert addr => exact s.insertMemory_tests host addr
    | remove addr => exact s.removeMemory_tests host addr
  · unfold rspClientRequest accessTests
    rw [isQuery]
    dsimp only
    rw [rspQuery_command isCommand]
    exact s.rspCommand_tests host buf

/-- A request of which an access fails is answered with an error. -/
def ErrorsReported (host : Host) (s : RspServer) (buf : RspBuf) : Prop :=
  AccessFailed host s (s.rspClientRequest host buf) →
    s.replies (s.rspClientRequest host buf) = [str "E01"]

/-- **A request reports the failures of its accesses exactly when none fails or one does
whose code is tested.** -/
theorem errors_reported_iff (host : Host) (s : RspServer) {buf : RspBuf}
    (accesses : MakesAccesses buf) :
    ErrorsReported host s buf ↔
      (host.AnyFails s.target.performed (s.accessTests host buf).length →
        host.TestedFails s.target.performed (s.accessTests host buf)) :=
  (s.rspClientRequest_tests host accesses).reported_iff

/-- A process in which these debug accesses fail. -/
def failingHost (failing : List Nat) : Host where
  access := fun n => ⟨if n ∈ failing then .errCrc else .errNone, fun _ => 0⟩
  flushes := true
  uninit := fun _ => 0
  malloc := fun _ => true
  bufAddress := 0x10000
  room := gdbBufMax

/-- Two bytes in front of a word boundary, of which the second cannot be written. -/
theorem last_byte_reported :
    ErrorsReported (failingHost [1]) idleServer (packetBuf "X102,2:ab") :=
  (errors_reported_iff (failingHost [1]) idleServer (by decide +kernel)).mpr (by decide +kernel)

/-- The first byte cannot be written, and the request is answered `OK`; a register cannot
be read, and the request is answered with zeros. -/
theorem failures_answered_wrong :
    ¬ ErrorsReported (failingHost [0]) idleServer (packetBuf "X102,2:ab") ∧
      ¬ ErrorsReported (failingHost [0]) idleServer (packetBuf "p1") := by
  unfold ErrorsReported AccessFailed
  constructor
  · intro reported
    exact absurd (reported ⟨0, by decide +kernel, by decide +kernel, by decide⟩) (by decide +kernel)
  · intro reported
    exact absurd (reported ⟨0, by decide +kernel, by decide +kernel, by decide⟩) (by decide +kernel)

end OrpsocCores.Gdb
