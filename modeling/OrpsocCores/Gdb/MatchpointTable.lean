import OrpsocCores.Gdb.Matchpoints

/-!
# The matchpoint table as a map

To its callers the matchpoint table is a map from the type and the address of a
matchpoint to the substituted instruction, and an insertion under a key that is
already there does nothing.  `Shape` says how the map is kept: every bucket is a
finite chain, an entry sits in the bucket of its address, and no key occurs
twice.  Each operation keeps the shape and does to the map what it does to the
chains (`TableOp.exec_spec`); `table_refines_map` is about any sequence of them.
-/

set_option autoImplicit false

namespace OrpsocCores.Gdb

/-! ## The map -/

/-- What identifies a matchpoint. -/
abbrev MpKey := MpType × BitVec 32

def Matchpoint.key (m : Matchpoint) : MpKey := (m.type, m.addr)

/-- The instructions that have been substituted. -/
abbrev MpMap := MpKey → Option (BitVec 32)

/-- The entry of a key. -/
def MpMap.entry (m : MpMap) (key : MpKey) : Option Matchpoint :=
  (m key).map fun instr => ⟨key.1, key.2, instr⟩

/-- Insert a key that is not there yet. -/
def MpMap.add (m : MpMap) (key : MpKey) (instr : BitVec 32) : MpMap :=
  if (m key).isSome then m else Function.update m key (some instr)

/-- Remove a key. -/
def MpMap.delete (m : MpMap) (key : MpKey) : MpMap := Function.update m key none

/-- A call of one of the operations; an insertion with the pointer that `malloc`
returns, a deletion with the caller's decision to free the entry it gets. -/
inductive TableOp where
  | init
  | add (key : MpKey) (instr : BitVec 32) (malloc : Pointer)
  | lookup (key : MpKey)
  | delete (key : MpKey) (freed : Bool)

/-- What a call does to the map, and the entry it returns. -/
def TableOp.spec (m : MpMap) : TableOp → MpMap × Option Matchpoint
  | .init => (fun _ => none, none)
  | .add key instr _ => (m.add key instr, none)
  | .lookup key => (m, m.entry key)
  | .delete key _ => (m.delete key, m.entry key)

/-- The entry a caller finds behind the pointer it gets. -/
def entryAt (heap : Pointer → Option MpEntry) : Option Pointer → Except Fault (Option Matchpoint)
  | none => .ok none
  | some p =>
      match heap p with
      | none => .error .dangling
      | some entry => .ok (some entry.data)

/-- The call on the table itself. -/
def TableOp.exec (rounds : Nat) (s : Rsp) : TableOp → Except Fault (Rsp × Option Matchpoint)
  | .init => .ok (mpHashInit s, none)
  | .add key instr malloc => do
      let s ← mpHashAdd rounds s key.1 key.2 instr malloc
      return (s, none)
  | .lookup key => do
      let found ← mpHashLookup rounds s key.1 key.2
      let entry ← entryAt s.heap found
      return (s, entry)
  | .delete key freed => do
      let (s, found) ← mpHashDelete rounds s key.1 key.2
      let entry ← entryAt s.heap found
      match found with
      | some p => return (if freed then free s p else s, entry)
      | none => return (s, entry)

/-- `malloc` returns memory that is not in use. -/
def TableOp.Fresh (s : Rsp) : TableOp → Prop
  | .add _ _ malloc => s.heap malloc = none
  | _ => True

/-! ## The chains behind the map -/

/-- The entries of a bucket, with the pointers to them. -/
abbrev Bucket := List (Pointer × Matchpoint)

/-- The entry has this key. -/
def isAt (key : MpKey) (x : Pointer × Matchpoint) : Bool :=
  key.1 = x.2.type ∧ key.2 = x.2.addr

theorem isAt_iff {key : MpKey} {x : Pointer × Matchpoint} : isAt key x = true ↔ x.2.key = key := by
  rw [isAt, decide_eq_true_iff, Matchpoint.key, Prod.ext_iff, eq_comm, @eq_comm _ key.2]

/-- How the table keeps its entries: every bucket is a finite chain, an entry
sits in the bucket of its address, and a key occurs once. -/
structure Shape (s : Rsp) (buckets : Fin mpHashSize → Bucket) : Prop where
  chain : ∀ h, Chain s.heap (s.mpHash h) (buckets h)
  home : ∀ h, ∀ x ∈ buckets h, hashValue x.2.addr = h
  unique : ∀ h, ((buckets h).map fun x => x.2.key).Nodup

/-- The map that the buckets hold. -/
def contents (buckets : Fin mpHashSize → Bucket) : MpMap := fun key =>
  ((buckets (hashValue key.2)).find? (isAt key)).map fun x => x.2.instr

/-- The entry found in a bucket is the entry of the map. -/
theorem entry_contents (buckets : Fin mpHashSize → Bucket) (key : MpKey) :
    (contents buckets).entry key =
      ((buckets (hashValue key.2)).find? (isAt key)).map Prod.snd := by
  rw [MpMap.entry, contents, Option.map_map]
  cases found : (buckets (hashValue key.2)).find? (isAt key) with
  | none => rfl
  | some x =>
      have same := isAt_iff.mp (List.find?_some found)
      obtain ⟨p, type, addr, instr⟩ := x
      obtain rfl : (type, addr) = key := same
      rfl

/-- Entries of different buckets are different cells. -/
theorem Shape.same_bucket {s : Rsp} {buckets : Fin mpHashSize → Bucket} (shape : Shape s buckets)
    {p : Pointer} {h h' : Fin mpHashSize} (first : p ∈ (buckets h).map Prod.fst)
    (second : p ∈ (buckets h').map Prod.fst) : h = h' := by
  obtain ⟨⟨p, m⟩, member, rfl⟩ := List.mem_map.mp first
  obtain ⟨⟨q, m'⟩, member', same⟩ := List.mem_map.mp second
  obtain rfl : q = p := same
  obtain ⟨next, here⟩ := (shape.chain h).cell member
  obtain ⟨next', here'⟩ := (shape.chain h').cell member'
  have cells := Option.some.inj (here.symm.trans here')
  rw [Cell.mk.injEq] at cells
  have home := shape.home h _ member
  have home' := shape.home h' _ member'
  rw [← home, ← home', cells.1]

/-- Memory that is not in use holds no entry. -/
theorem Shape.not_mem_of_free {s : Rsp} {buckets : Fin mpHashSize → Bucket}
    (shape : Shape s buckets) {p : Pointer} (unused : s.heap p = none) (h : Fin mpHashSize) :
    p ∉ (buckets h).map Prod.fst := by
  intro member
  obtain ⟨⟨p, m⟩, inBucket, rfl⟩ := List.mem_map.mp member
  obtain ⟨next, here⟩ := (shape.chain h).cell inBucket
  exact absurd (unused.symm.trans here) (Option.some_ne_none _).symm

/-! ## Searching -/

theorem search_spec {heap : Pointer → Option MpEntry} {head : Option Pointer} {l : Bucket}
    (chain : Chain heap head l) (key : MpKey) {rounds : Nat} (enough : l.length < rounds) :
    search heap key.1 key.2 rounds head = .ok ((l.find? (isAt key)).map Prod.fst) := by
  induction l generalizing head rounds with
  | nil =>
      obtain ⟨rounds, rfl⟩ := Nat.exists_eq_add_one_of_ne_zero (Nat.ne_zero_of_lt enough)
      obtain rfl : head = none := chain
      rfl
  | cons x l ih =>
      obtain ⟨rounds, rfl⟩ := Nat.exists_eq_add_one_of_ne_zero (Nat.ne_zero_of_lt enough)
      obtain ⟨rfl, next, here, rest⟩ := chain
      simp only [search, here]
      by_cases found : key.1 = x.2.type ∧ key.2 = x.2.addr
      · have here : isAt key x = true := decide_eq_true found
        rw [if_pos found, List.find?_cons_of_pos here]
        rfl
      · have elsewhere : ¬ isAt key x = true := by simpa [isAt] using found
        rw [if_neg found, List.find?_cons_of_neg elsewhere]
        exact ih rest (Nat.lt_of_succ_lt_succ enough)

/-! ## Inserting -/

/-- The buckets with an entry in front of its chain. -/
def pushed (buckets : Fin mpHashSize → Bucket) (m : Matchpoint) (p : Pointer) :
    Fin mpHashSize → Bucket :=
  Function.update buckets (hashValue m.addr) ((p, m) :: buckets (hashValue m.addr))

theorem Shape.push {s : Rsp} {buckets : Fin mpHashSize → Bucket} (shape : Shape s buckets)
    (m : Matchpoint) {p : Pointer} (fresh : s.heap p = none)
    (absent : (buckets (hashValue m.addr)).find? (isAt m.key) = none) :
    Shape
      { heap := Function.update s.heap p (some ⟨m, s.mpHash (hashValue m.addr)⟩)
        mpHash := Function.update s.mpHash (hashValue m.addr) (some p) }
      (pushed buckets m p) where
  chain := by
    intro h
    by_cases here : h = hashValue m.addr
    · subst here
      simp only [pushed, Function.update_self]
      exact (shape.chain _).push m (shape.not_mem_of_free fresh _)
    · simp only [pushed, Function.update_of_ne here]
      refine (shape.chain h).frame fun q member => ?_
      apply Function.update_of_ne
      rintro rfl
      exact shape.not_mem_of_free fresh h member
  home := by
    refine (Function.forall_update_iff buckets
      fun h bucket => ∀ x ∈ bucket, hashValue x.2.addr = h).mpr ⟨?_, fun h _ => shape.home h⟩
    intro x member
    rcases List.mem_cons.mp member with rfl | earlier
    · rfl
    · exact shape.home _ x earlier
  unique := by
    refine (Function.forall_update_iff buckets
      fun _ bucket => (bucket.map fun x => x.2.key).Nodup).mpr ⟨?_, fun h _ => shape.unique h⟩
    rw [List.map_cons, List.nodup_cons]
    refine ⟨?_, shape.unique _⟩
    intro again
    obtain ⟨x, member, same⟩ := List.mem_map.mp again
    exact List.find?_eq_none.mp absent x member (isAt_iff.mpr same)

theorem contents_pushed (buckets : Fin mpHashSize → Bucket) (m : Matchpoint) (p : Pointer) :
    contents (pushed buckets m p) = Function.update (contents buckets) m.key (some m.instr) := by
  funext key
  unfold contents pushed
  by_cases same : key = m.key
  · subst same
    have first : isAt m.key (p, m) = true := isAt_iff.mpr rfl
    have bucket : hashValue m.key.2 = hashValue m.addr := rfl
    rw [Function.update_self, bucket, Function.update_self, List.find?_cons_of_pos first]
    rfl
  · rw [Function.update_of_ne same]
    by_cases here : hashValue key.2 = hashValue m.addr
    · rw [here, Function.update_self, List.find?_cons_of_neg]
      intro found
      exact same (isAt_iff.mp found).symm
    · rw [Function.update_of_ne here]

/-! ## Deleting -/

/-- The buckets without the entry of a key. -/
def erased (buckets : Fin mpHashSize → Bucket) (key : MpKey) : Fin mpHashSize → Bucket :=
  Function.update buckets (hashValue key.2) ((buckets (hashValue key.2)).eraseP (isAt key))

theorem find?_eraseP_self {l : Bucket} (unique : (l.map fun x => x.2.key).Nodup) (key : MpKey) :
    (l.eraseP (isAt key)).find? (isAt key) = none := by
  induction l with
  | nil => rfl
  | cons x l ih =>
      rw [List.map_cons, List.nodup_cons] at unique
      by_cases here : isAt key x = true
      · rw [List.eraseP_cons_of_pos here, List.find?_eq_none]
        intro y member found
        refine unique.1 (List.mem_map.mpr ⟨y, member, ?_⟩)
        rw [isAt_iff.mp found, isAt_iff.mp here]
      · rw [List.eraseP_cons_of_neg here, List.find?_cons_of_neg here]
        exact ih unique.2

theorem find?_eraseP_of_ne (l : Bucket) {key other : MpKey} (distinct : other ≠ key) :
    (l.eraseP (isAt key)).find? (isAt other) = l.find? (isAt other) := by
  induction l with
  | nil => rfl
  | cons x l ih =>
      by_cases here : isAt key x = true
      · have skipped : ¬ isAt other x = true := by
          intro found
          exact distinct ((isAt_iff.mp found).symm.trans (isAt_iff.mp here))
        rw [List.eraseP_cons_of_pos here, List.find?_cons_of_neg skipped]
      · rw [List.eraseP_cons_of_neg here, List.find?_cons, List.find?_cons, ih]

theorem contents_erased {s : Rsp} {buckets : Fin mpHashSize → Bucket} (shape : Shape s buckets)
    (key : MpKey) : contents (erased buckets key) = (contents buckets).delete key := by
  funext other
  unfold contents erased MpMap.delete
  by_cases same : other = key
  · subst same
    rw [Function.update_self, Function.update_self, find?_eraseP_self (shape.unique _)]
    rfl
  · rw [Function.update_of_ne same]
    by_cases here : hashValue other.2 = hashValue key.2
    · rw [here, Function.update_self, find?_eraseP_of_ne _ same]
    · rw [Function.update_of_ne here]

/-- What the deletion of a key does to the table: its bucket is now this chain, and
nothing else has been written. -/
structure Deletes (s s' : Rsp) (key : MpKey) (bucket : Bucket) : Prop where
  chain : Chain s'.heap (s'.mpHash (hashValue key.2)) bucket
  heads : ∀ h, h ≠ hashValue key.2 → s'.mpHash h = s.mpHash h
  heap : ∀ p, p ∉ bucket.map Prod.fst → s'.heap p = s.heap p

/-- The loop of the deletion, with the entries in front of the current one. -/
theorem mpHashDeleteLoop_spec {s : Rsp} (key : MpKey) (before : Bucket) {l : Bucket}
    {curr : Option Pointer}
    (whole : Chain s.heap (s.mpHash (hashValue key.2)) (before ++ l))
    (chain : Chain s.heap curr l) {rounds : Nat} (enough : l.length < rounds) :
    ∃ s', mpHashDeleteLoop s key.1 key.2 rounds (before.getLast?.map Prod.fst) curr =
        .ok (s', (l.find? (isAt key)).map Prod.fst) ∧
      Deletes s s' key (before ++ l.eraseP (isAt key)) := by
  induction l generalizing before curr rounds with
  | nil =>
      obtain ⟨rounds, rfl⟩ := Nat.exists_eq_add_one_of_ne_zero (Nat.ne_zero_of_lt enough)
      obtain rfl : curr = none := chain
      exact ⟨s, rfl, whole, fun _ _ => rfl, fun _ _ => rfl⟩
  | cons x l ih =>
      obtain ⟨rounds, rfl⟩ := Nat.exists_eq_add_one_of_ne_zero (Nat.ne_zero_of_lt enough)
      obtain ⟨rfl, next, here, rest⟩ := chain
      simp only [mpHashDeleteLoop, here]
      by_cases found : key.1 = x.2.type ∧ key.2 = x.2.addr
      · have isHere : isAt key x = true := decide_eq_true found
        rw [if_pos found, List.find?_cons_of_pos isHere, List.eraseP_cons_of_pos isHere]
        rcases List.eq_nil_or_concat before with rfl | ⟨front, ⟨q, e⟩, rfl⟩
        · -- the entry is the head of its chain
          refine ⟨_, rfl, ?_, ?_, fun _ _ => rfl⟩
          · simp only [Function.update_self]
            exact rest
          · intro h elsewhere
            exact Function.update_of_ne elsewhere ..
        · -- the entry in front of it is redirected
          rw [List.concat_eq_append, List.append_assoc] at whole
          obtain ⟨link, linked⟩ := whole.cell (List.mem_append_right _ List.mem_cons_self)
          simp only [List.concat_eq_append, List.getLast?_append, List.getLast?_singleton,
            Option.some_or, Option.map_some, linked]
          refine ⟨_, rfl, ?_, fun _ _ => rfl, ?_⟩
          · rw [List.append_assoc]
            exact whole.unlink here
          · intro p outside
            apply Function.update_of_ne
            rintro rfl
            simp at outside
      · have elsewhere : ¬ isAt key x = true := by simpa [isAt] using found
        rw [if_neg found, List.find?_cons_of_neg elsewhere, List.eraseP_cons_of_neg elsewhere]
        obtain ⟨s', run, deletes⟩ := ih (before ++ [x]) (by simpa using whole) rest
          (Nat.lt_of_succ_lt_succ enough)
        rw [List.getLast?_append, List.getLast?_singleton, Option.some_or, Option.map_some] at run
        rw [List.append_assoc, List.singleton_append] at deletes
        exact ⟨s', run, deletes⟩

/-- The entry of a key is in no bucket any more. -/
theorem Shape.erased_not_mem {s : Rsp} {buckets : Fin mpHashSize → Bucket} (shape : Shape s buckets)
    {key : MpKey} {x : Pointer × Matchpoint}
    (found : (buckets (hashValue key.2)).find? (isAt key) = some x) (h : Fin mpHashSize) :
    x.1 ∉ (erased buckets key h).map Prod.fst := by
  have member := List.mem_map_of_mem (f := Prod.fst) (List.mem_of_find?_eq_some found)
  unfold erased
  by_cases here : h = hashValue key.2
  · subst here
    rw [Function.update_self]
    have distinct := (shape.chain (hashValue key.2)).nodup
    obtain ⟨y, before, behind, skipped, hit, whole, rest⟩ :=
      List.exists_of_eraseP (List.mem_of_find?_eq_some found) (List.find?_some found)
    have first : y = x := by
      rw [whole, List.find?_append, List.find?_eq_none.mpr (fun z inFront => skipped z inFront),
        Option.none_or, List.find?_cons_of_pos hit] at found
      exact Option.some.inj found
    rw [rest]
    rw [whole, first, List.map_append, List.map_cons, List.nodup_middle, List.nodup_cons,
      ← List.map_append] at distinct
    exact distinct.1
  · rw [Function.update_of_ne here]
    intro again
    exact here (shape.same_bucket again member)

theorem mpHashDelete_spec {s : Rsp} {buckets : Fin mpHashSize → Bucket} (shape : Shape s buckets)
    (key : MpKey) {rounds : Nat} (enough : (buckets (hashValue key.2)).length < rounds) :
    ∃ s', mpHashDelete rounds s key.1 key.2 =
        .ok (s', ((buckets (hashValue key.2)).find? (isAt key)).map Prod.fst) ∧
      Shape s' (erased buckets key) ∧
      entryAt s'.heap (((buckets (hashValue key.2)).find? (isAt key)).map Prod.fst) =
        .ok (((buckets (hashValue key.2)).find? (isAt key)).map Prod.snd) := by
  obtain ⟨s', run, deletes⟩ :=
    mpHashDeleteLoop_spec key [] (shape.chain (hashValue key.2)) (shape.chain _) enough
  refine ⟨s', run, ⟨?_, ?_, ?_⟩, ?_⟩
  · refine (Function.forall_update_iff buckets
      fun h bucket => Chain s'.heap (s'.mpHash h) bucket).mpr ⟨deletes.chain, ?_⟩
    intro h here
    rw [deletes.heads h here]
    refine (shape.chain h).frame fun p member => deletes.heap p fun inBucket => ?_
    obtain ⟨y, inErased, rfl⟩ := List.mem_map.mp inBucket
    refine here (shape.same_bucket member (List.mem_map_of_mem ?_))
    exact List.mem_of_mem_eraseP inErased
  · refine (Function.forall_update_iff buckets
      fun h bucket => ∀ x ∈ bucket, hashValue x.2.addr = h).mpr ⟨?_, fun h _ => shape.home h⟩
    intro y member
    exact shape.home _ y (List.mem_of_mem_eraseP member)
  · refine (Function.forall_update_iff buckets
      fun _ bucket => (bucket.map fun x => x.2.key).Nodup).mpr ⟨?_, fun h _ => shape.unique h⟩
    exact (shape.unique _).sublist (List.eraseP_sublist.map _)
  · cases found : (buckets (hashValue key.2)).find? (isAt key) with
    | none => rfl
    | some x =>
        obtain ⟨next, cell⟩ := (shape.chain _).cell (List.mem_of_find?_eq_some found)
        have outside := shape.erased_not_mem found (hashValue key.2)
        rw [erased, Function.update_self] at outside
        simp only [Option.map_some, entryAt, deletes.heap x.1 outside, cell]

/-- Freeing an entry that is in no bucket. -/
theorem Shape.free {s : Rsp} {buckets : Fin mpHashSize → Bucket} (shape : Shape s buckets)
    {p : Pointer} (outside : ∀ h, p ∉ (buckets h).map Prod.fst) : Shape (free s p) buckets where
  chain := by
    intro h
    refine (shape.chain h).frame fun q member => ?_
    apply Function.update_of_ne
    rintro rfl
    exact outside h member
  home := shape.home
  unique := shape.unique

/-! ## Sequences of calls -/

/-- The table holds this map, in chains of at most this length. -/
def Keeps (s : Rsp) (m : MpMap) (longest : Nat) : Prop :=
  ∃ buckets, Shape s buckets ∧ contents buckets = m ∧ ∀ h, (buckets h).length ≤ longest

/-- The table with all links cleared. -/
theorem keeps_empty {s : Rsp} (cleared : ∀ h, s.mpHash h = none) :
    Keeps s (fun _ => none) 0 := by
  refine ⟨fun _ => [], ⟨cleared, ?_, fun _ => List.nodup_nil⟩, rfl, fun _ => Nat.le_refl 0⟩
  exact fun _ _ member => absurd member List.not_mem_nil

theorem Keeps.mono {s : Rsp} {m : MpMap} {n n' : Nat} (keeps : Keeps s m n) (le : n ≤ n') :
    Keeps s m n' := by
  obtain ⟨buckets, shape, map, short⟩ := keeps
  exact ⟨buckets, shape, map, fun h => Nat.le_trans (short h) le⟩

theorem Keeps.add {s : Rsp} {m : MpMap} {longest rounds : Nat} (keeps : Keeps s m longest)
    (enough : longest < rounds) (key : MpKey) (instr : BitVec 32) {malloc : Pointer}
    (fresh : s.heap malloc = none) :
    ∃ s', mpHashAdd rounds s key.1 key.2 instr malloc = .ok s' ∧
      Keeps s' (m.add key instr) (longest + 1) := by
  obtain ⟨buckets, shape, rfl, short⟩ := keeps
  have searched := search_spec (shape.chain (hashValue key.2)) key
    (Nat.lt_of_le_of_lt (short _) enough)
  cases found : (buckets (hashValue key.2)).find? (isAt key) with
  | some x =>
      have present : (contents buckets key).isSome := by simp [contents, found]
      refine ⟨s, by simp [mpHashAdd, searched, found], ?_⟩
      rw [MpMap.add, if_pos present]
      exact ⟨buckets, shape, rfl, fun h => Nat.le_succ_of_le (short h)⟩
  | none =>
      have absent : ¬ (contents buckets key).isSome := by simp [contents, found]
      refine ⟨_, by simp only [mpHashAdd, searched, found, Option.map_none]; rfl, ?_⟩
      rw [MpMap.add, if_neg absent]
      refine ⟨pushed buckets ⟨key.1, key.2, instr⟩ malloc, shape.push _ fresh found,
        contents_pushed .., ?_⟩
      exact (Function.forall_update_iff buckets fun _ bucket => bucket.length ≤ longest + 1).mpr
        ⟨Nat.succ_le_succ (short _), fun h _ => Nat.le_succ_of_le (short h)⟩

theorem Keeps.lookup {s : Rsp} {m : MpMap} {longest rounds : Nat} (keeps : Keeps s m longest)
    (enough : longest < rounds) (key : MpKey) :
    ∃ found, mpHashLookup rounds s key.1 key.2 = .ok found ∧
      entryAt s.heap found = .ok (m.entry key) := by
  obtain ⟨buckets, shape, rfl, short⟩ := keeps
  refine ⟨_, search_spec (shape.chain (hashValue key.2)) key
    (Nat.lt_of_le_of_lt (short _) enough), ?_⟩
  rw [entry_contents]
  cases found : (buckets (hashValue key.2)).find? (isAt key) with
  | none => rfl
  | some x =>
      obtain ⟨next, cell⟩ := (shape.chain _).cell (List.mem_of_find?_eq_some found)
      simp only [Option.map_some, entryAt, cell]

theorem Keeps.delete {s : Rsp} {m : MpMap} {longest rounds : Nat} (keeps : Keeps s m longest)
    (enough : longest < rounds) (key : MpKey) :
    ∃ s' found, mpHashDelete rounds s key.1 key.2 = .ok (s', found) ∧
      entryAt s'.heap found = .ok (m.entry key) ∧ Keeps s' (m.delete key) longest ∧
      ∀ p, found = some p → Keeps (free s' p) (m.delete key) longest := by
  obtain ⟨buckets, shape, rfl, short⟩ := keeps
  obtain ⟨s', run, shape', entry⟩ :=
    mpHashDelete_spec shape key (Nat.lt_of_le_of_lt (short _) enough)
  have shorter : ∀ h, (erased buckets key h).length ≤ longest :=
    (Function.forall_update_iff buckets fun _ bucket => bucket.length ≤ longest).mpr
      ⟨Nat.le_trans List.length_eraseP_le (short _), fun h _ => short h⟩
  have map := contents_erased shape key
  refine ⟨s', _, run, by rw [entry, entry_contents], ⟨_, shape', map, shorter⟩, ?_⟩
  intro p deleted
  obtain ⟨x, found, rfl⟩ := Option.map_eq_some_iff.mp deleted
  exact ⟨_, shape'.free fun h => shape.erased_not_mem found h, map, shorter⟩

/-- **Each call does to the map what it does to the chains.** -/
theorem TableOp.exec_spec {s : Rsp} {m : MpMap} {longest rounds : Nat} (keeps : Keeps s m longest)
    (enough : longest < rounds) {op : TableOp} (fresh : op.Fresh s) :
    ∃ s', op.exec rounds s = .ok (s', (op.spec m).2) ∧ Keeps s' (op.spec m).1 (longest + 1) := by
  cases op with
  | init => exact ⟨_, rfl, (keeps_empty fun _ => rfl).mono (Nat.zero_le _)⟩
  | add key instr malloc =>
      obtain ⟨s', run, keeps'⟩ := keeps.add enough key instr fresh
      exact ⟨s', by simp [exec, spec, run, bind, Except.bind, pure, Except.pure], keeps'⟩
  | lookup key =>
      obtain ⟨found, run, entry⟩ := keeps.lookup enough key
      refine ⟨s, ?_, keeps.mono (Nat.le_succ _)⟩
      simp [exec, spec, run, entry, bind, Except.bind, pure, Except.pure]
  | delete key freed =>
      obtain ⟨s', found, run, entry, keeps', released⟩ := keeps.delete enough key
      simp only [exec, spec, run, entry, bind, Except.bind, pure, Except.pure]
      cases found with
      | none => exact ⟨s', rfl, keeps'.mono (Nat.le_succ _)⟩
      | some p =>
          refine ⟨_, rfl, ?_⟩
          cases freed with
          | false => exact keeps'.mono (Nat.le_succ _)
          | true => exact (released p rfl).mono (Nat.le_succ _)

/-- A sequence of calls on the table, with the entries they return. -/
def TableOp.run (rounds : Nat) : Rsp → List TableOp → Except Fault (Rsp × List (Option Matchpoint))
  | s, [] => .ok (s, [])
  | s, op :: ops => do
      let (s, entry) ← op.exec rounds s
      let (s, entries) ← run rounds s ops
      return (s, entry :: entries)

/-- The sequence on the map. -/
def TableOp.specRun : MpMap → List TableOp → MpMap × List (Option Matchpoint)
  | m, [] => (m, [])
  | m, op :: ops =>
      let (m, entry) := op.spec m
      let (m, entries) := specRun m ops
      (m, entry :: entries)

/-- Every `malloc` of a sequence returns memory that is not in use. -/
def TableOp.FreshRun (rounds : Nat) : Rsp → List TableOp → Prop
  | _, [] => True
  | s, op :: ops => op.Fresh s ∧
      match op.exec rounds s with
      | .error _ => True
      | .ok (s, _) => FreshRun rounds s ops

theorem TableOp.run_spec {s : Rsp} {m : MpMap} {longest rounds : Nat} {ops : List TableOp}
    (keeps : Keeps s m longest) (enough : longest + ops.length < rounds)
    (fresh : FreshRun rounds s ops) :
    ∃ s', run rounds s ops = .ok (s', (specRun m ops).2) ∧
      Keeps s' (specRun m ops).1 (longest + ops.length) := by
  induction ops generalizing s m longest with
  | nil => exact ⟨s, rfl, keeps⟩
  | cons op ops ih =>
      rw [List.length_cons] at enough
      obtain ⟨here, later⟩ := fresh
      have shallow : longest < rounds := by omega
      obtain ⟨s', step, keeps'⟩ := exec_spec keeps shallow here
      rw [step] at later
      obtain ⟨s'', rest, keeps''⟩ := ih keeps' (by omega) later
      refine ⟨s'', ?_, keeps''.mono (by rw [List.length_cons]; omega)⟩
      simp [run, specRun, step, rest, bind, Except.bind, pure, Except.pure]

/-- **The matchpoint table is a map.**  From the table of a server that starts,
any sequence of calls returns the entries that the map holds and leaves the
chains in order, given as many rounds along a chain as there are calls. -/
theorem table_refines_map {s : Rsp} (cleared : ∀ h, s.mpHash h = none) {ops : List TableOp}
    {rounds : Nat} (enough : ops.length < rounds) (fresh : TableOp.FreshRun rounds s ops) :
    ∃ s' buckets, TableOp.run rounds s ops = .ok (s', (TableOp.specRun (fun _ => none) ops).2) ∧
      Shape s' buckets ∧ contents buckets = (TableOp.specRun (fun _ => none) ops).1 ∧
      ∀ h, ((buckets h).map Prod.fst).Nodup := by
  obtain ⟨s', run, buckets, shape, map, -⟩ :=
    TableOp.run_spec (keeps_empty cleared) (by rwa [Nat.zero_add]) fresh
  exact ⟨s', buckets, run, shape, map, fun h => (shape.chain h).nodup⟩

instance decidableFresh (s : Rsp) (op : TableOp) : Decidable (op.Fresh s) :=
  match op with
  | .add _ _ malloc => inferInstanceAs (Decidable (s.heap malloc = none))
  | .init | .lookup _ | .delete _ _ => .isTrue trivial

instance decidableFreshRun (rounds : Nat) :
    ∀ (s : Rsp) (ops : List TableOp), Decidable (TableOp.FreshRun rounds s ops)
  | _, [] => .isTrue trivial
  | s, op :: ops =>
      match h : op.exec rounds s with
      | .error _ => decidable_of_iff (op.Fresh s) (by simp [TableOp.FreshRun, h])
      | .ok (s', _) =>
          have := decidableFreshRun rounds s' ops
          decidable_of_iff (op.Fresh s ∧ TableOp.FreshRun rounds s' ops)
            (by simp [TableOp.FreshRun, h])

/-- Three entries in one bucket, two of them at one address; the one in the
middle of the chain is deleted and its memory is used again. -/
def collidingOps : List TableOp :=
  [.add (.bpMemory, 4) 0x11 0, .add (.bpMemory, 1025) 0x22 1, .add (.bpHardware, 4) 0x33 2,
    .delete (.bpMemory, 1025) true, .add (.bpMemory, 4) 0x44 1, .lookup (.bpMemory, 4),
    .lookup (.bpMemory, 1025), .add (.wpRead, 2046) 0x55 1]

def clearedRsp : Rsp := ⟨fun _ => none, fun _ => none⟩

theorem table_refines_map_collidingOps :
    TableOp.FreshRun 9 clearedRsp collidingOps ∧
      ∃ s', TableOp.run 9 clearedRsp collidingOps =
        .ok (s', [none, none, none, some ⟨.bpMemory, 1025, 0x22⟩, none,
          some ⟨.bpMemory, 4, 0x11⟩, none, none]) := by
  have fresh : TableOp.FreshRun 9 clearedRsp collidingOps := by decide +kernel
  obtain ⟨s', -, run, -, -⟩ := table_refines_map (fun _ => rfl) (by decide) fresh
  exact ⟨fresh, s', run⟩

end OrpsocCores.Gdb
