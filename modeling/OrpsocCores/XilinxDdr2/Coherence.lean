import OrpsocCores.XilinxDdr2.Paths

/-!
# The lines of the ports and the memory

A line that is not marked is the one in the memory (`LinePath`), as long as every cycle is
`Heeded`; a read is acknowledged from such a line only.  `fresh_of_heeded` puts this
together for every run.  At the end are a write that port 4 misses, although nothing else
happens, and one that it does not.
-/

set_option autoImplicit false

namespace OrpsocCores.XilinxDdr2

open Wishbone

variable {p : Params}

/-! ## The lines -/

theorem contents_append (mem : Nat → Word) (first second : List Write) :
    contents mem (first ++ second) = contents (contents mem first) second :=
  List.foldl_append

/-- Writes to other words leave a word alone. -/
theorem contents_of_untouched {mem : Nat → Word} {writes : List Write} {word : Nat}
    (untouched : ∀ x ∈ writes, x.word ≠ word) : contents mem writes word = mem word := by
  induction writes generalizing mem with
  | nil => rfl
  | cons x writes ih =>
      have first : x.word ≠ word := untouched x List.mem_cons_self
      have rest : contents (x.apply mem) writes word = x.apply mem word :=
        ih fun y member => untouched y (List.mem_cons_of_mem _ member)
      exact rest.trans (Function.update_of_ne (Ne.symm first) _ _)

section

variable {s : State p} {h : History} {e : Cycle} {i : Fin 5}

/-- The line of a port is not marked and no refill of it is commanded. -/
def Clean (s : State p) (i : Fin 5) : Prop :=
  (s.ports i).addrDirtyR = false ∧ (s.ports i).burstStart = false

/-- The first word of the line of a port. -/
def State.lineBase (s : State p) (i : Fin 5) : Nat := base (p.width i) (s.ports i).burstAddr

/-- A line that is not marked is the one in the memory: the words in the buffer, those on
their way, and none of them is being written.  The same holds of the buffer while a read
is acknowledged. -/
structure LinePath (s : State p) (h : History) (i : Fin 5) : Prop where
  buffer : Clean s i → ∀ k,
    ((s.ports i).bursting = true → k.toNat < (s.ports i).burstCnt.toNat) →
      (s.ports i).burstDataBuf k = s.mig.mem (s.lineBase i + k.toNat)
  fifo : Clean s i → ∀ m word, (s.mig.rdFifo i)[m]? = some word →
    word = s.mig.mem (s.lineBase i + ((s.ports i).burstCnt.toNat + m))
  apart : Clean s i → ∀ j, (s.ports j).wbAckWrite = true → ∀ access ∈ h.pending j,
    base (p.width i) (lineOf (p.width i) access.1.adr) ≠ s.lineBase i
  acking : (s.ports i).wbAckRead = true → ∀ k,
    (s.ports i).burstDataBuf k = s.mig.mem (s.lineBase i + k.toNat)

/-- The ports that write in a cycle. -/
theorem mem_ackedWrites (paths : ∀ i, WritePath s h i) (faithful : Faithful (s, h) e)
    {ports : List (Fin 5)} {x : Write} (member : x ∈ ports.filterMap (s.ackedWrite e)) :
    ∃ j ∈ ports, (s.ports j).wbAckWrite = true ∧ x = writeOf (e.bus j) := by
  obtain ⟨j, inside, acked⟩ := List.mem_filterMap.mp member
  rw [(paths j).ackedWrite_eq faithful] at acked
  split at acked
  · next writes => exact ⟨j, inside, writes, (Option.some.inj acked).symm⟩
  · cases acked

/-- The words of a line that no port writes. -/
theorem contents_line (paths : ∀ i, WritePath s h i) (faithful : Faithful (s, h) e)
    {ports : List (Fin 5)} {line k : Nat} (mem : Nat → Word)
    (elsewhere : ∀ j ∈ ports, (s.ports j).wbAckWrite = true →
      base (p.width i) (lineOf (p.width i) (e.bus j).adr) ≠ base (p.width i) line)
    (inside : k < 2 ^ p.width i) :
    contents mem (ports.filterMap (s.ackedWrite e)) (base (p.width i) line + k) =
      mem (base (p.width i) line + k) := by
  apply contents_of_untouched
  intro x member same
  obtain ⟨j, turn, writes, rfl⟩ := mem_ackedWrites paths faithful member
  exact elsewhere j turn writes (base_eq_of_word (p.legal i) inside same)

/-- A line that is not marked is not written in the cycle. -/
theorem LinePath.mem_step (path : LinePath s h i) (paths : ∀ i, WritePath s h i)
    (faithful : Faithful (s, h) e) (clean : Clean s i) {k : Nat} (inside : k < 2 ^ p.width i) :
    (s.step e).mig.mem (s.lineBase i + k) = s.mig.mem (s.lineBase i + k) := by
  have memory : (s.step e).mig.mem = s.mig.memAfter (s.command e) e.order := rfl
  rw [memory, memAfter_eq paths faithful]
  refine contents_line paths faithful _ ?_ inside
  intro j _ writes
  obtain ⟨access, pending, -⟩ := (paths j).inFlight writes
  rw [faithful.holds j access pending]
  exact path.apart clean j writes access pending

/-- The line of a refill is read as it is at the end of the cycle, unless it is marked. -/
theorem Heeded.mem_fetched (heeded : Heeded s e) (paths : ∀ i, WritePath s h i)
    (faithful : Faithful (s, h) e) (starts : (s.ports i).burstStart = true)
    (unmarked : s.pxAddrDirty e i = false) {k : Nat} (inside : k < 2 ^ p.width i) :
    s.mig.memAfter (s.command e) (e.order.takeWhile fun j => j ≠ i)
        (base (p.width i) (lineOf (p.width i) (e.bus i).adr) + k) =
      (s.step e).mig.mem (base (p.width i) (lineOf (p.width i) (e.bus i).adr) + k) := by
  have memory : (s.step e).mig.mem = s.mig.memAfter (s.command e) e.order := rfl
  have distinct : e.order.Nodup := faithful.turns.nodup_iff.mpr (List.nodup_finRange 5)
  have order : e.order = (e.order.takeWhile fun j => decide (j ≠ i)) ++
      e.order.dropWhile fun j => decide (j ≠ i) := List.takeWhile_append_dropWhile.symm
  have later : s.mig.memAfter (s.command e) e.order = contents
      (s.mig.memAfter (s.command e) (e.order.takeWhile fun j => decide (j ≠ i)))
      ((e.order.dropWhile fun j => decide (j ≠ i)).filterMap (s.ackedWrite e)) := by
    rw [memAfter_eq paths faithful, memAfter_eq paths faithful, ← contents_append,
      ← List.filterMap_append, ← order]
  rw [memory, later]
  refine (contents_line paths faithful _ ?_ inside).symm
  intro j after writes same
  rcases heeded.precedes i j starts writes same with marked | before
  · exact absurd marked (by simp [unmarked])
  · rw [order, List.nodup_append] at distinct
    exact distinct.2.2 j before j after rfl

theorem ReadPath.nextLine_eq (path : ReadPath s i) (faithful : Faithful (s, h) e) :
    ((s.step e).ports i).burstAddr = s.nextLine e i := by
  cases path.refill faithful with
  | starts start ports => rw [ports.2.2, State.nextLine, if_pos start]
  | takes _ _ start _ ports => simp [ports.2.2.2, State.nextLine, start]
  | rests start ports => simp [ports.2.2.2, State.nextLine, start]

/-- A line that is not marked after a cycle was not marked in it, and was not before
either, or its refill has just been commanded. -/
theorem unmarked_of_clean (clean : Clean (s.step e) i) :
    s.pxAddrDirty e i = false ∧
      ((s.ports i).burstStart = false → (s.ports i).addrDirtyR = false) := by
  have mark : (e.wbRst || s.pxAddrDirty e i ||
      (!(s.ports i).burstStart && (s.ports i).addrDirtyR)) = false := clean.1
  simp only [Bool.or_eq_false_iff, Bool.and_eq_false_iff, Bool.not_eq_false'] at mark
  refine ⟨mark.1.2, fun silent => ?_⟩
  rcases mark.2 with starts | dirty
  · exact absurd starts (by simp [silent])
  · exact dirty

/-- The writes that are pushed leave the lines that are not marked alone. -/
theorem Heeded.apart (heeded : Heeded s e) (readPath : ReadPath s i)
    (faithful : Faithful (s, h) e) (clean : Clean (s.step e) i) (j : Fin 5)
    (pushes : ((s.step e).ports j).wbAckWrite = true) (access : Bus × Nat)
    (pending : access ∈ (s.record e h).pending j) :
    base (p.width i) (lineOf (p.width i) access.1.adr) ≠ (s.step e).lineBase i := by
  obtain ⟨unmarked, before⟩ := unmarked_of_clean clean
  rw [(pending_record pending).1, State.lineBase, readPath.nextLine_eq faithful]
  intro same
  rcases heeded.marks i j pushes same with marked | ⟨silent, dirty⟩
  · exact absurd marked (by simp [unmarked])
  · exact absurd (before silent) (by simp [dirty])

/-- A line that is not marked stays as it is, where no refill is commanded. -/
theorem LinePath.line_step (path : LinePath s h i) (paths : ∀ i, WritePath s h i)
    (readPath : ReadPath s i) (faithful : Faithful (s, h) e) (clean : Clean s i) {k : Nat}
    (inside : k < 2 ^ p.width i) :
    (s.step e).mig.mem ((s.step e).lineBase i + k) = s.mig.mem (s.lineBase i + k) := by
  have same : (s.step e).lineBase i = s.lineBase i := by
    rw [State.lineBase, readPath.nextLine_eq faithful, State.nextLine, clean.2]
    rfl
  rw [same, path.mem_step paths faithful clean inside]

theorem LinePath.buffer_step (path : LinePath s h i) (paths : ∀ i, WritePath s h i)
    (readPath : ReadPath s i) (faithful : Faithful (s, h) e) (clean : Clean (s.step e) i)
    (k : BitVec (p.width i))
    (inside : ((s.step e).ports i).bursting = true →
      k.toNat < ((s.step e).ports i).burstCnt.toNat) :
    ((s.step e).ports i).burstDataBuf k =
      (s.step e).mig.mem ((s.step e).lineBase i + k.toNat) := by
  obtain ⟨-, before⟩ := unmarked_of_clean clean
  cases readPath.refill faithful with
  | starts start ports fifo =>
      -- nothing has been taken yet
      have none_taken := inside ports.1
      rw [ports.2.1] at none_taken
      exact absurd none_taken (Nat.not_lt_zero _)
  | takes word rest start busy ports fifo =>
      obtain ⟨buffer, count, bursting, -⟩ := ports
      have cleanBefore : Clean s i := ⟨before start, start⟩
      rw [path.line_step paths readPath faithful cleanBefore k.isLt, buffer]
      by_cases here : k = (s.ports i).burstCnt
      · rw [here, Function.update_self]
        exact path.fifo cleanBefore 0 word (by rw [busy.2]; rfl)
      · rw [Function.update_of_ne here]
        refine path.buffer cleanBefore k fun _ => ?_
        have different : k.toNat ≠ (s.ports i).burstCnt.toNat := fun same =>
          here (BitVec.eq_of_toNat_eq same)
        by_cases last : (s.ports i).burstCnt = BitVec.allOnes _
        · rw [last, BitVec.toNat_allOnes] at different ⊢
          have bound := k.isLt
          omega
        · have goesOn := inside (by rw [bursting, bne_iff_ne]; exact last)
          rw [count, toNat_succ last] at goesOn
          omega
  | rests start ports fifo =>
      obtain ⟨buffer, count, bursting, -⟩ := ports
      have cleanBefore : Clean s i := ⟨before start, start⟩
      rw [path.line_step paths readPath faithful cleanBefore k.isLt, buffer]
      refine path.buffer cleanBefore k ?_
      rw [← bursting, ← count]
      exact inside

theorem LinePath.fifo_step (path : LinePath s h i) (heeded : Heeded s e)
    (paths : ∀ i, WritePath s h i) (readPath : ReadPath s i) (faithful : Faithful (s, h) e)
    (clean : Clean (s.step e) i) (m : Nat) (word : Word)
    (found : ((s.step e).mig.rdFifo i)[m]? = some word) :
    word = (s.step e).mig.mem
      ((s.step e).lineBase i + (((s.step e).ports i).burstCnt.toNat + m)) := by
  have words := burstWords_le (p.width i)
  obtain ⟨unmarked, before⟩ := unmarked_of_clean clean
  cases readPath.refill faithful with
  | starts start ports fifo =>
      have asked : directed i (e.bus i).we true = true := by
        rw [← Bool.not_eq_false]
        intro lost
        simp [fifo, readPath.fetched_of_start start, lost] at found
      rw [fifo, readPath.fetched_of_start start, if_pos asked] at found
      obtain ⟨inside, rfl⟩ := List.getElem?_eq_some_iff.mp found
      rw [List.length_map, List.length_range] at inside
      have zero : (0 : BitVec (p.width i)).toNat = 0 := BitVec.toNat_zero
      rw [List.getElem_map, List.getElem_range, State.lineBase, ports.2.2, ports.2.1, zero,
        Nat.zero_add]
      exact heeded.mem_fetched paths faithful start unmarked (by omega)
  | takes word' rest start busy ports fifo =>
      have cleanBefore : Clean s i := ⟨before start, start⟩
      have left := readPath.count busy.1
      rw [busy.2, List.length_cons] at left
      rw [fifo] at found
      have inside := (List.getElem?_eq_some_iff.mp found).1
      have goesOn : (s.ports i).burstCnt ≠ BitVec.allOnes _ := by
        intro last
        rw [last, BitVec.toNat_allOnes] at left
        omega
      rw [ports.2.1, toNat_succ goesOn, path.line_step paths readPath faithful cleanBefore (by omega),
        Nat.add_assoc, Nat.add_comm 1]
      exact path.fifo cleanBefore (m + 1) word (by rw [busy.2]; exact found)
  | rests start ports fifo =>
      have cleanBefore : Clean s i := ⟨before start, start⟩
      rw [fifo] at found
      have inside := (List.getElem?_eq_some_iff.mp found).1
      have busy : (s.ports i).bursting = true := by
        rw [← Bool.not_eq_false]
        intro idle
        rw [readPath.empty idle] at inside
        exact absurd inside (Nat.not_lt_zero _)
      have left := readPath.count busy
      rw [ports.2.1, path.line_step paths readPath faithful cleanBefore (by omega)]
      exact path.fifo cleanBefore m word found

/-- A read is acknowledged from a line that is not marked, and the buffer is left alone. -/
theorem LinePath.acking_step (path : LinePath s h i) (paths : ∀ i, WritePath s h i)
    (readPath : ReadPath s i) (faithful : Faithful (s, h) e)
    (acks : ((s.step e).ports i).wbAckRead = true) (k : BitVec (p.width i)) :
    ((s.step e).ports i).burstDataBuf k =
      (s.step e).mig.mem ((s.step e).lineBase i + k.toNat) := by
  have served : (s.ports i).served (e.bus i) = true := (Bool.and_eq_true_iff.mp acks).2
  simp only [Userport.served, Userport.addrMatch, Bool.and_eq_true, Bool.not_eq_true'] at served
  obtain ⟨⟨⟨-, unmarked⟩, idle⟩, silent⟩ := served
  have clean : Clean s i := ⟨unmarked, silent⟩
  rw [path.line_step paths readPath faithful clean k.isLt]
  cases readPath.refill faithful with
  | starts start => exact absurd start (by simp [silent])
  | takes _ _ _ busy => exact absurd busy.1 (by simp [idle])
  | rests start ports fifo =>
      rw [ports.1]
      exact path.buffer clean k fun busy => absurd busy (by simp [idle])

theorem LinePath.step (path : LinePath s h i) (heeded : Heeded s e)
    (paths : ∀ i, WritePath s h i) (readPath : ReadPath s i) (faithful : Faithful (s, h) e) :
    LinePath (s.step e) (s.record e h) i :=
  ⟨path.buffer_step paths readPath faithful, path.fifo_step heeded paths readPath faithful,
    heeded.apart readPath faithful, path.acking_step paths readPath faithful⟩

end

/-! ## Every run -/

/-- What holds between two cycles. -/
structure Coherent (mem : Nat → Word) (x : State p × History) : Prop where
  memory : x.1.mig.mem = contents mem x.2.acked
  counted : ∀ i, x.2.before i ≤ x.2.acked.length
  writePath : ∀ i, WritePath x.1 x.2 i
  readPath : ∀ i, ReadPath x.1 i
  linePath : ∀ i, LinePath x.1 x.2 i

theorem coherent_of_settled {s : State p} (settled : Settled s) :
    Coherent s.mig.mem (s, History.empty) where
  memory := rfl
  counted _ := Nat.le_refl 0
  writePath i := by
    obtain ⟨-, -, read, write⟩ := settled.clear i
    exact ⟨fun acks => absurd acks (by simp [write]), fun _ => (settled.empty i).1,
      fun acks => absurd acks (by simp [read]), fun acks => absurd acks (by simp [read])⟩
  readPath i := by
    obtain ⟨idle, start, -, -⟩ := settled.clear i
    exact ⟨fun starts => absurd starts (by simp [start]), fun _ => (settled.empty i).2,
      fun busy => absurd busy (by simp [idle])⟩
  linePath i := by
    have dirty := settled.dirty i
    have never : ¬ Clean s i := fun clean => absurd clean.1 (by simp [dirty])
    obtain ⟨-, -, read, -⟩ := settled.clear i
    exact ⟨fun clean => absurd clean never, fun clean => absurd clean never,
      fun clean => absurd clean never, fun acks => absurd acks (by simp [read])⟩

theorem Coherent.step {mem : Nat → Word} {x : State p × History} {e : Cycle}
    (coherent : Coherent mem x) (faithful : Faithful x e) (heeded : Heeded x.1 e) :
    Coherent mem (State.recorded x e) where
  memory := by
    have executed := memAfter_eq coherent.writePath faithful e.order
    rw [coherent.memory, ← contents_append] at executed
    exact executed
  counted i := by
    have grown : (State.recorded x e).2.acked.length =
        x.2.acked.length + (e.order.filterMap (x.1.ackedWrite e)).length := List.length_append
    have before := coherent.counted i
    cases pending : (State.recorded x e).2.pending i with
    | none => simp [History.before, pending]
    | some access =>
        have same := (pending_record (s := x.1) pending).2
        simp only [History.before, pending, Option.map_some, Option.getD_some, same] at before ⊢
        omega
  writePath i := (coherent.writePath i).step faithful (heeded.writable i)
  readPath i := (coherent.readPath i).step faithful
  linePath i := (coherent.linePath i).step heeded coherent.writePath (coherent.readPath i) faithful

/-- An acknowledged read is the word in the memory. -/
theorem Coherent.wbDatO_eq {mem : Nat → Word} {x : State p × History} {e : Cycle} {i : Fin 5}
    (coherent : Coherent mem x) (faithful : Faithful x e) (stays : Stays x.1 e i)
    (reads : (e.bus i).reads = true) (acks : x.1.wbAckO i = true) :
    x.1.wbDatO e i = x.1.mig.mem (wordAdr (e.bus i).adr) := by
  have read : (x.1.ports i).wbAckRead = true := by
    rcases Bool.or_eq_true_iff.mp acks with write | read
    · have writes := ((coherent.writePath i).of_ackWrite faithful write).1
      simp only [Pins.reads, Pins.writes, Bool.and_eq_true, Bool.not_eq_true'] at reads writes
      exact absurd writes.2 (by simp [reads.2])
    · exact read
  have line := stays reads read
  rw [wordAdr_eq (p.legal i), line, State.wbDatO, Userport.wbDatO,
    (coherent.linePath i).acking read, BitVec.toNat_ofNat]
  rfl

theorem Coherent.fresh {mem : Nat → Word} {x : State p × History} {e : Cycle}
    (coherent : Coherent mem x) (faithful : Faithful x e) (heeded : Heeded x.1 e) :
    Fresh mem x e := by
  intro i reads acks b
  refine ⟨x.2.acked.length, coherent.counted i, Nat.le_refl _, ?_⟩
  rw [List.take_length, ← coherent.memory,
    coherent.wbDatO_eq faithful (heeded.stays i) reads acks]

/-- **In every run in which no line misses a write, no acknowledged read has a byte that
is older than the last write to it acknowledged before the read was presented.** -/
theorem fresh_of_heeded {s : State p} (settled : Settled s) {run : List Cycle}
    (permitted : Trace.Always State.recorded (fun x e => Faithful x e ∧ Heeded x.1 e)
      (s, History.empty) run) :
    Trace.Always State.recorded (Fresh s.mig.mem) (s, History.empty) run :=
  permitted.of_invariant (Coherent s.mig.mem)
    (fun _ _ coherent ⟨faithful, heeded⟩ => coherent.step faithful heeded)
    (fun _ _ coherent ⟨faithful, heeded⟩ => coherent.fresh faithful heeded)
    (coherent_of_settled settled)

/-! ## A write that is missed and one that is not -/

/-- Lines of two words, and of four at port 4. -/
def wideLast : Params := ⟨fun i => if i.val = 4 then 2 else 1, fun _ => true, by decide, by decide⟩

def afterReset : State wideLast where
  ports _ := ⟨fun _ => 0, 0, 0, false, false, true, false, false, false⟩
  wbPxReqR _ := false
  calibDoneR := 0
  mig := ⟨fun _ => 0, fun _ => [], fun _ => []⟩

theorem settled_afterReset : Settled afterReset :=
  ⟨fun _ => ⟨rfl, rfl, rfl, rfl⟩, fun _ => rfl, fun _ => ⟨rfl, rfl⟩⟩

/-- A cycle in which one port has a classic access, no FIFO is full and port 4 is or is
not delivered a word. -/
def accessCycle (port : Nat) (we : Bool) (adr dat : BitVec 32) (delivers : Bool) : Cycle where
  wbRst := false
  calibDone := true
  bus i := if i.val = port then ⟨adr, dat, 0xf, we, true, true, .classic, .linear⟩ else Pins.idle
  cmdFull _ := false
  wrFull _ := false
  rdEmpty i := i.val ≠ 4 || !delivers
  order := List.finRange 5

def idleCycle : Cycle :=
  ⟨false, true, fun _ => Pins.idle, fun _ => false, fun _ => false, fun _ => true, List.finRange 5⟩

/-- Port 4 is refilled with the line at `0x100`, and port 0 writes to this address. -/
def refillThenWrite (adr : BitVec 32) : List Cycle :=
  [idleCycle, idleCycle, accessCycle 4 false 0x100 0 false, accessCycle 4 false 0x100 0 false] ++
    List.replicate 4 (accessCycle 4 false 0x100 0 true) ++
    [accessCycle 4 false 0x100 0 false, accessCycle 4 false 0x100 0 false,
      accessCycle 0 true adr 0xaaaaaaaa false, accessCycle 0 true adr 0xaaaaaaaa false]

/-- The write to the second half of the line at port 4 is not seen, because the two halves
are different lines at port 3: the read that follows has the old word. -/
theorem port4_reads_stale_word :
    ¬ ∀ run : List Cycle, Trace.Always State.recorded Faithful (afterReset, History.empty) run →
      Trace.Always State.recorded (Fresh afterReset.mig.mem) (afterReset, History.empty) run := by
  intro always
  have fresh := (always
    (refillThenWrite 0x108 ++ [accessCycle 4 false 0x108 0 false] ++
      [accessCycle 4 false 0x108 0 false]) (by decide +kernel)).last
  obtain ⟨n, atLeast, atMost, same⟩ := fresh 4 (by decide +kernel) (by decide +kernel) 0
  have one : n = 1 := Nat.le_antisymm (atMost.trans (by decide +kernel))
    (Nat.le_trans (by decide +kernel) atLeast)
  subst one
  revert same
  decide +kernel

/-- A write to the first half is seen, and the line is read again. -/
theorem fresh_of_heeded_refetch :
    Trace.Always State.recorded (fun x e => Faithful x e ∧ Heeded x.1 e)
        (afterReset, History.empty)
        (refillThenWrite 0x104 ++ List.replicate 2 (accessCycle 4 false 0x104 0 false) ++
          List.replicate 4 (accessCycle 4 false 0x104 0 true) ++
          List.replicate 2 (accessCycle 4 false 0x104 0 false)) ∧
      Trace.Always State.recorded (Fresh afterReset.mig.mem) (afterReset, History.empty)
        (refillThenWrite 0x104 ++ List.replicate 2 (accessCycle 4 false 0x104 0 false) ++
          List.replicate 4 (accessCycle 4 false 0x104 0 true) ++
          List.replicate 2 (accessCycle 4 false 0x104 0 false)) := by
  have permitted : Trace.Always State.recorded (fun x e => Faithful x e ∧ Heeded x.1 e)
      (afterReset, History.empty)
      (refillThenWrite 0x104 ++ List.replicate 2 (accessCycle 4 false 0x104 0 false) ++
        List.replicate 4 (accessCycle 4 false 0x104 0 true) ++
        List.replicate 2 (accessCycle 4 false 0x104 0 false)) := by
    decide +kernel
  exact ⟨permitted, fresh_of_heeded settled_afterReset permitted⟩

end OrpsocCores.XilinxDdr2
