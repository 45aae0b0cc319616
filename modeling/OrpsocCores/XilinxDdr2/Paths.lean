import OrpsocCores.XilinxDdr2.Observation

/-!
# The way of a write and of a refill

A write is pushed into the FIFO of its port in one cycle and commanded, and acknowledged,
in the next; the memory controller executes exactly the writes that are acknowledged
(`memAfter_eq`).  A refill takes the words it has asked for, one by one, and does nothing
else to the buffer (`Refill`).  Neither depends on the marks.
-/

set_option autoImplicit false

namespace OrpsocCores.XilinxDdr2

open Wishbone

variable {p : Params}

/-! ## The write path -/

section

variable {s : State p} {h : History} {e : Cycle} {i j : Fin 5}

/-- A write is in the FIFO of its port while the port acknowledges it, and what is
acknowledged as a read is not taken for a write. -/
structure WritePath (s : State p) (h : History) (i : Fin 5) : Prop where
  inFlight : (s.ports i).wbAckWrite = true → ∃ access ∈ h.pending i, access.1.writes = true ∧
    s.mig.wrFifo i = [(access.1.dat, ~~~access.1.sel)] ∧ (s.ports i).wbReqR = true ∧
      writable i = true
  empty : (s.ports i).wbAckWrite = false → s.mig.wrFifo i = []
  read : (s.ports i).wbAckRead = true → ∀ access ∈ h.pending i, access.1.we = false
  burst : (s.ports i).wbAckRead = true → h.pending i = none → h.burst i = true

theorem WritePath.of_ackWrite (path : WritePath s h i) (faithful : Faithful (s, h) e)
    (acks : (s.ports i).wbAckWrite = true) :
    (e.bus i).writes = true ∧ s.mig.wrFifo i = [((e.bus i).dat, ~~~(e.bus i).sel)] ∧
      (s.ports i).wbReqR = true ∧ writable i = true := by
  obtain ⟨access, pending, found⟩ := path.inFlight acks
  rw [faithful.holds i access pending]
  exact found

theorem WritePath.of_ackRead (path : WritePath s h i) (faithful : Faithful (s, h) e)
    (acks : (s.ports i).wbAckRead = true) : (e.bus i).writes = false := by
  cases pending : h.pending i with
  | none => exact faithful.bursts i (path.burst acks pending)
  | some access =>
      rw [faithful.holds i access pending, Pins.writes, path.read acks access pending,
        Bool.and_false]

/-- A write that is presented is acknowledged by its own acknowledge only. -/
theorem WritePath.ackedWrite_eq (path : WritePath s h i) (faithful : Faithful (s, h) e) :
    s.ackedWrite e i = if (s.ports i).wbAckWrite then some (writeOf (e.bus i)) else none := by
  unfold State.ackedWrite
  by_cases acks : (s.ports i).wbAckWrite = true
  · rw [(path.of_ackWrite faithful acks).1, State.wbAckO, Userport.wbAckO, acks]
    rfl
  · rw [if_neg acks]
    by_cases writes : (e.bus i).writes = true
    · have silent : (s.ports i).wbAckRead = false := by
        rw [← Bool.not_eq_true]
        intro reads
        exact absurd (path.of_ackRead faithful reads) (by simp [writes])
      simp [State.wbAckO, Userport.wbAckO, acks, silent]
    · simp [writes]

/-- The command of a write that is acknowledged. -/
theorem WritePath.command_eq (path : WritePath s h i) (faithful : Faithful (s, h) e)
    (acks : (s.ports i).wbAckWrite = true) :
    s.command e i = some ⟨false, (e.bus i).adr.toNat % 2 ^ 30 / 4 * 4, 0⟩ := by
  obtain ⟨writes, -, -, writable⟩ := path.of_ackWrite faithful acks
  have we : (e.bus i).we = true := (Bool.and_eq_true_iff.mp writes).2
  simp [State.command, Userport.command, acks, we, directed_write writable]

/-- A port that does not acknowledge a write commands none. -/
theorem read_of_command (silent : (s.ports i).wbAckWrite = false) {command : Command}
    (given : s.command e i = some command) : command.read = true := by
  have own : (s.ports i).command (e.bus i) = some command := (Option.filter_eq_some_iff.mp given).1
  simp only [Userport.command, silent] at own
  split at own
  · obtain rfl := Option.some.inj own
    rfl
  · cases own

/-- What ports 3 and 4 write is lost. -/
theorem write_of_not_writable (readOnly : writable i = false) (mem : Nat → Word) :
    s.mig.write (s.command e) mem i = mem := by
  have reads : ∀ j : Fin 5, writable j = false → ∀ we, directed j we false = false := by decide
  unfold Mig.write
  split
  · next given _ =>
      have directed := (Option.filter_eq_some_iff.mp given).2
      rw [reads i readOnly] at directed
      cases directed
  · rfl

/-- The memory controller executes what is acknowledged. -/
theorem WritePath.write_eq (path : WritePath s h i) (faithful : Faithful (s, h) e)
    (mem : Nat → Word) :
    s.mig.write (s.command e) mem i = ((s.ackedWrite e i).map (Write.apply mem)).getD mem := by
  rw [path.ackedWrite_eq faithful]
  by_cases acks : (s.ports i).wbAckWrite = true
  · have fifo := (path.of_ackWrite faithful acks).2.1
    simp [Mig.write, path.command_eq faithful acks, acks, fifo, Write.apply, writeOf, wordAdr]
  · rw [if_neg acks, Option.map_none, Option.getD_none]
    unfold Mig.write
    split
    · next given _ => exact absurd (read_of_command (Bool.not_eq_true _ ▸ acks) given) (by simp)
    · rfl

/-- The memory after the commands of some ports. -/
theorem memAfter_eq (paths : ∀ i, WritePath s h i) (faithful : Faithful (s, h) e)
    (ports : List (Fin 5)) :
    s.mig.memAfter (s.command e) ports = contents s.mig.mem (ports.filterMap (s.ackedWrite e)) := by
  rw [Mig.memAfter, contents, List.foldl_filterMap]
  congr 1
  funext mem j
  rw [(paths j).write_eq faithful]
  cases s.ackedWrite e j with
  | none => rfl
  | some x => rfl

/-- A pushed write is presented, and its port does not acknowledge anything. -/
theorem WritePath.of_wrEn (path : WritePath s h i) (faithful : Faithful (s, h) e)
    (pushes : s.wrEn e i = true) :
    (e.bus i).writes = true ∧ Userport.wbReq (s.pins e i) = true ∧
      (s.ports i).wbAckWrite = false ∧ (s.ports i).wbAckRead = false := by
  have we : (e.bus i).we = true := by
    rw [← Bool.not_eq_false]
    intro reads
    simp [State.wrEn, Userport.wrEn, State.pins, reads] at pushes
  have new : Userport.wbReq (s.pins e i) = true ∧ (s.ports i).wbReqR = false := by
    simpa [State.wrEn, Userport.wrEn, Userport.wbReqNew, State.pins, we] using pushes
  have writes : (e.bus i).writes = true := by
    have presented := new.1
    simp only [Userport.wbReq, State.pins, Bool.and_eq_true] at presented
    simp [Pins.writes, we, presented]
  refine ⟨writes, new.1, ?_, ?_⟩
  · rw [← Bool.not_eq_true]
    intro acks
    exact absurd (path.of_ackWrite faithful acks).2.2.1 (by simp [new.2])
  · rw [← Bool.not_eq_true]
    intro acks
    exact absurd (path.of_ackRead faithful acks) (by simp [writes])

/-- A read request is a read that is presented. -/
theorem presented_of_wbReadReq (reads : (s.ports i).wbReadReq (p.wbBursting i) (s.pins e i) = true) :
    (e.bus i).valid = true ∧ (e.bus i).we = false ∧
      ((s.ports i).wbAckRead = true → (e.bus i).cti = .incBurst) := by
  simp only [Userport.wbReadReq, Userport.wbReq, State.pins, Bool.and_eq_true, Bool.or_eq_true,
    Bool.not_eq_true', beq_iff_eq] at reads
  obtain ⟨⟨⟨⟨⟨⟨stb, cyc⟩, -⟩, -⟩, -⟩, we⟩, last⟩ := reads
  refine ⟨by simp [Pins.valid, stb, cyc], we, ?_⟩
  intro acks
  rcases last with silent | burst
  · exact absurd silent (by simp [acks])
  · exact burst.1

theorem pending_record {access : Bus × Nat} (pending : access ∈ (s.record e h).pending i) :
    access.1 = e.bus i ∧ access.2 = h.before i := by
  simp only [State.record] at pending
  split at pending
  · obtain rfl := Option.some.inj pending
    exact ⟨rfl, rfl⟩
  · cases pending

theorem unwritten_of_not_write (silent : (s.ports i).wbAckWrite = false) :
    s.mig.unwritten (s.command e) i = s.mig.wrFifo i := by
  unfold Mig.unwritten
  split
  · next given => exact absurd (read_of_command silent given) (by simp)
  · rfl

theorem WritePath.unwritten_eq (path : WritePath s h i) (faithful : Faithful (s, h) e) :
    s.mig.unwritten (s.command e) i = [] := by
  by_cases acks : (s.ports i).wbAckWrite = true
  · have fifo := (path.of_ackWrite faithful acks).2.1
    simp [Mig.unwritten, path.command_eq faithful acks, fifo]
  · rw [Bool.not_eq_true] at acks
    rw [unwritten_of_not_write acks, path.empty acks]

theorem WritePath.step (path : WritePath s h i) (faithful : Faithful (s, h) e)
    (writable : s.wrEn e i = true → writable i = true) :
    WritePath (s.step e) (s.record e h) i where
  inFlight pushes := by
    obtain ⟨writes, request, silent, silentRead⟩ := path.of_wrEn faithful pushes
    have unacked : s.wbAckO i = false := by
      rw [State.wbAckO, Userport.wbAckO, silent, silentRead]
      rfl
    refine ⟨(e.bus i, h.before i), ?_, writes, ?_, ?_, writable pushes⟩
    · have valid : (e.bus i).valid = true := (Bool.and_eq_true_iff.mp writes).1
      simp [State.record, valid, unacked]
    · have pushed : s.pushed e i = some ((e.bus i).dat, ~~~(e.bus i).sel) :=
        if_pos (Bool.and_eq_true_iff.mpr ⟨writable pushes, pushes⟩)
      simp [State.step, Mig.step, path.unwritten_eq faithful, pushed]
    · have request' : (Userport.wbReq (s.pins e i) && !(s.ports i).wbAckO) = true := by
        rw [request, show (s.ports i).wbAckO = false from unacked]
        rfl
      exact request'
  empty silent := by
    have pushed : s.pushed e i = none := if_neg fun pushes =>
      absurd (Bool.and_eq_true_iff.mp pushes).2 (ne_true_of_eq_false silent)
    simp [State.step, Mig.step, path.unwritten_eq faithful, pushed]
  read acks access pending := by
    have request : (s.ports i).wbReadReq (p.wbBursting i) (s.pins e i) = true :=
      (Bool.and_eq_true_iff.mp acks).1
    rw [(pending_record pending).1]
    exact (presented_of_wbReadReq request).2.1
  burst acks nothing := by
    have request : (s.ports i).wbReadReq (p.wbBursting i) (s.pins e i) = true :=
      (Bool.and_eq_true_iff.mp acks).1
    obtain ⟨valid, we, last⟩ := presented_of_wbReadReq request
    have acked : s.wbAckO i = true := by
      rw [← Bool.not_eq_false]
      intro unacked
      simp [State.record, valid, unacked] at nothing
    have read : (s.ports i).wbAckRead = true := by
      rcases Bool.or_eq_true_iff.mp acked with write | read
      · have writes := (path.of_ackWrite faithful write).1
        simp [Pins.writes, we] at writes
      · exact read
    have reads : (e.bus i).reads = true := by
      rw [Pins.reads, we]
      simpa [Pins.valid] using valid
    simp [State.record, reads, acked, last read]

end

/-! ## The refills -/

/-- The words of a refill: one more than the six bits of the length say. -/
def burstWords (w : Nat) : Nat := (2 ^ w - 1) % 64 + 1

theorem burstWords_le (w : Nat) : burstWords w ≤ 2 ^ w := by
  have positive := Nat.two_pow_pos w
  have bound := Nat.mod_le (2 ^ w - 1) 64
  unfold burstWords
  omega

theorem toNat_succ {w : Nat} {cnt : BitVec w} (different : cnt ≠ BitVec.allOnes w) :
    (cnt + 1).toNat = cnt.toNat + 1 := by
  have bound := cnt.isLt
  have last : cnt.toNat ≠ 2 ^ w - 1 := by
    intro same
    apply different
    apply BitVec.eq_of_toNat_eq
    rw [same, BitVec.toNat_allOnes]
  have one : (1 : BitVec w).toNat = 1 % 2 ^ w := BitVec.toNat_ofNat 1 w
  rw [BitVec.toNat_add, one, Nat.add_mod_mod]
  exact Nat.mod_eq_of_lt (by omega)

section

variable {s : State p} {h : History} {e : Cycle} {i : Fin 5}

/-- A refill takes the words it has asked for.  It gets none where port 2 has asked its other
user port. -/
structure ReadPath (s : State p) (i : Fin 5) : Prop where
  start : (s.ports i).burstStart = true →
    (s.ports i).bursting = false ∧ (s.ports i).wbAckWrite = false
  empty : (s.ports i).bursting = false → s.mig.rdFifo i = []
  count : (s.ports i).bursting = true →
    (s.ports i).burstCnt.toNat + (s.mig.rdFifo i).length ≤ burstWords (p.width i)

/-- What a port fetches in a cycle. -/
theorem fetched_of_not_start (silent : (s.ports i).burstStart = false) :
    s.mig.fetched (s.command e) e.order i = [] := by
  by_cases acks : (s.ports i).wbAckWrite = true
  · unfold Mig.fetched
    split
    · next given =>
        have own := (Option.filter_eq_some_iff.mp given).1
        simp [Userport.command, silent, acks] at own
    · rfl
  · simp [Mig.fetched, State.command, Userport.command, silent, acks]

theorem ReadPath.fetched_of_start (path : ReadPath s i)
    (starts : (s.ports i).burstStart = true) :
    s.mig.fetched (s.command e) e.order i =
      if directed i (e.bus i).we true then
        (List.range (burstWords (p.width i))).map fun k =>
          s.mig.memAfter (s.command e) (e.order.takeWhile fun j => j ≠ i)
            (base (p.width i) (lineOf (p.width i) (e.bus i).adr) + k)
      else [] := by
  rw [← commandWord_eq (p.legal i)]
  have own : (s.ports i).command (e.bus i) =
      some ⟨true, (e.bus i).adr.toNat % 2 ^ 30 / 2 ^ (p.width i + 2) * 2 ^ (p.width i + 2),
        (2 ^ p.width i - 1) % 64⟩ := by
    simp [Userport.command, starts, (path.start starts).2]
  split
  case isTrue reads =>
    simp only [Mig.fetched, State.command, own, Option.filter_some, reads, if_true, burstWords]
  case isFalse lost =>
    simp only [Mig.fetched, State.command, own, Option.filter_some, if_neg lost]

/-- The three things a cycle can do to the buffer of a port: start a refill, take a word,
or nothing. -/
inductive Refill (s : State p) (e : Cycle) (i : Fin 5) : Prop
  | starts (start : (s.ports i).burstStart = true)
      (ports : ((s.step e).ports i).bursting = true ∧ ((s.step e).ports i).burstCnt = 0 ∧
        ((s.step e).ports i).burstAddr = lineOf (p.width i) (e.bus i).adr)
      (fifo : (s.step e).mig.rdFifo i = s.mig.fetched (s.command e) e.order i)
  | takes (word : Word) (rest : List Word) (start : (s.ports i).burstStart = false)
      (before : (s.ports i).bursting = true ∧ s.mig.rdFifo i = word :: rest)
      (ports : ((s.step e).ports i).burstDataBuf =
          Function.update (s.ports i).burstDataBuf (s.ports i).burstCnt word ∧
        ((s.step e).ports i).burstCnt = (s.ports i).burstCnt + 1 ∧
        ((s.step e).ports i).bursting = ((s.ports i).burstCnt != BitVec.allOnes _) ∧
        ((s.step e).ports i).burstAddr = (s.ports i).burstAddr)
      (fifo : (s.step e).mig.rdFifo i = rest)
  | rests (start : (s.ports i).burstStart = false)
      (ports : ((s.step e).ports i).burstDataBuf = (s.ports i).burstDataBuf ∧
        ((s.step e).ports i).burstCnt = (s.ports i).burstCnt ∧
        ((s.step e).ports i).bursting = (s.ports i).bursting ∧
        ((s.step e).ports i).burstAddr = (s.ports i).burstAddr)
      (fifo : (s.step e).mig.rdFifo i = s.mig.rdFifo i)

theorem ReadPath.refill (path : ReadPath s i) (faithful : Faithful (s, h) e) : Refill s e i := by
  have running : (s.pins e i).wbRst = false := faithful.running
  have ports : ∀ {u : Userport (p.width i)}, (s.ports i).refill (s.pins e i) = u →
      ((s.step e).ports i).burstDataBuf = u.burstDataBuf ∧
      ((s.step e).ports i).burstCnt = u.burstCnt ∧ ((s.step e).ports i).bursting = u.bursting ∧
      ((s.step e).ports i).burstAddr = u.burstAddr := by
    rintro u rfl
    exact ⟨rfl, rfl, rfl, rfl⟩
  have fifo : (s.step e).mig.rdFifo i =
      (if e.rdEmpty i then s.mig.rdFifo i else (s.mig.rdFifo i).tail) ++
        s.mig.fetched (s.command e) e.order i := rfl
  by_cases starts : (s.ports i).burstStart = true
  · obtain ⟨idle, -⟩ := path.start starts
    have nothing := path.empty idle
    have after := ports (Userport.refill_of_start running starts idle)
    refine .starts starts ⟨after.2.2.1, after.2.1, after.2.2.2⟩ ?_
    rw [fifo, faithful.returned i nothing, nothing]
    rfl
  · rw [Bool.not_eq_true] at starts
    rw [fetched_of_not_start starts, List.append_nil] at fifo
    cases delivered : e.rdEmpty i with
    | true =>
        refine .rests starts (ports (Userport.refill_of_none running starts delivered)) ?_
        rw [fifo, delivered, if_pos rfl]
    | false =>
        cases words : s.mig.rdFifo i with
        | nil => exact absurd (faithful.returned i words) (by simp [delivered])
        | cons word rest =>
            have bursting : (s.ports i).bursting = true := by
              rw [← Bool.not_eq_false]
              intro idle
              exact absurd (path.empty idle) (by simp [words])
            have data : (s.pins e i).rdData = word := by simp [State.pins, words]
            have after := ports (Userport.refill_of_word running starts delivered)
            rw [data, bursting, Bool.true_and] at after
            refine .takes word rest starts ⟨bursting, words⟩ after ?_
            rw [fifo, delivered, words]
            rfl

/-- A port that is refilled does not start another refill. -/
theorem burstStart_step (busy : (s.ports i).bursting = true ∨ (s.ports i).burstStart = true) :
    ((s.step e).ports i).burstStart = false := by
  have idle : (!(s.ports i).bursting && !(s.ports i).burstStart) = false := by
    rcases busy with busy | busy
    · simp [busy]
    · simp [busy]
  have start : ((s.step e).ports i).burstStart =
      ((s.ports i).wbReadReq (p.wbBursting i) (s.pins e i) && !(s.ports i).served (e.bus i) &&
        (!(s.ports i).bursting && !(s.ports i).burstStart)) := rfl
  rw [start, idle, Bool.and_false]

theorem ReadPath.step (path : ReadPath s i) (faithful : Faithful (s, h) e) :
    ReadPath (s.step e) i := by
  have words := burstWords_le (p.width i)
  have noWrite : ((s.step e).ports i).burstStart = true →
      ((s.step e).ports i).wbAckWrite = false := by
    intro starts
    have request : (s.ports i).wbReadReq (p.wbBursting i) (s.pins e i) = true :=
      (Bool.and_eq_true_iff.mp (Bool.and_eq_true_iff.mp starts).1).1
    have we := (presented_of_wbReadReq request).2.1
    show (s.ports i).wrEn (s.pins e i) = false
    simp [Userport.wrEn, State.pins, we]
  cases path.refill faithful with
  | starts start ports fifo =>
      have settled := burstStart_step (e := e) (.inr start)
      refine ⟨fun again => absurd settled (by simp [again]), ?_, ?_⟩
      · intro idle
        exact absurd ports.1 (by simp [idle])
      · intro _
        rw [ports.2.1, fifo, path.fetched_of_start start]
        split <;> simp
  | takes word rest start before ports fifo =>
      obtain ⟨-, count, bursting, -⟩ := ports
      have settled := burstStart_step (e := e) (.inl before.1)
      have left := path.count before.1
      rw [before.2, List.length_cons] at left
      refine ⟨fun again => absurd settled (by simp [again]), ?_, ?_⟩
      · intro idle
        rw [bursting, bne_eq_false_iff_eq] at idle
        rw [idle, BitVec.toNat_allOnes] at left
        rw [fifo, ← List.length_eq_zero_iff]
        omega
      · intro goesOn
        rw [bursting, bne_iff_ne] at goesOn
        rw [count, fifo, toNat_succ goesOn]
        omega
  | rests start ports fifo =>
      obtain ⟨-, count, bursting, -⟩ := ports
      refine ⟨?_, ?_, ?_⟩
      · intro starts
        refine ⟨?_, noWrite starts⟩
        rw [bursting, ← Bool.not_eq_true]
        intro busy
        exact absurd (burstStart_step (e := e) (.inl busy)) (by simp [starts])
      · rw [bursting, fifo]
        exact path.empty
      · rw [bursting, count, fifo]
        exact path.count

end

end OrpsocCores.XilinxDdr2
