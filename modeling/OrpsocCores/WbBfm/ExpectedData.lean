import OrpsocCores.Foundation.LastAssignment
import OrpsocCores.WbBfm.Transactor

/-!
# The expected data

What a burst reads back, if it goes to a word more than once, is what it wrote there last.
The transactor finds the last write of a word by counting backwards in the round of the
burst; the master goes through the addresses of `next_addr`.  The two are the same because
beats are at one word when they are whole rounds apart (`drives_eq_iff`).

The memory answers at the edges at which it is ready; nothing else is said of it but that it
keeps what is written.
-/

set_option autoImplicit false

namespace OrpsocCores.WbBfm

open Wishbone AlignedBlock LastAssignment

variable {aw : Nat}

/-! ## A memory on the bus of the master -/

/-- Numbers of words are told apart. -/
theorem ofNat_ne {j k : Nat} (small : j < 2 ^ 32) (small' : k < 2 ^ 32) (apart : j ≠ k) :
    BitVec.ofNat 32 j ≠ BitVec.ofNat 32 k := by
  intro same
  have values := congrArg BitVec.toNat same
  rw [BitVec.toNat_ofNat, BitVec.toNat_ofNat, Nat.mod_eq_of_lt small,
    Nat.mod_eq_of_lt small'] at values
  exact apart values

/-- The words of a memory. -/
abbrev Words (aw : Nat) := BitVec aw → BitVec 32

namespace Words

/-- `wb_dat_i`, as the memory answers. -/
def answer (mem : Words aw) (bus : Bus aw) : BitVec 32 := merge bus.sel (mem bus.adr) 0

/-- The memory after a beat. -/
def beat (mem : Words aw) (bus : Bus aw) : Words aw :=
  if bus.we then Function.update mem bus.adr (merge bus.sel bus.dat (mem bus.adr)) else mem

end Words

/-- An edge, at which the memory is ready for a beat or not. -/
def meet (x : Master aw × Words aw) (ready : Bool) : Master aw × Words aw :=
  let ackI := ready && x.1.out.cyc && x.1.out.stb
  (x.1.edge none ackI (x.2.answer x.1.out), if ackI then x.2.beat x.1.out else x.2)

/-- A call of a burst, and the edges behind it. -/
def exchange (op : Bool) (args : Burst aw) (ready : List Bool) (x : Master aw × Words aw) :
    Master aw × Words aw :=
  ready.foldl meet (x.1.call (.burst op args), x.2)

/-- The memory after so many beats of a write burst. -/
def Burst.writes (args : Burst aw) (mem : Words aw) : Nat → Words aw
  | 0 => mem
  | k + 1 =>
      Function.update (args.writes mem k) (args.drives k)
        (merge args.maskI (args.dataI (BitVec.ofNat 32 k)) (args.writes mem k (args.drives k)))

/-- What a read burst gets with its `k`-th beat. -/
def Burst.reads (args : Burst aw) (mem : Words aw) (k : Nat) : BitVec 32 :=
  merge args.maskI (mem (args.drives k)) 0

/-! ## What the master puts on the bus -/

/-- The master has its `k`-th beat on the bus, with its data. -/
structure Carrying (op : Bool) (args : Burst aw) (m : Master aw) (k : Nat) : Prop
    extends Driving op args m k where
  sel : m.out.sel = args.maskI
  stb : m.out.stb = true
  dat : m.out.dat = if op then args.dataI (BitVec.ofNat 32 k) else 0
  dataI : m.dataI = args.dataI

variable {op : Bool} {args : Burst aw} {m : Master aw} {k : Nat}

/-- The head of the loop gives out the arguments of the task. -/
theorem Counting.carrying (counting : Counting op args m k) (more : k < args.beats)
    (sel : m.out.sel = args.maskI) (dataI : m.dataI = args.dataI) :
    Carrying op args m.loop k := by
  have next := counting.loop_eq more
  refine ⟨counting.loop more, ?_, ?_, ?_, ?_⟩
  all_goals rw [next]
  · exact sel
  · rfl
  · show (if m.op then (if m.op then m.dataI m.index else m.data) else 0) = _
    rw [counting.sameOp, counting.index, dataI]
    split <;> rfl
  · exact dataI

theorem Master.loop_dataO (m : Master aw) : m.loop.dataO = m.dataO := by
  rw [loop]
  split <;> rfl

/-! ## A burst against the memory -/

/-- The master has `k` beats behind it, and the memory has taken them. -/
structure Reached (op : Bool) (args : Burst aw) (before : Words aw) (x : Master aw × Words aw)
    (k : Nat) : Prop where
  bound : k ≤ args.beats
  carrying : k < args.beats → Carrying op args x.1 k
  finished : k = args.beats → x.1.phase = .idle ∧ x.1.out.cyc = false
  mem : x.2 = if op then args.writes before k else before
  dataO : op = false → ∀ j < k, x.1.dataO (BitVec.ofNat 32 j) = args.reads before j

variable {before : Words aw} {x : Master aw × Words aw}

theorem reached_call (op : Bool) (positive : 0 < args.beats) (x : Master aw × Words aw) :
    Reached op args x.2 (x.1.call (.burst op args), x.2) 0 := by
  obtain ⟨m, call, counting, sel, dataI⟩ := counting_of_call op positive x.1
  constructor
  case bound => exact Nat.zero_le _
  case carrying =>
    intro more
    rw [call]
    exact counting.carrying more sel dataI
  case finished => exact fun done => absurd done (Nat.ne_of_lt positive)
  case mem => exact (ite_self x.2).symm
  case dataO => exact fun _ j less => absurd less (Nat.not_lt_zero j)

namespace Reached

/-- Nothing is asked for when the burst is over. -/
theorem meet_finished (reached : Reached op args before x args.beats) (ready : Bool) :
    meet x ready = x := by
  obtain ⟨idle, cyc⟩ := reached.finished rfl
  simp [meet, cyc, Master.edge, idle]

/-- The beat waits for the memory. -/
theorem meet_waiting (reached : Reached op args before x k) : meet x false = x := by
  rcases Nat.lt_or_eq_of_le reached.bound with more | rfl
  · simp [meet, (reached.carrying more).edge_unacked]
  · exact reached.meet_finished false

/-- The memory after the beat on the bus. -/
theorem mem_beat (reached : Reached op args before x k) (carrying : Carrying op args x.1 k) :
    x.2.beat x.1.out = if op then args.writes before (k + 1) else before := by
  rw [Words.beat, carrying.we, carrying.adr, carrying.sel, carrying.dat, reached.mem]
  split
  case isTrue => rfl
  case isFalse => rfl

/-- The beat on the bus is taken. -/
theorem meet_ready (reached : Reached op args before x k) (more : k < args.beats) :
    Reached op args before (meet x true) (k + 1) := by
  have carrying := reached.carrying more
  let datI := x.2.answer x.1.out
  have counting : Counting op args (x.1.beat datI) (k + 1) := carrying.beat datI
  have met : meet x true = ((x.1.beat datI).loop, x.2.beat x.1.out) := by
    simp [meet, carrying.cyc, carrying.stb, carrying.edge_acked, datI]
  rw [met]
  constructor
  case bound => exact more
  case carrying => exact fun further => counting.carrying further carrying.sel carrying.dataI
  case finished =>
    intro last
    rw [last] at counting
    exact counting.loop_end
  case mem => exact reached.mem_beat carrying
  case dataO =>
    intro reading j less
    have small : args.beats < 2 ^ 32 := args.burstLengthI.isLt
    show (x.1.beat datI).loop.dataO _ = _
    rw [Master.loop_dataO]
    show (if x.1.op then x.1.dataO else Function.update x.1.dataO x.1.index datI) _ = _
    rw [carrying.sameOp, carrying.index, reading, if_neg Bool.false_ne_true]
    rcases Nat.lt_or_eq_of_le (Nat.le_of_lt_succ less) with earlier | rfl
    · rw [Function.update_of_ne (ofNat_ne (by omega) (by omega) (Nat.ne_of_lt earlier))]
      exact reached.dataO reading j earlier
    · rw [Function.update_self]
      show merge x.1.out.sel (x.2 x.1.out.adr) 0 = _
      rw [carrying.sel, carrying.adr, reached.mem, reading]
      rfl

/-- **Each edge at which the memory is ready takes a beat, up to the last one.** -/
theorem run (reached : Reached op args before x k) (ready : List Bool) :
    Reached op args before (ready.foldl meet x) (min (k + ready.count true) args.beats) := by
  induction ready generalizing x k with
  | nil =>
      rw [List.count_nil, Nat.add_zero, Nat.min_eq_left reached.bound]
      exact reached
  | cons now later ih =>
      rw [List.foldl_cons]
      cases now with
      | false =>
          rw [reached.meet_waiting, List.count_cons_of_ne Bool.false_ne_true]
          exact ih reached
      | true =>
          rw [List.count_cons_self]
          rcases Nat.lt_or_eq_of_le reached.bound with more | rfl
          · have after := ih (reached.meet_ready more)
            rwa [Nat.add_right_comm] at after
          · have after := ih reached
            rw [reached.meet_finished]
            rwa [Nat.min_eq_right (Nat.le_add_right _ _)] at after ⊢

end Reached

/-- The whole of a burst. -/
theorem reached_exchange (op : Bool) (positive : 0 < args.beats) (x : Master aw × Words aw)
    {ready : List Bool} (enough : args.beats ≤ ready.count true) :
    Reached op args x.2 (exchange op args ready x) args.beats := by
  have after := (reached_call op positive x).run ready
  rwa [Nat.zero_add, Nat.min_eq_right enough] at after

/-! ## What is written last -/

/-- With all lanes selected the memory is filled round by round. -/
theorem writes_eq_fill (full : args.maskI = 0xf) (mem : Words aw) (k : Nat) :
    args.writes mem k =
      fill args.drives (fun j => args.dataI (BitVec.ofNat 32 j)) mem k := by
  induction k with
  | zero => rfl
  | succ k ih => rw [Burst.writes, fill, ih, full, merge_full]

/-- What a burst reads that has been written before. -/
theorem reads_writes (wide : 6 ≤ aw) (aligned : args.addrI.toNat % 4 = 0)
    (full : args.maskI = 0xf) (mem : Words aw) (inside : k < args.beats) :
    args.reads (args.writes mem args.beats) k =
      args.dataI (BitVec.ofNat 32
        (lastRound (args.burstTypeI.blockWords aw) args.beats k)) := by
  rw [Burst.reads, full, merge_full, writes_eq_fill full]
  exact fill_eq BurstType.blockWords_pos (fun j _ k _ => drives_eq_iff wide aligned j k)
    (Nat.le_refl _) inside

/-! ## What the transactor expects -/

/-- `tmp` with so many words to go. -/
def tmpAt (burstLength wrap words : Nat) : Int :=
  burstLength - 1 - ((burstLength - words) % wrap : Nat)

/-- `tmp` counts backwards, round by round. -/
theorem tmpAt_step {burstLength wrap word : Nat} (positive : 0 < wrap)
    (inside : word < burstLength) :
    (if tmpAt burstLength wrap (word + 1) - 1 < burstLength - wrap then (burstLength : Int) - 1
      else tmpAt burstLength wrap (word + 1) - 1) = tmpAt burstLength wrap word := by
  have back : burstLength - word = burstLength - (word + 1) + 1 := by omega
  have small := Nat.mod_lt (burstLength - (word + 1)) positive
  rw [tmpAt, tmpAt, back, mod_succ positive]
  split <;> split <;> omega

/-- **The loop finds the last write of each word.** -/
theorem expectedLoop_eq {burstLength wrap : Nat} (positive : 0 < wrap)
    (small : burstLength < 2 ^ 32) (writeData expected : BitVec 32 → BitVec 32) {words : Nat}
    (toGo : words ≤ burstLength) {k : Nat} (inside : k < burstLength) :
    expectedLoop writeData burstLength wrap words (tmpAt burstLength wrap words) expected
        (BitVec.ofNat 32 k) =
      if k < words then writeData (BitVec.ofNat 32 (lastRound wrap burstLength k))
      else expected (BitVec.ofNat 32 k) := by
  induction words generalizing expected with
  | zero => rw [if_neg (Nat.not_lt_zero k), expectedLoop]
  | succ word ih =>
      have place : tmpAt burstLength wrap (word + 1) = lastRound wrap burstLength word := by
        rw [tmpAt, lastRound]
        have less := Nat.mod_le (burstLength - (word + 1)) wrap
        rw [Nat.sub_sub burstLength 1 word, Nat.add_comm 1 word]
        omega
      simp only [expectedLoop]
      rw [tmpAt_step positive toGo, ih _ (Nat.le_of_succ_le toGo), place, BitVec.ofInt_natCast,
        BitVec.ofInt_natCast]
      rcases Nat.lt_trichotomy k word with before | rfl | behind
      · rw [if_pos before, if_pos (by omega)]
      · rw [if_neg (Nat.lt_irrefl k), if_pos (Nat.lt_succ_self k), Function.update_self]
      · rw [if_neg (by omega), if_neg (by omega),
          Function.update_of_ne (ofNat_ne (by omega) (by omega) (by omega))]

/-- `burst_wrap` is the length of a round, or the rounds do not come to an end. -/
theorem burstWrap_eq {burstLength : Nat} (wide : 32 ≤ aw) (some : 0 < burstLength)
    (short : burstLength < 2 ^ 30) (burstType : BurstType) :
    ∃ wrap : Nat, burstWrap burstLength burstType = wrap ∧ 0 < wrap ∧
      ∀ k < burstLength, lastRound wrap burstLength k =
        lastRound (burstType.blockWords aw) burstLength k := by
  cases burstType with
  | linear =>
      refine ⟨burstLength, rfl, some, fun k inside => ?_⟩
      have space : 2 ^ 30 ≤ 2 ^ (aw - 2) := Nat.pow_le_pow_right (by decide) (by omega)
      show _ = lastRound (2 ^ (aw - 2)) burstLength k
      rw [lastRound, lastRound, Nat.mod_eq_of_lt (by omega), Nat.mod_eq_of_lt (by omega)]
  | wrap4 => exact ⟨4, rfl, by decide, fun _ _ => rfl⟩
  | wrap8 => exact ⟨8, rfl, by decide, fun _ _ => rfl⟩
  | wrap16 => exact ⟨16, rfl, by decide, fun _ _ => rfl⟩
  | constant => exact ⟨1, rfl, by decide, fun _ _ => rfl⟩

/-- `expected_data`. -/
theorem expectedData_eq {burstLength : BitVec 32} (wide : 32 ≤ aw)
    (some : 0 < burstLength.toNat) (short : burstLength.toNat < 2 ^ 30) (burstType : BurstType)
    (writeData before : BitVec 32 → BitVec 32) {k : Nat} (inside : k < burstLength.toNat) :
    expectedData burstLength burstType writeData before (BitVec.ofNat 32 k) =
      writeData (BitVec.ofNat 32
        (lastRound (burstType.blockWords aw) burstLength.toNat k)) := by
  obtain ⟨wrap, sameWrap, positive, same⟩ := burstWrap_eq wide some short burstType
  have length : burstLength.toInt = burstLength.toNat := by
    rw [BitVec.toInt_eq_toNat_of_lt (by omega)]
  have start : (burstLength.toNat : Int) - 1 = tmpAt burstLength.toNat wrap burstLength.toNat := by
    rw [tmpAt, Nat.sub_self, Nat.zero_mod]
    exact (Int.sub_zero _).symm
  rw [expectedData, length, sameWrap, start,
    expectedLoop_eq positive (by omega) writeData before (Nat.le_refl _) inside, if_pos inside,
    same k inside]

/-- **A transaction reads what it expects.** -/
theorem dataO_eq_expectedData (wide : 32 ≤ aw) {maxBurstLen : Nat} (bounded : maxBurstLen < 2 ^ 30)
    {address : BitVec aw} (aligned : address.toNat % 4 = 0) {burstLength : BitVec 32}
    (some : 1 ≤ burstLength.toNat) (fits : burstLength.toNat ≤ maxBurstLen)
    (burstType : BurstType) (writeData before : BitVec 32 → BitVec 32)
    (x : Master aw × Words aw) {writeReady readReady : List Bool}
    (written : burstLength.toNat ≤ writeReady.count true)
    (read : burstLength.toNat ≤ readReady.count true) {word : Nat}
    (inside : word < burstLength.toNat) :
    let args := transaction address writeData burstLength burstType
    let x := exchange false args readReady (exchange true args writeReady x)
    x.1.phase = .idle ∧
      x.1.dataO (BitVec.ofNat 32 word) =
        expectedData burstLength burstType writeData before (BitVec.ofNat 32 word) := by
  intro args
  have positive : 0 < args.beats := some
  have afterWrite := reached_exchange true positive x written
  have afterRead := reached_exchange false positive (exchange true args writeReady x) read
  have mem : (exchange true args writeReady x).2 = args.writes x.2 args.beats := afterWrite.mem
  refine ⟨(afterRead.finished rfl).1, ?_⟩
  rw [afterRead.dataO rfl word inside, mem, reads_writes (by omega) aligned rfl x.2 inside,
    expectedData_eq wide some (by omega) burstType writeData before inside]
  rfl

/-- Six words round a block of four, with a memory that is not always ready. -/
theorem dataO_eq_expectedData_six :
    let args := transaction (0x108 : BitVec 32) (fun word => word) 6 .wrap4
    let ready := [true, false, true, true, true, false, true, true]
    let x := exchange false args ready (exchange true args ready (atRest.master, fun _ => 0))
    x.1.phase = .idle ∧
      x.1.dataO 1 = expectedData 6 .wrap4 (fun word => word) (fun _ => 0) 1 :=
  dataO_eq_expectedData (by decide) (by decide : 6 < 2 ^ 30) (by decide) (by decide) (by decide)
    .wrap4 (fun word => word) (fun _ => 0) (atRest.master, fun _ => 0) (by decide) (by decide)
    (by decide)

end OrpsocCores.WbBfm
