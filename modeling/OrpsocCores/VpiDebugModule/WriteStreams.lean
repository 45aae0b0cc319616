import OrpsocCores.VpiDebugModule.Commands

/-!
# The write streams

A write on the link is meant to carry the words of `data_storage` one after the other,
each most significant bit first, and as many bits as the length says.  The Wishbone task
does that.  The processor task fetches the word before it advances the pointer, so that
the first bit of every word but the first is the first bit of the word before it.  The
check covers what is shifted, so that it is right in both.  The two streams are the same,
and right, exactly when neighbouring words that are both sent begin with the same bit
(`write_streams_iff`).
-/

set_option autoImplicit false

namespace OrpsocCores.VpiDebugModule

open Crc JpVpi TapController

variable {env : Surroundings}

/-! ## The streams -/

/-- The words of the storage one after the other, most significant bit first, cut at so
many bits. -/
def wordStream (env : Surroundings) (storage : Storage) (n : Nat) : List Bool :=
  ((List.range n).flatMap fun k => msbFirst (fetch env storage k)).take n

theorem wordStream_eq (storage : Storage) (n : Nat) :
    wordStream env storage n = storageBits env storage (fun i => i / 32) n := by
  have short : min n (n * 32) = n := by omega
  rw [wordStream, flatMap_msbFirst, ← List.map_take, List.take_range, short, storageBits]
  apply List.map_congr_left
  intro i _
  have inside : i % 32 < 32 := Nat.mod_lt i (by decide)
  rw [BitVec.getMsbD_eq_getLsbD, decide_eq_true inside, Bool.true_and]

/-- Bits of words, each most significant first, where the first bit of a word is taken from
the word before it. -/
theorem late_iff (word : Nat → Word) (n : Nat) :
    ((List.range n).map fun i => (word ((i - 1) / 32)).getLsbD (31 - i % 32)) =
        (List.range n).map (fun i => (word (i / 32)).getLsbD (31 - i % 32)) ↔
      ∀ k, 32 * (k + 1) < n → (word k).getLsbD 31 = (word (k + 1)).getLsbD 31 := by
  rw [List.map_inj_left]
  constructor
  · intro same k sent
    have bit := same (32 * (k + 1)) (List.mem_range.mpr sent)
    have late : (32 * (k + 1) - 1) / 32 = k := by omega
    have due : 32 * (k + 1) / 32 = k + 1 := by omega
    have first : 31 - 32 * (k + 1) % 32 = 31 := by omega
    rwa [late, due, first] at bit
  · intro same i sent
    rw [List.mem_range] at sent
    by_cases first : i % 32 = 0 ∧ 0 < i
    · -- The first bit of a word is taken from the word before it.
      have place : 32 * ((i - 1) / 32 + 1) = i := by omega
      have due : i / 32 = (i - 1) / 32 + 1 := by omega
      rw [due, first.1]
      exact same _ (by omega)
    · have due : (i - 1) / 32 = i / 32 := by omega
      rw [due]

/-- **When the fetch before the advance does not show.** -/
theorem storageBits_late_iff (storage : Storage) (n : Nat) :
    storageBits env storage (fun i => (i - 1) / 32) n =
        storageBits env storage (fun i => i / 32) n ↔
      ∀ k, 32 * (k + 1) < n →
        (fetch env storage k).getLsbD 31 = (fetch env storage (k + 1)).getLsbD 31 :=
  late_iff (fetch env storage) n

/-! ## What is shifted -/

/-- The bits that an idle controller is shifted by a task. -/
def shifted (l l' : Link) : List (Option Bool) := (l.since l').dr

/-- The data bits of a frame whose header is the select bit and a command. -/
def dataBits (bits : List (Option Bool)) (n : Nat) : List (Option Bool) := (bits.drop 5).take n

/-- The 32 bits that follow so many data bits. -/
def checkOf (bits : List (Option Bool)) (n : Nat) : List (Option Bool) :=
  (bits.drop (5 + n)).take 32

/-- The check of all that has been shifted since the frame began, up to so many data
bits. -/
def checkDue (bits : List (Option Bool)) (n : Nat) : List (Option Bool) :=
  (msbFirst (((bits.take (5 + n)).reduceOption).foldl calculateCrc (BitVec.allOnes 32))).map some

theorem reduceOption_map_some (bits : List Bool) : (bits.map some).reduceOption = bits := by
  change (bits.map some).filterMap id = bits
  rw [List.filterMap_map]
  exact List.filterMap_some

/-- The parts of a frame with data. -/
theorem frame_parts (command : BitVec 4) (payload : List Bool) {n m : Nat}
    (long : payload.length = n) {bits : List (Option Bool)}
    (made : bits = frame false ([false] ++ msbFirst command ++ payload) ++
      List.replicate m none) :
    dataBits bits n = payload.map some ∧ checkOf bits n = checkDue bits n := by
  let sent := [false] ++ msbFirst command ++ payload
  let check := msbFirst (sent.foldl calculateCrc (BitVec.allOnes 32))
  have header : (([false] ++ msbFirst command).map some).length = 5 := by
    rw [List.length_map, List.length_append, length_msbFirst, List.length_singleton]
  have whole : (sent.map some).length = 5 + n := by
    rw [List.map_append, List.length_append, header, List.length_map, long]
  have split : bits = sent.map some ++ (check.map some ++ List.replicate m none) := by
    rw [made, frame, checkBits_false, List.map_append, List.append_assoc]
  have upTo : bits.take (5 + n) = sent.map some := by
    rw [split, ← whole, List.take_left]
  constructor
  · have data : bits = ([false] ++ msbFirst command).map some ++
        (payload.map some ++ (check.map some ++ List.replicate m none)) := by
      rw [split, List.map_append, List.append_assoc]
    rw [dataBits, data, ← header, List.drop_left, ← long, ← List.length_map some, List.take_left]
  · rw [checkDue, upTo, reduceOption_map_some, checkOf, split, ← whole, List.drop_left]
    exact List.take_left' (by rw [List.length_map, length_msbFirst])

/-! ## The two tasks -/

/-- `debug_cpu_go` after `DBG_CPU_WRITE`, with this length. -/
def cpuWriteGo (env : Surroundings) (wait : Bool) (l : Link) (storage : Storage)
    (lengthGlobal : BitVec 19) : List (Option Bool) :=
  let l := { l with lastCpuCmd := DBG_CPU_WRITE, lengthGlobal := lengthGlobal }
  shifted l (debugCpuGo env wait false (l, storage)).1

/-- `debug_wishbone_go` after `DBG_WB_WRITE32`, with this length. -/
def wbWriteGo (env : Surroundings) (wait : Bool) (l : Link) (storage : Storage)
    (lengthGlobal : BitVec 19) : List (Option Bool) :=
  let l := { l with lastWbCmd := DBG_WB_WRITE32, lengthGlobal := lengthGlobal }
  shifted l (debugWishboneGo env wait false (l, storage)).1

theorem cpuWriteGo_parts (env : Surroundings) (wait : Bool) (l : Link) (storage : Storage)
    (lengthGlobal : BitVec 19) :
    dataBits (cpuWriteGo env wait l storage lengthGlobal) (lengthGlobal.toNat * 8) =
        (storageBits env storage (fun i => (i - 1) / 32) (lengthGlobal.toNat * 8)).map some ∧
      checkOf (cpuWriteGo env wait l storage lengthGlobal) (lengthGlobal.toNat * 8) =
        checkDue (cpuWriteGo env wait l storage lengthGlobal) (lengthGlobal.toNat * 8) := by
  let m : Machine Link :=
    ({ l with lastCpuCmd := DBG_CPU_WRITE, lengthGlobal := lengthGlobal }, storage)
  have made : cpuWriteGo env wait l storage lengthGlobal =
      frame false ([false] ++ msbFirst DBG_CPU_GO ++ cpuPayload env m) ++
        List.replicate (cpuIncoming m.1 + 4 + 32) none :=
    congrArg Tap.dr (scan_debugCpuGo wait false m).since
  have payload : cpuPayload env m =
      storageBits env storage (fun i => (i - 1) / 32) (lengthGlobal.toNat * 8) := if_pos rfl
  rw [payload] at made
  exact frame_parts DBG_CPU_GO _ (length_storageBits _ _ _) made

theorem wbWriteGo_parts (env : Surroundings) (wait : Bool) (l : Link) (storage : Storage)
    (lengthGlobal : BitVec 19) :
    dataBits (wbWriteGo env wait l storage lengthGlobal) (lengthGlobal.toNat * 8) =
        (storageBits env storage (fun i => i / 32) (lengthGlobal.toNat * 8)).map some ∧
      checkOf (wbWriteGo env wait l storage lengthGlobal) (lengthGlobal.toNat * 8) =
        checkDue (wbWriteGo env wait l storage lengthGlobal) (lengthGlobal.toNat * 8) := by
  let m : Machine Link :=
    ({ l with lastWbCmd := DBG_WB_WRITE32, lengthGlobal := lengthGlobal }, storage)
  have made : wbWriteGo env wait l storage lengthGlobal =
      frame false ([false] ++ msbFirst DBG_WB_GO ++ wbPayload env m) ++
        List.replicate (wbIncoming m.1 + 4 + 32) none :=
    congrArg Tap.dr (scan_debugWishboneGo wait false m).since
  have payload : wbPayload env m =
      storageBits env storage (fun i => i / 32) (lengthGlobal.toNat * 8) := if_pos rfl
  rw [payload] at made
  exact frame_parts DBG_WB_GO _ (length_storageBits _ _ _) made

/-- **The data bits of the processor task are the words when the late fetch does not show.** -/
theorem cpuWriteGo_data_iff (env : Surroundings) (wait : Bool) (l : Link) (storage : Storage)
    (lengthGlobal : BitVec 19) :
    dataBits (cpuWriteGo env wait l storage lengthGlobal) (lengthGlobal.toNat * 8) =
        (wordStream env storage (lengthGlobal.toNat * 8)).map some ↔
      ∀ k, 32 * (k + 1) < lengthGlobal.toNat * 8 →
        (fetch env storage k).getLsbD 31 = (fetch env storage (k + 1)).getLsbD 31 := by
  have injective : Function.Injective (List.map (some : Bool → Option Bool)) :=
    List.map_injective_iff.mpr (Option.some_injective Bool)
  rw [(cpuWriteGo_parts env wait l storage lengthGlobal).1, wordStream_eq, injective.eq_iff,
    storageBits_late_iff]

/-- What is asked of the two write streams: the data bits of the processor task are the
words of the storage, those of the Wishbone task are the same, and in both the check is
that of what has been shifted. -/
def StreamsRight (env : Surroundings) (wait wait' : Bool) (l : Link) (storage : Storage)
    (lengthGlobal : BitVec 19) : Prop :=
  let n := lengthGlobal.toNat * 8
  let cpu := cpuWriteGo env wait l storage lengthGlobal
  let wb := wbWriteGo env wait' l storage lengthGlobal
  dataBits cpu n = (wordStream env storage n).map some ∧ dataBits wb n = dataBits cpu n ∧
    checkOf cpu n = checkDue cpu n ∧ checkOf wb n = checkDue wb n

/-- **The streams are right exactly when neighbouring words that are sent begin with the
same bit.** -/
theorem write_streams_iff (env : Surroundings) (wait wait' : Bool) (l : Link)
    (storage : Storage) (lengthGlobal : BitVec 19) :
    StreamsRight env wait wait' l storage lengthGlobal ↔
      ∀ k, 32 * (k + 1) < lengthGlobal.toNat * 8 →
        (fetch env storage k).getLsbD 31 = (fetch env storage (k + 1)).getLsbD 31 := by
  obtain ⟨cpuData, cpuCheck⟩ := cpuWriteGo_parts env wait l storage lengthGlobal
  obtain ⟨wbData, wbCheck⟩ := wbWriteGo_parts env wait' l storage lengthGlobal
  rw [← cpuWriteGo_data_iff env wait l]
  constructor
  · intro right
    exact right.1
  · intro same
    refine ⟨same, ?_, cpuCheck, wbCheck⟩
    rw [same, wbData, wordStream_eq]

/-- Surroundings in which `tdo` stays low. -/
def quiet : Surroundings where
  rise _ := false
  level _ := false
  outside _ := 0
  ready _ := ⟨0, rfl⟩

/-- The registers before anything has been driven. -/
def poweredUp : Link where
  tms := false
  tdi := none
  crcOut := 0
  crcIn := 0
  inDataBe := 0
  inDataLe := 0
  incomingWord := 0
  status := 0
  statusWb := 0
  statusCpu := 0
  lastWbCmd := 0
  lastCpuCmd := 0
  lengthGlobal := 0
  edges := []

/-- Of the first two words the second begins with a one. -/
def secondNegative : Storage := fun i => if i = 1 then 0x80000000 else 0

/-- Two words of which the second begins with another bit do not arrive. -/
theorem two_words_wrong : ¬ StreamsRight quiet false false poweredUp secondNegative 8 := by
  intro right
  have same := (cpuWriteGo_data_iff quiet false poweredUp secondNegative 8).mp right.1 0 (by decide)
  exact absurd same (by decide)

end OrpsocCores.VpiDebugModule
