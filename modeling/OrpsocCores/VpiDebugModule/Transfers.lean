import OrpsocCores.JpVpi.Lockstep
import OrpsocCores.VpiDebugModule.ReadStreams
import OrpsocCores.VpiDebugModule.WriteStreams

/-!
# The transfers

A transfer on either chain is two scans: a command with the address and the length, and a
`go` with the data.  This module says for each task what its scans carry, in terms of the
words that are written, and what it has read, in terms of `tdo`.  The scans are those that a
data register behind the controller takes over, one by one.

The data bits of a processor write are not the words but `wordBits` with the late fetch:
`wordBits_late_iff` has the condition under which it does not show.
-/

set_option autoImplicit false

namespace OrpsocCores.VpiDebugModule

open Crc JpVpi TapController

variable {env : Surroundings} {l l' l'' : Link}

/-! ## Scans -/

/-- The scans that a data register takes over between two states of the link. -/
def Scans (scans : List (List (Option Bool))) (l l' : Link) : Prop :=
  ∃ edges, l'.edges = l.edges ++ edges ∧ Takes edges scans

theorem Scans.refl (l : Link) : Scans [] l l := ⟨[], (List.append_nil _).symm, Takes.nil⟩

theorem Scans.trans {scans others : List (List (Option Bool))} (first : Scans scans l l')
    (second : Scans others l' l'') : Scans (scans ++ others) l l'' := by
  obtain ⟨edges, made, takes⟩ := first
  obtain ⟨edges', made', takes'⟩ := second
  exact ⟨edges ++ edges', by rw [made', made, List.append_assoc], takes.append takes'⟩

theorem Scan.scans {bits : List (Option Bool)} (scan : Scan bits l l') : Scans [bits] l l' := by
  obtain ⟨edges, made, -, takes⟩ := scan.edges
  exact ⟨edges, made, takes⟩

/-- What a data register behind the controller has taken over at its updates, when they were
powered up in this state. -/
def Link.taken (power : State) (l : Link) : List (List (Option Bool)) :=
  (DataRegister.after ⟨power, [], []⟩ l.edges).taken

theorem Scans.taken {scans : List (List (Option Bool))} {power : State}
    (made : Scans scans l l') (idle : (l.tap power).state = .runTestIdle) :
    l'.taken power = l.taken power ++ scans := by
  obtain ⟨edges, made, takes⟩ := made
  let register : DataRegister (Option Bool) := DataRegister.after ⟨power, [], []⟩ l.edges
  have state : register.state = .runTestIdle :=
    (DataRegister.after_state _ rfl l.edges).trans idle
  obtain ⟨bits, after⟩ := takes register.bits register.taken
  rw [← state] at after
  rw [Link.taken, made, DataRegister.after_append]
  exact congrArg DataRegister.taken after

/-- The registers that say what is shifted are not seen on the pins. -/
theorem Scans.setWb {scans : List (List (Option Bool))} (made : Scans scans l l')
    (accType : BitVec 4) (lengthGlobal : BitVec 19) :
    Scans scans l { l' with lastWbCmd := accType, lengthGlobal := lengthGlobal } :=
  made

theorem Scans.setCpu {scans : List (List (Option Bool))} (made : Scans scans l l')
    (accType : BitVec 4) (lengthGlobal : BitVec 19) :
    Scans scans l { l' with lastCpuCmd := accType, lengthGlobal := lengthGlobal } :=
  made

/-- A scan that drives these bits and their check, and reads so many bits, the status and a
check. -/
def scanOf (bits : List Bool) (n : Nat) : List (Option Bool) :=
  frame false bits ++ List.replicate (n + 4 + 32) none

/-- The scan of a command. -/
def commandScan (command accType : BitVec 4) (addr : Word) (length : BitVec 16) :
    List (Option Bool) :=
  scanOf (commandBits command accType addr length) 0

theorem commandScan_eq (command accType : BitVec 4) (addr : Word) (length : BitVec 16) :
    commandScan command accType addr length =
      frame false (commandBits command accType addr length) ++ List.replicate (4 + 32) none := by
  rw [commandScan, scanOf, Nat.zero_add]

/-- The scan of a `go`. -/
def goScan (command : BitVec 4) (payload : List Bool) (n : Nat) : List (Option Bool) :=
  scanOf ([false] ++ msbFirst command ++ payload) n

/-! ## Words -/

/-- The bits of some words, each most significant first; which word a bit is from is a
function of its number. -/
def wordBits (data : List Word) (word : Nat → Nat) : List Bool :=
  (List.range (32 * data.length)).map fun i => (data.getD (word i) 0).getLsbD (31 - i % 32)

/-- The words one after the other. -/
theorem wordBits_div (data : List Word) :
    wordBits data (fun i => i / 32) = data.flatMap msbFirst := by
  have words : data = (List.range data.length).map fun k => data.getD k 0 := by
    apply List.ext_getElem?
    intro k
    rcases Nat.lt_or_ge k data.length with inside | beyond
    · rw [List.getElem?_map, List.getElem?_range inside, Option.map_some,
        List.getD_eq_getElem?_getD, List.getElem?_eq_getElem inside, Option.getD_some]
    · rw [List.getElem?_eq_none beyond, List.getElem?_eq_none (by simpa using beyond)]
  conv_rhs => rw [words, List.flatMap_map, flatMap_msbFirst, Nat.mul_comm]
  apply List.map_congr_left
  intro i _
  have inside : i % 32 < 32 := Nat.mod_lt i (by decide)
  rw [BitVec.getMsbD_eq_getLsbD, decide_eq_true inside, Bool.true_and]

/-- When the late fetch does not show. -/
theorem wordBits_late_iff (data : List Word) :
    wordBits data (fun i => (i - 1) / 32) = data.flatMap msbFirst ↔
      ∀ k, k + 1 < data.length →
        (data.getD k 0).getLsbD 31 = (data.getD (k + 1) 0).getLsbD 31 := by
  rw [← wordBits_div, wordBits, wordBits, late_iff fun k => data.getD k 0]
  constructor
  · intro same k inside
    exact same k (by omega)
  · intro same k sent
    exact same k (by omega)

/-- A single word. -/
theorem wordBits_single (data : Word) {word : Nat → Nat} (first : ∀ i < 32, word i = 0) :
    wordBits [data] word = msbFirst data := by
  have same : wordBits [data] word = wordBits [data] (fun i => i / 32) := by
    apply List.map_congr_left
    intro i sent
    have inside : i < 32 := List.mem_range.mp sent
    have whole : i / 32 = 0 := Nat.div_eq_of_lt inside
    simp only [first i inside, whole]
  rw [same, wordBits_div, List.flatMap_singleton]

/-! ## Words in the storage -/

theorem slot_ne {i j : Nat} (before : i < j) (fits : j < 4096) : slot i ≠ slot j := by
  intro same
  have values : i % 4096 = j % 4096 := congrArg Fin.val same
  omega

theorem storeWords_before (data : List Word) (stored : Nat) (storage : Storage) {i : Nat}
    (before : i < stored) (fits : stored + data.length ≤ 4096) :
    storeWords data stored storage (slot i) = storage (slot i) := by
  induction data generalizing stored storage with
  | nil => rfl
  | cons w rest ih =>
      rw [List.length_cons] at fits
      rw [storeWords, ih _ _ (by omega) (by omega),
        Function.update_of_ne (slot_ne before (by omega))]

theorem storeWords_slot (data : List Word) (stored i : Nat) (storage : Storage)
    (inside : i < data.length) (fits : stored + data.length ≤ 4096) :
    storeWords data stored storage (slot (stored + i)) = data.getD i 0 := by
  induction data generalizing stored i storage with
  | nil => exact absurd inside (Nat.not_lt_zero i)
  | cons w rest ih =>
      rw [List.length_cons] at inside fits
      rw [storeWords]
      cases i with
      | zero =>
          change storeWords rest (stored + 1) _ (slot stored) = w
          rw [storeWords_before rest _ _ (Nat.lt_succ_self stored) (by omega)]
          exact Function.update_self ..
      | succ i =>
          have next := ih (stored + 1) i (Function.update storage (slot stored) w) (by omega)
            (by omega)
          rw [show stored + (i + 1) = stored + 1 + i by omega]
          exact next

theorem fetch_slot (storage : Storage) {k : Nat} (fits : k < 4096) :
    fetch env storage k = storage (slot k) := by
  have place : slot k = ⟨k, fits⟩ := Fin.ext (Nat.mod_eq_of_lt fits)
  rw [fetch, dif_pos fits, place]

/-- What is shifted out of a block in the storage. -/
theorem storageBits_stored (storage : Storage) {data : List Word} (fits : data.length ≤ 4096)
    {word : Nat → Nat} (inside : ∀ i < 32 * data.length, word i < data.length) :
    storageBits env (storeWords data 0 storage) word (32 * data.length) = wordBits data word := by
  apply List.map_congr_left
  intro i sent
  have known := inside i (List.mem_range.mp sent)
  have stored := storeWords_slot data 0 (word i) storage known (by omega)
  rw [Nat.zero_add] at stored
  rw [fetch_slot _ (by omega), stored]

/-- What is shifted out of the first word of the storage. -/
theorem storageBits_first {w : Nat} (storage : Storage) (data : BitVec w) (narrow : w ≤ 32)
    (word : Nat → Nat) (first : ∀ i < w, word i = 0)
    (stored : ∀ i < w, (storage (slot 0)).getLsbD (31 - i) = data.getMsbD i) :
    storageBits env storage word w = msbFirst data := by
  have whole : (storageBits env storage word w).length = w := length_storageBits _ _ _
  rw [eq_msbFirst_iff data whole]
  intro i inside
  have small : i % 32 = i := Nat.mod_eq_of_lt (by omega)
  rw [storageBits, List.getElem?_map, List.getElem?_range inside, Option.map_some, first i inside,
    fetch_slot _ (by decide), small, stored i inside]

/-! ## The Wishbone chain -/

/-- A command that reads, and does not write. -/
def WbReads (accType : BitVec 4) : Prop :=
  ∀ l : Link, l.lastWbCmd = accType → l.wbReads = true ∧ l.wbWrites = false

/-- A command that writes, and does not read. -/
def WbWrites (accType : BitVec 4) : Prop :=
  ∀ l : Link, l.lastWbCmd = accType → l.wbWrites = true ∧ l.wbReads = false

theorem wbReads_read8 : WbReads DBG_WB_READ8 := by
  intro l command
  rw [Link.wbReads, Link.wbWrites, command]
  exact ⟨rfl, rfl⟩

theorem wbReads_read32 : WbReads DBG_WB_READ32 := by
  intro l command
  rw [Link.wbReads, Link.wbWrites, command]
  exact ⟨rfl, rfl⟩

theorem wbWrites_write8 : WbWrites DBG_WB_WRITE8 := by
  intro l command
  rw [Link.wbReads, Link.wbWrites, command]
  exact ⟨rfl, rfl⟩

theorem wbWrites_write32 : WbWrites DBG_WB_WRITE32 := by
  intro l command
  rw [Link.wbReads, Link.wbWrites, command]
  exact ⟨rfl, rfl⟩

section Transfer

variable {accType : BitVec 4} (addr : Word) (length : BitVec 16) (lengthGlobal : BitVec 19)
  (waitForWbReady : Bool) (m : Machine Link)

/-- A command of the Wishbone chain and its `go`. -/
theorem scans_wbTransfer {payload : List Bool} {n : Nat}
    (carries : ∀ l : Link, l.lastWbCmd = accType → l.lengthGlobal = lengthGlobal →
      wbPayload env (l, m.2) = payload ∧ wbIncoming l = n) :
    Scans [commandScan DBG_WB_WR_COMM accType addr length, goScan DBG_WB_GO payload n] m.1
      (wbTransfer env accType addr length lengthGlobal waitForWbReady m).1 := by
  unfold wbTransfer
  extract_lets l₁
  let l₂ : Link := { l₁ with lastWbCmd := accType, lengthGlobal := lengthGlobal }
  have command : Scans [commandScan DBG_WB_WR_COMM accType addr length] m.1 l₁ := by
    rw [commandScan_eq]
    exact (scan_debugWishboneWrComm accType addr length false m.1).scans
  have go : Scans [goScan DBG_WB_GO (wbPayload env (l₂, m.2)) (wbIncoming l₂)] l₂ _ :=
    (scan_debugWishboneGo waitForWbReady false (l₂, m.2)).scans
  obtain ⟨out, inn⟩ := carries l₂ rfl rfl
  rw [out, inn] at go
  exact (command.setWb accType lengthGlobal).trans go

theorem WbReads.scans (reads : WbReads accType) :
    Scans [commandScan DBG_WB_WR_COMM accType addr length,
        goScan DBG_WB_GO [] (lengthGlobal.toNat * 8)] m.1
      (wbTransfer env accType addr length lengthGlobal waitForWbReady m).1 := by
  refine scans_wbTransfer addr length lengthGlobal waitForWbReady m fun l command kept => ?_
  obtain ⟨read, silent⟩ := reads l command
  rw [wbPayload, silent, if_neg Bool.false_ne_true, wbIncoming, if_pos read, kept]
  exact ⟨rfl, rfl⟩

theorem WbWrites.scans (writes : WbWrites accType) :
    Scans [commandScan DBG_WB_WR_COMM accType addr length,
        goScan DBG_WB_GO (storageBits env m.2 (fun i => i / 32) (lengthGlobal.toNat * 8)) 0] m.1
      (wbTransfer env accType addr length lengthGlobal waitForWbReady m).1 := by
  refine scans_wbTransfer addr length lengthGlobal waitForWbReady m fun l command kept => ?_
  obtain ⟨written, silent⟩ := writes l command
  rw [wbPayload, if_pos written, wbIncoming, silent, if_neg Bool.false_ne_true, kept]
  exact ⟨rfl, rfl⟩

/-- What a read of the Wishbone chain leaves in the storage. -/
theorem WbReads.storage (reads : WbReads accType) :
    ∃ l : Link, l.lengthGlobal = lengthGlobal ∧
      (wbTransfer env accType addr length lengthGlobal waitForWbReady m).2 =
        (wishboneRead env (l, m.2)).2 ∧
      (wbTransfer env accType addr length lengthGlobal waitForWbReady m).1.edges.length - 38 -
        lengthGlobal.toNat * 8 = l.edges.length := by
  unfold wbTransfer
  extract_lets l₁
  let l₂ : Link := { l₁ with lastWbCmd := accType, lengthGlobal := lengthGlobal }
  obtain ⟨read, silent⟩ := reads l₂ rfl
  obtain ⟨l, settings, storage, edges⟩ :=
    debugWishboneGo_reads env waitForWbReady false (l₂, m.2) read silent
  have same : l.lengthGlobal = lengthGlobal := lengthGlobal_congr settings
  have long : _ = l.edges.length + l.lengthGlobal.toNat * 8 := length_wishboneRead env (l, m.2)
  rw [same] at long
  refine ⟨l, same, storage, ?_⟩
  rw [edges, long]
  omega

end Transfer

/-! ### Blocks -/

section Blocks

variable {words : Nat}

/-- The length that a task puts into its command. -/
theorem block_length (block : BlockLength (4 * words)) :
    (BitVec.ofNat 32 (4 * words)).setWidth 16 - 1 = BitVec.ofNat 16 (4 * words - 1) := by
  obtain ⟨positive, -, fits⟩ := block
  apply BitVec.eq_of_toNat_eq
  have one : (1 : BitVec 16).toNat = 1 := rfl
  rw [BitVec.toNat_sub, BitVec.toNat_setWidth, BitVec.toNat_ofNat, BitVec.toNat_ofNat, one]
  omega

/-- The length that it keeps for its `go`. -/
theorem block_lengthGlobal (block : BlockLength (4 * words)) :
    ((BitVec.ofNat 32 (4 * words)).setWidth 16).setWidth 19 = BitVec.ofNat 19 (4 * words) := by
  obtain ⟨-, -, fits⟩ := block
  apply BitVec.eq_of_toNat_eq
  rw [BitVec.toNat_setWidth, BitVec.toNat_setWidth, BitVec.toNat_ofNat, BitVec.toNat_ofNat]
  omega

theorem block_bits (block : BlockLength (4 * words)) :
    (BitVec.ofNat 19 (4 * words)).toNat * 8 = 32 * words := by
  obtain ⟨-, -, fits⟩ := block
  rw [BitVec.toNat_ofNat]
  omega

/-- A block has no word that is not complete. -/
theorem block_whole (block : BlockLength (4 * words)) :
    (BitVec.ofNat 19 (4 * words)).setWidth 2 = 0 := by
  obtain ⟨-, -, fits⟩ := block
  apply BitVec.eq_of_toNat_eq
  have none : (0 : BitVec 2).toNat = 0 := rfl
  rw [BitVec.toNat_setWidth, BitVec.toNat_ofNat, none]
  omega

end Blocks

section Wishbone

variable (adr : Word) (m : Machine Link)

theorem tasks_wbRead8 :
    (tasks env).wbRead8 adr m =
      (fetch env (wbTransfer env DBG_WB_READ8 adr 0 1 true m).2 0,
        wbTransfer env DBG_WB_READ8 adr 0 1 true m) := rfl

theorem scans_wbRead8 :
    Scans [commandScan DBG_WB_WR_COMM DBG_WB_READ8 adr 0, goScan DBG_WB_GO [] 8] m.1
      ((tasks env).wbRead8 adr m).2.1 :=
  wbReads_read8.scans adr 0 1 true m

theorem wbRead8_data :
    [((tasks env).wbRead8 adr m).1.setWidth 8] =
      ((tasks env).wbRead8 adr m).2.1.incoming env 8 1 := by
  obtain ⟨l, length, storage, edges⟩ := @WbReads.storage env _ adr 0 1 true m wbReads_read8
  have byte := wishboneRead_byte env (l, m.2) length
  have place : (1 : BitVec 19).toNat * 8 = 8 := rfl
  rw [place] at edges
  rw [← storage, ← edges] at byte
  rw [tasks_wbRead8, incoming_one, ← byte, fetch_slot _ (by decide)]

theorem scans_wbWrite8 (data : BitVec 8) :
    Scans [commandScan DBG_WB_WR_COMM DBG_WB_WRITE8 adr 0, goScan DBG_WB_GO (msbFirst data) 0] m.1
      ((tasks env).wbWrite8 data adr m).1 := by
  let m' : Machine Link := (m.1, store m.2 0 (data ++ 0#24))
  have bits : storageBits env m'.2 (fun i => i / 32) 8 = msbFirst data := ?_
  · rw [← bits]
    exact wbWrites_write8.scans adr 0 1 false m'
  refine storageBits_first m'.2 data (by decide) _ (fun i inside => Nat.div_eq_of_lt (by omega)) ?_
  intro i inside
  have stored : store m.2 0 (data ++ 0#24) (slot 0) = data ++ 0#24 := by
    rw [store_slot _ _ (by decide), if_pos rfl]
  have high : ¬ 31 - i < 24 := by omega
  have place : 31 - i - 24 = 8 - 1 - i := by omega
  change (store m.2 0 (data ++ 0#24) (slot 0)).getLsbD (31 - i) = _
  rw [stored, BitVec.getLsbD_append, if_neg high, place, BitVec.getMsbD_eq_getLsbD,
    decide_eq_true inside, Bool.true_and]

theorem tasks_wbBlockRead32 {words : Nat} (block : BlockLength (4 * words)) :
    (tasks env).wbBlockRead32 adr (BitVec.ofNat 32 (4 * words)) m =
      wbTransfer env DBG_WB_READ32 adr (BitVec.ofNat 16 (4 * words - 1))
        (BitVec.ofNat 19 (4 * words)) true m := by
  rw [← block_length block, ← block_lengthGlobal block]
  rfl

theorem scans_wbBlockRead32 {words : Nat} (block : BlockLength (4 * words)) :
    Scans [commandScan DBG_WB_WR_COMM DBG_WB_READ32 adr (BitVec.ofNat 16 (4 * words - 1)),
        goScan DBG_WB_GO [] (32 * words)] m.1
      ((tasks env).wbBlockRead32 adr (BitVec.ofNat 32 (4 * words)) m).1 := by
  rw [tasks_wbBlockRead32 adr m block, ← block_bits block]
  exact wbReads_read32.scans adr _ _ true m

theorem wbBlockRead32_data {words : Nat} (block : BlockLength (4 * words)) :
    firstWords ((tasks env).wbBlockRead32 adr (BitVec.ofNat 32 (4 * words)) m).2 words =
      ((tasks env).wbBlockRead32 adr (BitVec.ofNat 32 (4 * words)) m).1.incoming env 32 words := by
  rw [tasks_wbBlockRead32 adr m block]
  obtain ⟨l, length, storage, edges⟩ :=
    @WbReads.storage env _ adr (BitVec.ofNat 16 (4 * words - 1)) (BitVec.ofNat 19 (4 * words)) true
      m wbReads_read32
  have fits := block.2.2
  have bits := block_bits block
  rw [bits] at edges
  apply List.map_congr_left
  intro k inside
  have small : k < words := List.mem_range.mp inside
  have word := wishboneRead_words env (l, m.2) (by rw [length]; exact block_whole block)
    (show k < l.lengthGlobal.toNat * 8 / 32 by rw [length, bits]; omega) (by omega)
  rw [storage, edges]
  exact word

/-- A block is stored in front of its task. -/
theorem tasks_wbBlockWrite32 {data : List Word} (block : BlockLength (4 * data.length)) :
    withBlock data ((tasks env).wbBlockWrite32 adr (BitVec.ofNat 32 (4 * data.length))) m =
      wbTransfer env DBG_WB_WRITE32 adr (BitVec.ofNat 16 (4 * data.length - 1))
        (BitVec.ofNat 19 (4 * data.length)) false (m.1, storeWords data 0 m.2) := by
  rw [← block_length block, ← block_lengthGlobal block]
  rfl

theorem scans_wbBlockWrite32 {data : List Word} (block : BlockLength (4 * data.length)) :
    Scans [commandScan DBG_WB_WR_COMM DBG_WB_WRITE32 adr (BitVec.ofNat 16 (4 * data.length - 1)),
        goScan DBG_WB_GO (data.flatMap msbFirst) 0] m.1
      (withBlock data
        ((tasks env).wbBlockWrite32 adr (BitVec.ofNat 32 (4 * data.length))) m).1 := by
  have fits := block.2.2
  have stored := @storageBits_stored env m.2 data (by omega) (fun i => i / 32) fun i inside => by
    omega
  rw [wordBits_div, ← block_bits block] at stored
  rw [tasks_wbBlockWrite32 adr m block, ← stored]
  exact wbWrites_write32.scans adr _ _ false (m.1, storeWords data 0 m.2)

end Wishbone

/-! ## The processor chain -/

/-- A command of the processor chain and its `go`. -/
theorem scans_cpuTransfer (accType : BitVec 4) (addr : Word) (length : BitVec 16)
    (lengthGlobal : BitVec 19) (m : Machine Link) {payload : List Bool} {n : Nat}
    (carries : ∀ l : Link, l.lastCpuCmd = accType → l.lengthGlobal = lengthGlobal →
      cpuPayload env (l, m.2) = payload ∧ cpuIncoming l = n) :
    Scans [commandScan DBG_CPU_WR_COMM accType addr length, goScan DBG_CPU_GO payload n] m.1
      (cpuTransfer env accType addr length lengthGlobal m).1 := by
  unfold cpuTransfer
  extract_lets l₁
  let l₂ : Link := { l₁ with lastCpuCmd := accType, lengthGlobal := lengthGlobal }
  have command : Scans [commandScan DBG_CPU_WR_COMM accType addr length] m.1 l₁ := by
    rw [commandScan_eq]
    exact (scan_debugCpuWrComm accType addr length false m.1).scans
  have go : Scans [goScan DBG_CPU_GO (cpuPayload env (l₂, m.2)) (cpuIncoming l₂)] l₂ _ :=
    (scan_debugCpuGo false false (l₂, m.2)).scans
  obtain ⟨out, inn⟩ := carries l₂ rfl rfl
  rw [out, inn] at go
  exact (command.setCpu accType lengthGlobal).trans go

/-- What a read of the processor chain leaves in the storage. -/
theorem cpuTransfer_reads (env : Surroundings) (addr : Word) (length : BitVec 16)
    (lengthGlobal : BitVec 19) (m : Machine Link) :
    ∃ l : Link, l.lengthGlobal = lengthGlobal ∧
      (cpuTransfer env DBG_CPU_READ addr length lengthGlobal m).2 = (cpuRead env (l, m.2)).2 ∧
      (cpuTransfer env DBG_CPU_READ addr length lengthGlobal m).1.edges.length - 38 -
        lengthGlobal.toNat * 8 = l.edges.length := by
  unfold cpuTransfer
  extract_lets l₁
  let l₂ : Link := { l₁ with lastCpuCmd := DBG_CPU_READ, lengthGlobal := lengthGlobal }
  obtain ⟨l, settings, storage, edges⟩ := debugCpuGo_reads env false false (l₂, m.2) rfl
  have same : l.lengthGlobal = lengthGlobal := lengthGlobal_congr settings
  have long : _ = l.edges.length + l.lengthGlobal.toNat * 8 := length_cpuRead env (l, m.2)
  rw [same] at long
  refine ⟨l, same, storage, ?_⟩
  rw [edges, long]
  omega

section Processor

variable (adr : Word) (m : Machine Link)

/-- A single register has a task of its own. -/
theorem tasks_cpuRead {words : Nat} (block : BlockLength (4 * words)) :
    (if 4 < 4 * words then (tasks env).cpuReadBlock adr (BitVec.ofNat 32 (4 * words))
      else (tasks env).cpuRead32 adr) m =
      cpuTransfer env DBG_CPU_READ adr (BitVec.ofNat 16 (4 * words - 1))
        (BitVec.ofNat 19 (4 * words)) m := by
  split
  case isTrue =>
    rw [← block_length block, ← block_lengthGlobal block]
    rfl
  case isFalse single =>
    have positive := block.1
    obtain rfl : words = 1 := by omega
    have field : BitVec.ofNat 16 (4 * 1 - 1) = 0x3 := by decide
    have global : BitVec.ofNat 19 (4 * 1) = (0x3 : BitVec 16).setWidth 19 + 1 := by decide
    rw [field, global]
    rfl

theorem scans_cpuRead {words : Nat} (block : BlockLength (4 * words)) :
    Scans [commandScan DBG_CPU_WR_COMM DBG_CPU_READ adr (BitVec.ofNat 16 (4 * words - 1)),
        goScan DBG_CPU_GO [] (32 * words)] m.1
      ((if 4 < 4 * words then (tasks env).cpuReadBlock adr (BitVec.ofNat 32 (4 * words))
        else (tasks env).cpuRead32 adr) m).1 := by
  rw [tasks_cpuRead adr m block, ← block_bits block]
  refine scans_cpuTransfer DBG_CPU_READ adr _ _ m fun l command length => ?_
  have other : l.lastCpuCmd ≠ DBG_CPU_WRITE := by rw [command]; decide
  rw [cpuPayload, if_neg other, cpuIncoming, if_pos command, length]
  exact ⟨rfl, rfl⟩

theorem cpuRead_data {words : Nat} (block : BlockLength (4 * words)) :
    let m' := (if 4 < 4 * words then (tasks env).cpuReadBlock adr (BitVec.ofNat 32 (4 * words))
      else (tasks env).cpuRead32 adr) m
    firstWords m'.2 words = m'.1.incoming env 32 words := by
  rw [tasks_cpuRead adr m block]
  obtain ⟨l, length, storage, edges⟩ :=
    cpuTransfer_reads env adr (BitVec.ofNat 16 (4 * words - 1)) (BitVec.ofNat 19 (4 * words)) m
  have fits := block.2.2
  have bits := block_bits block
  rw [bits] at edges
  apply List.map_congr_left
  intro k inside
  have small : k < words := List.mem_range.mp inside
  have word := cpuRead_words env (l, m.2)
    (show k < l.lengthGlobal.toNat * 8 / 32 by rw [length, bits]; omega) (by omega)
  rw [storage, edges]
  exact word

/-- The words of a processor write are in the storage, a single one twice. -/
theorem tasks_cpuWrite (env : Surroundings) {data : List Word}
    (block : BlockLength (4 * data.length)) :
    ∃ storage : Storage,
      withBlock data
          (if 1 < data.length then (tasks env).cpuWriteBlock adr (BitVec.ofNat 32 (4 * data.length))
            else (tasks env).cpuWrite32 (data.headD 0) adr) m =
        cpuTransfer env DBG_CPU_WRITE adr (BitVec.ofNat 16 (4 * data.length - 1))
          (BitVec.ofNat 19 (4 * data.length)) (m.1, storage) ∧
      storageBits env storage (fun i => (i - 1) / 32) (32 * data.length) =
        wordBits data fun i => (i - 1) / 32 := by
  have positive := block.1
  have fits := block.2.2
  split
  case isTrue =>
    refine ⟨storeWords data 0 m.2, ?_, ?_⟩
    · rw [← block_length block, ← block_lengthGlobal block]
      rfl
    · exact storageBits_stored m.2 (by omega) fun i inside => by omega
  case isFalse single =>
    obtain ⟨w, rfl⟩ : ∃ w, data = [w] := List.length_eq_one_iff.mp (by omega)
    have field : BitVec.ofNat 16 (4 * [w].length - 1) = 0x3 := rfl
    have global : BitVec.ofNat 19 (4 * [w].length) = (0x3 : BitVec 16).setWidth 19 + 1 := rfl
    refine ⟨store (storeWords [w] 0 m.2) 0 w, by rw [field, global]; rfl, ?_⟩
    rw [wordBits_single w fun i inside => by omega]
    refine storageBits_first _ w (le_refl 32) _ (fun i inside => by omega) fun i inside => ?_
    rw [store_slot _ _ (by decide), if_pos rfl, BitVec.getMsbD_eq_getLsbD, decide_eq_true inside,
      Bool.true_and]

theorem scans_cpuWrite {data : List Word} (block : BlockLength (4 * data.length)) :
    Scans [commandScan DBG_CPU_WR_COMM DBG_CPU_WRITE adr (BitVec.ofNat 16 (4 * data.length - 1)),
        goScan DBG_CPU_GO (wordBits data fun i => (i - 1) / 32) 0] m.1
      (withBlock data
        (if 1 < data.length then (tasks env).cpuWriteBlock adr (BitVec.ofNat 32 (4 * data.length))
          else (tasks env).cpuWrite32 (data.headD 0) adr) m).1 := by
  obtain ⟨storage, made, bits⟩ := tasks_cpuWrite adr m env block
  rw [made]
  refine scans_cpuTransfer DBG_CPU_WRITE adr _ _ (m.1, storage) fun l command length => ?_
  have other : l.lastCpuCmd ≠ DBG_CPU_READ := by rw [command]; decide
  rw [cpuPayload, if_pos command, cpuIncoming, if_neg other, length, block_bits block, bits]
  exact ⟨rfl, rfl⟩

theorem scans_debugCpuWrCtrl (ctrl : BitVec 2) :
    Scans [scanOf (ctrlBits (ctrl.setWidth 52)) 0] m.1 ((tasks env).debugCpuWrCtrl ctrl m).1 := by
  rw [scanOf, Nat.zero_add]
  exact (scan_debugCpuWrCtrl _ m.1).scans

theorem scans_debugCpuRdCtrl :
    Scans [scanOf ([false] ++ msbFirst DBG_CPU_RD_CTRL) 52] m.1
      ((tasks env).debugCpuRdCtrl m).2.1 :=
  (scan_debugCpuRdCtrl m.1).scans

theorem getLsbD_putBit {w : Nat} (x : BitVec w) {i : Nat} (inside : i < w) (bit : Bool) :
    (putBit x i bit).getLsbD i = bit := by
  unfold putBit
  cases bit with
  | true => simp [inside]
  | false => simp [inside]

/-- The second bit that is read of the control register, by where the task has come to: behind
it are the other bits of the register, the status, the check and the way back to idle. -/
theorem debugCpuRdCtrl_data :
    ((tasks env).debugCpuRdCtrl m).1.getLsbD 1 =
      env.level (((tasks env).debugCpuRdCtrl m).2.1.edges.length - 88) := by
  rw [tasks_debugCpuRdCtrl]
  unfold debugCpuRdCtrl
  extract_lets command l₀ l₁ l₂ l₃ l₄ l₅ l₆ data l₇ data' l₈ read
  have unused : l₈.edges.length = l₇.edges.length + 50 := by
    have rounds : l₈ = genClk env 50 l₇ := forDown_genClk 50 l₇
    rw [rounds, length_genClk]
  have status : read.2.edges.length = l₈.edges.length + 4 := length_readStatus _ l₈
  rw [length_receiveCrc]
  change data'.getLsbD 1 = env.level (read.2.edges.length + 34 - 88)
  have place : read.2.edges.length + 34 - 88 = l₇.edges.length := by omega
  rw [place]
  exact getLsbD_putBit data (by decide) _

end Processor

/-- `module_select`. -/
theorem scans_moduleSelect (chain : Word) (m : Machine Link) :
    Scans [scanOf ([true] ++ msbFirst (chain.setWidth 4 : BitVec 4)) 0] m.1
      ((tasks env).moduleSelect chain m).1 := by
  rw [scanOf, Nat.zero_add]
  exact (scan_moduleSelect _ false m.1).scans

end OrpsocCores.VpiDebugModule
