import Mathlib.Data.List.Induction
import OrpsocCores.JpVpi.Bridge

/-!
# The two sides of the debug bridge in lockstep

Every call of the debug server is a conversation with the loop of the simulator.
`Call.direct` says what a call is for, without pipes: the tasks it runs in the
simulator, the value they produce and the chain they are run on.  The programs of
the two sides are taken through their conversation item by item, and the theorems
on networks do the rest: in every scheduling of the two processes each item is
read as what it was written for, and a call that has returned leaves the pipes
empty and has done what `Call.direct` says (`lockstep`).
-/

set_option autoImplicit false

namespace OrpsocCores.JpVpi

open Network

variable {σ : Type}

/-! ## Words and commands as bytes -/

@[simp] theorem length_wordBytes (w : Word) : (wordBytes w).length = 4 := rfl

@[simp] theorem wordOf_wordBytes (w : Word) : wordOf (wordBytes w) = w := by
  apply eq_of_lane_eq
  intro b
  exact lane_append (fun i => lane w i) b

theorem Command.decode_code (cmd : Command) : Command.decode cmd.code = some cmd := by
  cases cmd <;> rfl

/-! ## The items, one by one -/

/-- The words of a block in the storage. -/
def storeWords : List Word → Nat → Storage → Storage
  | [], _, storage => storage
  | data :: rest, loadedWords, storage =>
      storeWords rest (loadedWords + 1)
        (Function.update storage (slot loadedWords) data)

section

variable (T : Tasks σ) {γ : Type}

/-- A command is acknowledged, and the simulator goes to its case. -/
theorem exchange_command (cmd : Command) (s : Sim σ) :
    Exchange (main T) (sendCommandToVpi cmd) (.ret s) () ((serve T s cmd).bind respond) := by
  unfold sendCommandToVpi
  refine Exchange.up rfl rfl (Exchange.down rfl rfl ?_)
  simp only [List.headD_cons, Command.decode_code, if_true]
  exact Exchange.ret () _

theorem exchange_data (kind : Kind) (w : Word) (g : Word → Simulator (Sim σ)) :
    Exchange (main T) (sendDataToVpi kind w) ((getCommandData kind).bind g) () (g w) := by
  unfold sendDataToVpi
  refine Exchange.up rfl rfl ?_
  simp only [wordOf_wordBytes]
  exact Exchange.ret () _

theorem exchange_word (w : Word) (k : Unit → Simulator (Sim σ)) :
    Exchange (main T) getWordFromVpi ((returnCommandData 4 w).bind k) w (k ()) := by
  unfold getWordFromVpi
  refine Exchange.down rfl rfl ?_
  rw [List.take_of_length_le (Nat.le_of_eq (length_wordBytes w)), wordOf_wordBytes]
  exact Exchange.ret w _

theorem exchange_byte (w : Word) (k : Unit → Simulator (Sim σ)) :
    Exchange (main T) getByteFromVpi ((returnCommandData 1 w).bind k) (lane w 0) (k ()) := by
  unfold getByteFromVpi
  exact Exchange.down rfl rfl (Exchange.ret _ _)

theorem exchange_loadWords (data : List Word) (loadedWords : Nat) (storage : Storage)
    (g : Storage → Simulator (Sim σ)) :
    Exchange (main T) (sendBlockDataToVpi data)
      ((loadWords data.length loadedWords storage).bind g) ()
      (g (storeWords data loadedWords storage)) := by
  induction data generalizing loadedWords storage with
  | nil => exact Exchange.ret () _
  | cons w rest ih =>
      unfold sendBlockDataToVpi
      refine Exchange.up rfl rfl ?_
      simp only [wordOf_wordBytes]
      exact ih (loadedWords + 1) _

theorem exchange_sendWords (words : List Word) (k : Unit → Simulator (Sim σ)) :
    Exchange (main T) (getBlockDataFromVpi words.length) ((sendWords words).bind k) words
      (k ()) := by
  induction words with
  | nil => exact Exchange.ret [] _
  | cons w rest ih =>
      refine Exchange.down rfl rfl ?_
      simp only [wordOf_wordBytes]
      exact ih.bind (Exchange.ret _ _)

theorem exchange_response (s : Sim σ) :
    Exchange (main T) getResponseFromVpi (respond s) () (.ret s) :=
  Exchange.down rfl rfl (Exchange.ret () _)

end

/-! ## What a call is for -/

/-- Selecting a chain, unless it is the one selected last. -/
def select (T : Tasks σ) (chain : Word) (x : Chains × Sim σ) : Chains × Sim σ :=
  if x.1.currentChain = chain then x
  else (⟨chain, chain⟩, ⟨T.moduleSelect chain x.2.machine, some chain⟩)

/-- Running a task of the simulator. -/
def Sim.run (task : Machine σ → Machine σ) (s : Sim σ) : Sim σ :=
  { s with machine := task s.machine }

/-- Writing the control register of the processor. -/
def writeCtrl (T : Tasks σ) (reset stall : Word) (x : Chains × Sim σ) : Chains × Sim σ :=
  let (v, s) := select T x.1.dbgChain x
  (v, s.run (T.debugCpuWrCtrl (((stall &&& 1) ||| ((reset &&& 1) <<< 1)).setWidth 2)))

/-- Reading the control register of the processor. -/
def readCtrl (T : Tasks σ) (x : Chains × Sim σ) : (Word × Word) × Chains × Sim σ :=
  let (v, s) := select T x.1.dbgChain x
  let resp : Word := (T.debugCpuRdCtrl s.machine).1.setWidth 32
  ((resp &&& 1, (resp >>> 1) &&& 1), v, s.run fun m => (T.debugCpuRdCtrl m).2)

/-- The tasks that write a block take it from the storage. -/
def withBlock (data : List Word) (task : Machine σ → Machine σ) (m : Machine σ) : Machine σ :=
  task (m.1, storeWords data 0 m.2)

/-- What a call does to the chains and the simulator, and what it returns. -/
def Call.direct (T : Tasks σ) (x : Chains × Sim σ) : Call → (Result × Chains) × Sim σ
  | .reset =>
      let (id, machine) := T.readIdCode (T.setInstruction jiIdcode (T.resetTap x.2.machine))
      ((.word id, { x.1 with currentChain := noChain }),
        ⟨T.setInstruction jiDebug machine, none⟩)
  | .setChain chain =>
      let (v, s) := select T chain x
      ((.none, v), s)
  | .ctrl r st =>
      let (v, s) := writeCtrl T r st x
      ((.none, v), s)
  | .ctrlRead =>
      let ((r, st), v, s) := readCtrl T x
      ((.ctrl r st, v), s)
  | .wbRead32 adr =>
      let (v, s) := select T dcWishbone x
      ((.word (T.wbRead32 adr s.machine).1, v), s.run fun m => (T.wbRead32 adr m).2)
  | .wbRead8 adr =>
      let (v, s) := select T dcWishbone x
      ((.byte ((wordBytes (T.wbRead8 adr s.machine).1).headD 0), v), s.run fun m => (T.wbRead8 adr m).2)
  | .wbWrite32 adr data =>
      let (v, s) := select T dcWishbone x
      ((.none, v), s.run (T.wbWrite32 data adr))
  | .wbWrite16 adr data =>
      let (v, s) := select T dcWishbone x
      ((.none, v), s.run (T.wbWrite16 data adr))
  | .wbWrite8 adr data =>
      let (v, s) := select T dcWishbone x
      ((.none, v), s.run (T.wbWrite8 data adr))
  | .wbReadBlock32 adr len =>
      let (v, s) := select T dcWishbone x
      let s := s.run (T.wbBlockRead32 adr (BitVec.ofNat 32 len))
      ((.words (firstWords s.machine.2 (len / 4)), v), s)
  | .wbWriteBlock32 adr data =>
      let (v, s) := select T dcWishbone x
      ((.none, v),
        s.run (withBlock data (T.wbBlockWrite32 adr (BitVec.ofNat 32 (4 * data.length)))))
  | .cpu0Read adr length =>
      let (v, s) := select T dcCpu0 x
      let s := s.run (if 4 < length then T.cpuReadBlock adr (BitVec.ofNat 32 length)
        else T.cpuRead32 adr)
      ((.words (firstWords s.machine.2 (length / 4)), v), s)
  | .cpu0Write adr data =>
      let (v, s) := select T dcCpu0 x
      ((.none, v),
        s.run (withBlock data
          (if 1 < data.length then T.cpuWriteBlock adr (BitVec.ofNat 32 (4 * data.length))
          else T.cpuWrite32 (data.headD 0) adr)))
  | .cpu0WriteCtrl data =>
      let (v, s) := writeCtrl T ((data &&& 2).setWidth 32) ((data &&& 1).setWidth 32)
        (select T dcCpu0 x)
      ((.none, v), s)
  | .cpu0ReadCtrl =>
      let ((r, st), v, s) := readCtrl T (select T dcCpu0 x)
      ((.byte (((r <<< 1) ||| st).setWidth 8), v), s)

/-! ## Every call, taken through its conversation -/

section

variable (T : Tasks σ)

/-- The cases of the simulator's loop, with the response behind them. -/
theorem serve_setDebugChain (s : Sim σ) :
    (serve T s .setDebugChain).bind respond = (getCommandData .data).bind fun chain =>
      respond ⟨T.moduleSelect chain s.machine, some chain⟩ :=
  rfl

theorem serve_wbRd32 (s : Sim σ) :
    (serve T s .wbRd32).bind respond = (getCommandData .address).bind fun adr =>
      (returnCommandData 4 (T.wbRead32 adr s.machine).1).bind fun _ =>
        respond (s.run fun m => (T.wbRead32 adr m).2) :=
  rfl

theorem serve_wbRd8 (s : Sim σ) :
    (serve T s .wbRd8).bind respond = (getCommandData .address).bind fun adr =>
      (returnCommandData 1 (T.wbRead8 adr s.machine).1).bind fun _ =>
        respond (s.run fun m => (T.wbRead8 adr m).2) :=
  rfl

theorem serve_cpuCtrlWr (s : Sim σ) :
    (serve T s .cpuCtrlWr).bind respond = (getCommandData .data).bind fun ctrl =>
      respond (s.run (T.debugCpuWrCtrl (ctrl.setWidth 2))) :=
  rfl

theorem serve_cpuCtrlRd (s : Sim σ) :
    (serve T s .cpuCtrlRd).bind respond =
      (returnCommandData 4 ((T.debugCpuRdCtrl s.machine).1.setWidth 32)).bind fun _ =>
        respond (s.run fun m => (T.debugCpuRdCtrl m).2) :=
  rfl

/-- The task that writes this many bytes. -/
def writeTask (size data adr : Word) : Machine σ → Machine σ :=
  if size = 4 then T.wbWrite32 data adr
  else if size = 2 then T.wbWrite16 (data.setWidth 16) adr
  else if size = 1 then T.wbWrite8 (data.setWidth 8) adr
  else id

theorem serve_wbWr (s : Sim σ) :
    (serve T s .wbWr).bind respond = (getCommandData .address).bind fun adr =>
      (getCommandData .length).bind fun size => (getCommandData .data).bind fun data =>
        respond (s.run (writeTask T size data adr)) := by
  simp only [serve, Proc.bind_def, Proc.bind_assoc]
  congr
  funext adr
  congr
  funext size
  congr
  funext data
  unfold writeTask
  split
  · rfl
  · split
    · rfl
    · split
      · rfl
      · rfl

theorem serve_wbBlockWr32 (s : Sim σ) :
    (serve T s .wbBlockWr32).bind respond = (getCommandData .address).bind fun adr =>
      (getCommandData .length).bind fun len =>
        (getCommandBlockData len s.machine.2).bind fun storage =>
          respond ⟨T.wbBlockWrite32 adr len (s.machine.1, storage), s.selected⟩ := by
  simp only [serve, Proc.bind_def, Proc.pure_def, Proc.bind_assoc, Proc.ret_bind]

theorem serve_wbBlockRd32 (s : Sim σ) :
    (serve T s .wbBlockRd32).bind respond = (getCommandData .address).bind fun adr =>
      (getCommandData .length).bind fun len =>
        (returnCommandBlockData len (T.wbBlockRead32 adr len s.machine).2).bind fun _ =>
          respond (s.run (T.wbBlockRead32 adr len)) := by
  simp only [serve, Proc.bind_def, Proc.pure_def, Proc.bind_assoc, Proc.ret_bind]
  rfl

/-- The task that reads registers of the processor. -/
def registerRead (adr length : Word) : Machine σ → Machine σ :=
  if 4 < length.toInt then T.cpuReadBlock adr length else T.cpuRead32 adr

theorem serve_cpuRdReg (s : Sim σ) :
    (serve T s .cpuRdReg).bind respond = (getCommandData .address).bind fun adr =>
      (getCommandData .length).bind fun len =>
        (returnCommandBlockData len (registerRead T adr len s.machine).2).bind fun _ =>
          respond (s.run (registerRead T adr len)) := by
  simp only [serve, Proc.bind_def, Proc.pure_def, Proc.bind_assoc, Proc.ret_bind, registerRead,
    Sim.run, apply_ite (fun f : Machine σ → Machine σ => f s.machine)]

/-- The task that writes registers of the processor. -/
def registerWrite (adr length : Word) (m : Machine σ) : Machine σ :=
  if 4 < length.toInt then T.cpuWriteBlock adr length m else T.cpuWrite32 (m.2 (slot 0)) adr m

theorem serve_cpuWrReg (s : Sim σ) :
    (serve T s .cpuWrReg).bind respond = (getCommandData .address).bind fun adr =>
      (getCommandData .length).bind fun len =>
        (getCommandBlockData len s.machine.2).bind fun storage =>
          respond ⟨registerWrite T adr len (s.machine.1, storage), s.selected⟩ := by
  simp only [serve, Proc.bind_def, Proc.bind_assoc]
  congr
  funext adr
  congr
  funext len
  congr
  funext storage
  unfold registerWrite
  split
  · rfl
  · rfl

theorem serve_jtagSetIr (s : Sim σ) :
    (serve T s .jtagSetIr).bind respond = (getCommandData .data).bind fun instruction =>
      respond (s.run (T.setInstruction instruction)) :=
  rfl

theorem serve_reset (s : Sim σ) :
    (serve T s .reset).bind respond = respond ⟨T.resetTap s.machine, none⟩ :=
  rfl

theorem serve_readJtagId (s : Sim σ) :
    (serve T s .readJtagId).bind respond =
      (returnCommandData 4 (T.readIdCode s.machine).1).bind fun _ =>
        respond (s.run fun m => (T.readIdCode m).2) :=
  rfl

theorem exchange_setChain (chain : Word) (x : Chains × Sim σ) :
    Exchange (main T) (dbgSetChain chain x.1) (.ret x.2) (select T chain x).1
      (.ret (select T chain x).2) := by
  unfold dbgSetChain select
  split
  · exact Exchange.ret _ _
  · refine (exchange_command T .setDebugChain x.2).bind ?_
    rw [serve_setDebugChain]
    refine (exchange_data T .data chain _).bind ?_
    refine (exchange_response T _).bind ?_
    exact Exchange.ret _ _

theorem exchange_wbRead32 (adr : Word) (x : Chains × Sim σ) :
    let y := select T dcWishbone x
    Exchange (main T) (dbgWbRead32 adr x.1) (.ret x.2) ((T.wbRead32 adr y.2.machine).1, y.1)
      (.ret (y.2.run fun m => (T.wbRead32 adr m).2)) := by
  refine (exchange_setChain T dcWishbone x).bind ?_
  refine (exchange_command T .wbRd32 _).bind ?_
  rw [serve_wbRd32]
  refine (exchange_data T .address adr _).bind ?_
  refine (exchange_word T _ _).bind ?_
  refine (exchange_response T _).bind ?_
  exact Exchange.ret _ _

theorem exchange_wbRead8 (adr : Word) (x : Chains × Sim σ) :
    let y := select T dcWishbone x
    Exchange (main T) (dbgWbRead8 adr x.1) (.ret x.2) (lane (T.wbRead8 adr y.2.machine).1 0, y.1)
      (.ret (y.2.run fun m => (T.wbRead8 adr m).2)) := by
  refine (exchange_setChain T dcWishbone x).bind ?_
  refine (exchange_command T .wbRd8 _).bind ?_
  rw [serve_wbRd8]
  refine (exchange_data T .address adr _).bind ?_
  refine (exchange_byte T _ _).bind ?_
  refine (exchange_response T _).bind ?_
  exact Exchange.ret _ _

theorem exchange_wbWrite (size adr data : Word) (x : Chains × Sim σ) :
    let y := select T dcWishbone x
    Exchange (main T) (dbgWbWrite size adr data x.1) (.ret x.2) y.1
      (.ret (y.2.run (writeTask T size data adr))) := by
  refine (exchange_setChain T dcWishbone x).bind ?_
  refine (exchange_command T .wbWr _).bind ?_
  rw [serve_wbWr]
  refine (exchange_data T .address adr _).bind ?_
  refine (exchange_data T .length size _).bind ?_
  refine (exchange_data T .data data _).bind ?_
  refine (exchange_response T _).bind ?_
  exact Exchange.ret _ _

theorem exchange_ctrl (r st : Word) (x : Chains × Sim σ) :
    Exchange (main T) (dbgCtrl r st x.1) (.ret x.2) (writeCtrl T r st x).1
      (.ret (writeCtrl T r st x).2) := by
  refine (exchange_setChain T x.1.dbgChain x).bind ?_
  refine (exchange_command T .cpuCtrlWr _).bind ?_
  rw [serve_cpuCtrlWr]
  refine (exchange_data T .data _ _).bind ?_
  refine (exchange_response T _).bind ?_
  exact Exchange.ret _ _

/-- Selecting the chain that should be selected once more changes nothing. -/
theorem select_dbgChain_twice (x : Chains × Sim σ) :
    select T (select T x.1.dbgChain x).1.dbgChain (select T x.1.dbgChain x) =
      select T x.1.dbgChain x := by
  by_cases here : x.1.currentChain = x.1.dbgChain
  · have same : select T x.1.dbgChain x = x := if_pos here
    rw [same, same]
  · have there : select T x.1.dbgChain x = (⟨x.1.dbgChain, x.1.dbgChain⟩, _) := if_neg here
    rw [there]
    exact if_pos rfl

theorem exchange_ctrlRead (x : Chains × Sim σ) :
    Exchange (main T) (dbgCtrlRead x.1) (.ret x.2) ((readCtrl T x).1, (readCtrl T x).2.1)
      (.ret (readCtrl T x).2.2) := by
  refine (exchange_setChain T x.1.dbgChain x).bind ?_
  refine (exchange_setChain T _ _).bind ?_
  rw [select_dbgChain_twice]
  refine (exchange_command T .cpuCtrlRd _).bind ?_
  rw [serve_cpuCtrlRd]
  refine (exchange_word T _ _).bind ?_
  refine (exchange_response T _).bind ?_
  exact Exchange.ret _ _

theorem exchange_cpu0ReadCtrl (x : Chains × Sim σ) :
    let y := readCtrl T (select T dcCpu0 x)
    Exchange (main T) (dbgCpu0ReadCtrl x.1) (.ret x.2)
      (((y.1.1 <<< 1) ||| y.1.2).setWidth 8, y.2.1) (.ret y.2.2) := by
  refine (exchange_setChain T dcCpu0 x).bind ?_
  refine (exchange_ctrlRead T _).bind ?_
  exact Exchange.ret _ _

theorem exchange_reset (x : Chains × Sim σ) :
    let m := T.setInstruction jiIdcode (T.resetTap x.2.machine)
    Exchange (main T) (dbgReset x.1) (.ret x.2)
      ((T.readIdCode m).1, { x.1 with currentChain := noChain })
      (.ret ⟨T.setInstruction jiDebug (T.readIdCode m).2, none⟩) := by
  refine (exchange_command T .reset _).bind ?_
  rw [serve_reset]
  refine (exchange_response T _).bind ?_
  refine (exchange_command T .jtagSetIr _).bind ?_
  rw [serve_jtagSetIr]
  refine (exchange_data T .data jiIdcode _).bind ?_
  refine (exchange_response T _).bind ?_
  refine (exchange_command T .readJtagId _).bind ?_
  rw [serve_readJtagId]
  refine (exchange_word T _ _).bind ?_
  refine (exchange_response T _).bind ?_
  refine (exchange_command T .jtagSetIr _).bind ?_
  rw [serve_jtagSetIr]
  refine (exchange_data T .data jiDebug _).bind ?_
  refine (exchange_response T _).bind ?_
  exact Exchange.ret _ _

/-- The number of words of a block, as the simulator computes it. -/
theorem BlockLength.words {len : Nat} (block : BlockLength len) :
    (BitVec.ofNat 32 len).toNat / 4 = len / 4 := by
  obtain ⟨-, -, fits⟩ := block
  rw [BitVec.toNat_ofNat, Nat.mod_eq_of_lt (by omega)]

theorem exchange_blockData (data : List Word) (block : BlockLength (4 * data.length))
    (storage : Storage) (g : Storage → Simulator (Sim σ)) :
    Exchange (main T) (sendBlockDataToVpi data)
      ((getCommandBlockData (BitVec.ofNat 32 (4 * data.length)) storage).bind g) ()
      (g (storeWords data 0 storage)) := by
  have words : (BitVec.ofNat 32 (4 * data.length)).toNat / 4 = data.length := by
    rw [block.words]
    omega
  have fits : ¬ 4096 < data.length := by
    have bound := block.2.2
    omega
  rw [getCommandBlockData, words, if_neg fits]
  exact exchange_loadWords T data 0 storage g

theorem exchange_returnBlock {len : Nat} (block : BlockLength len) (storage : Storage)
    (k : Unit → Simulator (Sim σ)) :
    Exchange (main T) (getBlockDataFromVpi (len / 4))
      ((returnCommandBlockData (BitVec.ofNat 32 len) storage).bind k)
      (firstWords storage (len / 4)) (k ()) := by
  have length : (firstWords storage (len / 4)).length = len / 4 := by
    rw [firstWords, List.length_map, List.length_range]
  have whole := exchange_sendWords T (firstWords storage (len / 4)) k
  rwa [length, ← block.words, ← returnCommandBlockData, block.words] at whole

/-- A read of a block, for a command whose case in the loop runs this task. -/
theorem exchange_readBlock (chain adr : Word) {len : Nat} (block : BlockLength len)
    {cmd : Command} {task : Word → Word → Machine σ → Machine σ}
    (served : ∀ s, (serve T s cmd).bind respond = (getCommandData .address).bind fun adr =>
      (getCommandData .length).bind fun len =>
        (returnCommandBlockData len (task adr len s.machine).2).bind fun _ =>
          respond (s.run (task adr len)))
    (x : Chains × Sim σ) :
    let y := select T chain x
    let m := task adr (BitVec.ofNat 32 len) y.2.machine
    Exchange (main T) (readBlock chain cmd adr len x.1) (.ret x.2) (firstWords m.2 (len / 4), y.1)
      (.ret ⟨m, y.2.selected⟩) := by
  refine (exchange_setChain T chain x).bind ?_
  refine (exchange_command T cmd _).bind ?_
  rw [served]
  refine (exchange_data T .address adr _).bind ?_
  refine (exchange_data T .length _ _).bind ?_
  refine (exchange_returnBlock T block _ _).bind ?_
  refine (exchange_response T _).bind ?_
  exact Exchange.ret _ _

/-- A write of a block, for a command whose case in the loop runs this task. -/
theorem exchange_writeBlock (chain adr : Word) {data : List Word}
    (block : BlockLength (4 * data.length)) {cmd : Command}
    {task : Word → Word → Machine σ → Machine σ}
    (served : ∀ s, (serve T s cmd).bind respond = (getCommandData .address).bind fun adr =>
      (getCommandData .length).bind fun len =>
        (getCommandBlockData len s.machine.2).bind fun storage =>
          respond ⟨task adr len (s.machine.1, storage), s.selected⟩)
    (x : Chains × Sim σ) :
    let y := select T chain x
    Exchange (main T) (writeBlock chain cmd adr data x.1) (.ret x.2) y.1
      (.ret (y.2.run (withBlock data (task adr (BitVec.ofNat 32 (4 * data.length)))))) := by
  refine (exchange_setChain T chain x).bind ?_
  refine (exchange_command T cmd _).bind ?_
  rw [served]
  refine (exchange_data T .address adr _).bind ?_
  refine (exchange_data T .length _ _).bind ?_
  refine (exchange_blockData T data block _ _).bind ?_
  refine (exchange_response T _).bind ?_
  exact Exchange.ret _ _

/-- The comparison of a length with four bytes, as the simulator makes it. -/
theorem BlockLength.toInt {len : Nat} (block : BlockLength len) :
    4 < (BitVec.ofNat 32 len).toInt ↔ 4 < len := by
  obtain ⟨-, -, fits⟩ := block
  rw [BitVec.toInt_eq_toNat_of_lt (by rw [BitVec.toNat_ofNat]; omega), BitVec.toNat_ofNat,
    Nat.mod_eq_of_lt (by omega)]
  omega

theorem registerRead_eq (adr : Word) {length : Nat} (block : BlockLength length) :
    registerRead T adr (BitVec.ofNat 32 length) =
      if 4 < length then T.cpuReadBlock adr (BitVec.ofNat 32 length) else T.cpuRead32 adr := by
  simp only [registerRead, block.toInt]

theorem withBlock_registerWrite (adr : Word) {data : List Word}
    (block : BlockLength (4 * data.length)) :
    withBlock data (registerWrite T adr (BitVec.ofNat 32 (4 * data.length))) =
      withBlock data
        (if 1 < data.length then T.cpuWriteBlock adr (BitVec.ofNat 32 (4 * data.length))
        else T.cpuWrite32 (data.headD 0) adr) := by
  have several : 4 < 4 * data.length ↔ 1 < data.length := by omega
  funext m
  simp only [withBlock, registerWrite, block.toInt, several]
  split
  · rfl
  · next single =>
      -- a single word is the first of the storage
      obtain ⟨w, rfl⟩ : ∃ w, data = [w] := by
        apply List.length_eq_one_iff.mp
        have positive := block.1
        omega
      rw [storeWords, storeWords]
      exact congrArg (fun word => T.cpuWrite32 word adr _) (Function.update_self ..)

/-- **A call and the loop of the simulator carry out the call.** -/
theorem Call.exchange (call : Call) (valid : call.Valid) (x : Chains × Sim σ) :
    Exchange (main T) (call.program x.1) (.ret x.2) (call.direct T x).1
      (.ret (call.direct T x).2) := by
  cases call with
  | reset => exact (exchange_reset T x).bind (Exchange.ret _ _)
  | setChain chain => exact (exchange_setChain T chain x).bind (Exchange.ret _ _)
  | ctrl r st => exact (exchange_ctrl T r st x).bind (Exchange.ret _ _)
  | ctrlRead => exact (exchange_ctrlRead T x).bind (Exchange.ret _ _)
  | wbRead32 adr => exact (exchange_wbRead32 T adr x).bind (Exchange.ret _ _)
  | wbRead8 adr => exact (exchange_wbRead8 T adr x).bind (Exchange.ret _ _)
  | wbWrite32 adr data => exact (exchange_wbWrite T 4 adr data x).bind (Exchange.ret _ _)
  | wbWrite16 adr data =>
      have exchange := exchange_wbWrite T 2 adr (data.setWidth 32) x
      have task : writeTask T 2 (data.setWidth 32) adr = T.wbWrite16 data adr := by
        simp [writeTask]
      rw [task] at exchange
      exact exchange.bind (Exchange.ret _ _)
  | wbWrite8 adr data =>
      have exchange := exchange_wbWrite T 1 adr (data.setWidth 32) x
      have task : writeTask T 1 (data.setWidth 32) adr = T.wbWrite8 data adr := by
        simp [writeTask]
      rw [task] at exchange
      exact exchange.bind (Exchange.ret _ _)
  | wbReadBlock32 adr len =>
      exact (exchange_readBlock T dcWishbone adr valid (serve_wbBlockRd32 T) x).bind
        (Exchange.ret _ _)
  | wbWriteBlock32 adr data =>
      exact (exchange_writeBlock T dcWishbone adr valid (serve_wbBlockWr32 T) x).bind
        (Exchange.ret _ _)
  | cpu0Read adr length =>
      have exchange := exchange_readBlock T dcCpu0 adr valid (serve_cpuRdReg T) x
      rw [registerRead_eq T adr valid] at exchange
      exact exchange.bind (Exchange.ret _ _)
  | cpu0Write adr data =>
      have exchange := exchange_writeBlock T dcCpu0 adr valid (serve_cpuWrReg T) x
      rw [withBlock_registerWrite T adr valid] at exchange
      exact exchange.bind (Exchange.ret _ _)
  | cpu0WriteCtrl data =>
      exact ((exchange_setChain T dcCpu0 x).bind (exchange_ctrl T _ _ _)).bind (Exchange.ret _ _)
  | cpu0ReadCtrl => exact (exchange_cpu0ReadCtrl T x).bind (Exchange.ret _ _)

/-! ## The loop of the simulator -/

theorem main_polls : Polls (main T) :=
  fun _ => ⟨.command, .command, 0, _, rfl⟩

theorem main_responding (s : Sim σ) : Responding (main T s) := by
  intro data
  refine .inr ?_
  exact responding_bind Down.vpiToRsp ⟨Kind.response, [0]⟩ (List.cons_ne_nil _ _) id _

end

/-! ## The selected chain -/

/-- The chain a call names. -/
def Call.chain : Call → Option Word
  | .reset | .ctrl _ _ | .ctrlRead => none
  | .setChain chain => some chain
  | .wbRead32 _ | .wbRead8 _ | .wbWrite32 _ _ | .wbWrite16 _ _ | .wbWrite8 _ _ => some dcWishbone
  | .wbReadBlock32 _ _ | .wbWriteBlock32 _ _ => some dcWishbone
  | .cpu0Read _ _ | .cpu0Write _ _ | .cpu0WriteCtrl _ | .cpu0ReadCtrl => some dcCpu0

/-- The chain named by the last of the calls that name one. -/
def chainNamed (calls : List Call) : Option Word :=
  calls.foldl (fun last call => call.chain.or last) none

/-- The chain a call needs after these calls: `dbg_ctrl` and `dbg_ctrl_read` work on
the chain that should be currently selected. -/
def Call.needs (earlier : List Call) : Call → Option Word
  | .ctrl _ _ | .ctrlRead => chainNamed earlier
  | call => call.chain

/-- What the server knows of the selected chain, when this one was named last. -/
structure Knows (named : Option Word) (x : Chains × Sim σ) : Prop where
  current : x.1.currentChain ≠ noChain → x.2.selected = some x.1.currentChain
  wanted : x.1.currentChain ≠ noChain → x.1.dbgChain = x.1.currentChain
  last : ∀ chain, named = some chain → chain ≠ noChain → x.1.dbgChain = chain

theorem select_selected {named : Option Word} {x : Chains × Sim σ} (knows : Knows named x)
    (T : Tasks σ) {chain : Word} (real : chain ≠ noChain) :
    (select T chain x).2.selected = some chain := by
  unfold select
  split
  · next here =>
      rw [knows.current (here ▸ real), here]
  · rfl

theorem Knows.select {named : Option Word} {x : Chains × Sim σ} (knows : Knows named x)
    (T : Tasks σ) (chain : Word) : Knows (some chain) (select T chain x) := by
  unfold JpVpi.select
  split
  · next here =>
      refine ⟨knows.current, knows.wanted, ?_⟩
      intro chain' same real
      obtain rfl := Option.some.inj same
      rw [← here] at real
      rw [knows.wanted real, here]
  · exact ⟨fun _ => rfl, fun _ => rfl, fun _ same _ => Option.some.inj same⟩

theorem Knows.select_dbgChain {named : Option Word} {x : Chains × Sim σ} (knows : Knows named x)
    (T : Tasks σ) : Knows named (JpVpi.select T x.1.dbgChain x) := by
  have after := knows.select T x.1.dbgChain
  refine ⟨after.current, after.wanted, ?_⟩
  intro chain same real
  have before := knows.last chain same real
  rw [before] at after ⊢
  exact after.last chain rfl real

/-- The tasks of a command leave the chains alone. -/
theorem Knows.of_selected {named : Option Word} {v : Chains} {s s' : Sim σ}
    (knows : Knows named (v, s)) (same : s'.selected = s.selected) : Knows named (v, s') :=
  ⟨fun real => same.trans (knows.current real), knows.wanted, knows.last⟩

/-- What is known after a call. -/
theorem Knows.direct {named : Option Word} {x : Chains × Sim σ} (knows : Knows named x)
    (T : Tasks σ) (call : Call) :
    Knows (call.chain.or named) ((call.direct T x).1.2, (call.direct T x).2) := by
  cases call with
  | reset =>
      exact ⟨fun real => absurd rfl real, fun real => absurd rfl real, knows.last⟩
  | setChain chain => exact knows.select T chain
  | ctrl r st => exact (knows.select_dbgChain T).of_selected rfl
  | ctrlRead => exact (knows.select_dbgChain T).of_selected rfl
  | wbRead32 | wbRead8 | wbWrite32 | wbWrite16 | wbWrite8 | wbReadBlock32 | wbWriteBlock32 =>
      exact (knows.select T dcWishbone).of_selected rfl
  | cpu0Read | cpu0Write => exact (knows.select T dcCpu0).of_selected rfl
  | cpu0WriteCtrl | cpu0ReadCtrl =>
      exact ((knows.select T dcCpu0).select_dbgChain T).of_selected rfl

theorem direct_selected {earlier : List Call} {x : Chains × Sim σ}
    (knows : Knows (chainNamed earlier) x) (T : Tasks σ) {call : Call} {chain : Word}
    (needs : call.needs earlier = some chain) (real : chain ≠ noChain) :
    (call.direct T x).2.selected = some chain := by
  have onlySome : ∀ {c : Word}, some c = some chain → c = chain := Option.some.inj
  cases call with
  | reset => exact absurd needs (by simp [Call.needs, Call.chain])
  | setChain c =>
      obtain rfl := onlySome needs
      exact select_selected knows T real
  | ctrl | ctrlRead =>
      have same := knows.last chain needs real
      rw [← same] at real ⊢
      exact select_selected knows T real
  | wbRead32 | wbRead8 | wbWrite32 | wbWrite16 | wbWrite8 | wbReadBlock32 | wbWriteBlock32 =>
      obtain rfl := onlySome needs
      exact select_selected knows T real
  | cpu0Read | cpu0Write =>
      obtain rfl := onlySome needs
      exact select_selected knows T real
  | cpu0WriteCtrl | cpu0ReadCtrl =>
      obtain rfl := onlySome needs
      have selected := knows.select T dcCpu0
      have same := selected.last dcCpu0 rfl real
      have wanted : (select T dcCpu0 x).1.dbgChain ≠ noChain := by
        rw [same]
        exact real
      exact (select_selected selected T wanted).trans (congrArg some same)

/-! ## Every run -/

/-- The server and the simulator on their way through some calls. -/
abbrev Bridge (σ : Type) := Session Call Up Down Kind Byte (Result × Chains) (Sim σ)

/-- The program of a call, after what the last one has left. -/
def callProgram (a : Result × Chains) (call : Call) : Server (Result × Chains) :=
  call.program a.2

/-- Any scheduling of the two processes. -/
abbrev Bridge.Steps (T : Tasks σ) : Bridge σ → Bridge σ → Prop :=
  Session.Steps (main T) callProgram

/-- Before the first call no chain has been selected. -/
def Bridge.start (machine : Machine σ) (calls : List Call) : Bridge σ :=
  Session.start ((.none, ⟨noChain, noChain⟩), ⟨machine, none⟩) calls

/-- The calls carried out one after the other: the last result, and the chains and
the simulator they leave. -/
def carriedOut (T : Tasks σ) (machine : Machine σ) (calls : List Call) :
    (Result × Chains) × Sim σ :=
  Session.outcome (fun call x => call.direct T (x.1.2, x.2))
    ((.none, ⟨noChain, noChain⟩), ⟨machine, none⟩) calls

theorem carriedOut_append (T : Tasks σ) (machine : Machine σ) (calls : List Call) (call : Call) :
    carriedOut T machine (calls ++ [call]) =
      call.direct T ((carriedOut T machine calls).1.2, (carriedOut T machine calls).2) :=
  Session.outcome_append ..

theorem carriedOut_knows (T : Tasks σ) (machine : Machine σ) (calls : List Call) :
    Knows (chainNamed calls)
      ((carriedOut T machine calls).1.2, (carriedOut T machine calls).2) := by
  induction calls using List.reverseRecOn with
  | nil =>
      exact ⟨fun real => absurd rfl real, fun real => absurd rfl real,
        fun _ never => absurd never (by simp [chainNamed])⟩
  | append_singleton calls call ih =>
      rw [carriedOut_append, chainNamed, List.foldl_append]
      exact ih.direct T call

section

variable (T : Tasks σ) (machine : Machine σ) {calls : List Call}

theorem meets_direct (valid : ∀ call ∈ calls, call.Valid) (call : Call) (inside : call ∈ calls)
    (x : (Result × Chains) × Sim σ) :
    Meets (main T) (callProgram x.1 call) (.ret x.2) (call.direct T (x.1.2, x.2)).1
      (call.direct T (x.1.2, x.2)).2 :=
  (call.exchange T (valid call inside) (x.1.2, x.2)).meets

theorem Bridge.completes (valid : ∀ call ∈ calls, call.Valid) {t : Bridge σ}
    (reach : Bridge.Steps T (.start machine calls) t) :
    Bridge.Steps T t ⟨calls, [], .quiet (.ret (carriedOut T machine calls).1)
      (.ret (carriedOut T machine calls).2)⟩ :=
  Session.completes (main_polls T) (main_responding T) (meets_direct T valid) reach

end

/-- **Lockstep.**  In every scheduling of the two processes no item is read as
anything but what it was written for, and the calls can be completed.  Whenever a
call has returned, the pipes are empty, the result and the simulator are those of
the calls carried out one after the other, and the chain selected last is the one
the call needs. -/
theorem lockstep (T : Tasks σ) (machine : Machine σ) (calls : List Call)
    (valid : ∀ call ∈ calls, call.Valid) (t : Bridge σ)
    (reach : Bridge.Steps T (.start machine calls) t) :
    t.net.misread = false ∧
      (∃ u, Bridge.Steps T t u ∧ u.made = calls ∧ ∃ a, u.net.client = .ret a) ∧
      ∀ a, t.net.client = .ret a →
        (∀ p, t.net.up p = []) ∧ (∀ p, t.net.down p = []) ∧
          ∃ s, t.net.server = .ret s ∧ (a, s) = carriedOut T machine t.made ∧
            ∀ earlier call chain, t.made = earlier ++ [call] →
              call.needs earlier = some chain → chain ≠ noChain → s.selected = some chain := by
  have polls := main_polls T
  have responds := main_responding T
  have meets := meets_direct T valid
  refine ⟨Session.never_misread polls responds meets reach,
    ⟨_, Bridge.completes T machine valid reach, rfl, _, rfl⟩, ?_⟩
  intro a returned
  have settled : t.net = .quiet (.ret (carriedOut T machine t.made).1)
      (.ret (carriedOut T machine t.made).2) :=
    Session.returned polls responds meets reach returned
  rw [settled] at returned ⊢
  obtain rfl := Proc.ret.inj returned
  refine ⟨fun _ => rfl, fun _ => rfl, _, rfl, rfl, ?_⟩
  intro earlier call chain last needs real
  rw [last, carriedOut_append]
  exact direct_selected (carriedOut_knows T machine earlier) T needs real

/-- Tasks that only keep track of the selected module, and read zeros. -/
def moduleTasks : Tasks Word where
  resetTap m := m
  setInstruction _ m := m
  moduleSelect chain m := (chain, m.2)
  debugCpuWrCtrl _ m := m
  debugCpuRdCtrl m := (0, m)
  cpuWriteBlock _ _ m := m
  cpuWrite32 _ _ m := m
  cpuReadBlock _ _ m := m
  cpuRead32 _ m := m
  wbWrite32 _ _ m := m
  wbWrite16 _ _ m := m
  wbWrite8 _ _ m := m
  wbRead32 _ m := (0, m)
  wbRead8 _ m := (0, m)
  wbBlockWrite32 _ _ m := m
  wbBlockRead32 _ _ m := m
  readIdCode m := (0, m)

/-- A reset, a block written to the memory and the control register of the
processor. -/
theorem lockstep_threeCalls :
    ∃ t : Bridge Word, t.made = [.reset, .wbWriteBlock32 0x100 [1, 2], .cpu0ReadCtrl] ∧
      t.net.misread = false ∧ (∀ p, t.net.up p = []) ∧ (∀ p, t.net.down p = []) ∧
      ∃ s, t.net.server = .ret s ∧ s.selected = some dcCpu0 := by
  let calls : List Call := [.reset, .wbWriteBlock32 0x100 [1, 2], .cpu0ReadCtrl]
  have valid : ∀ call ∈ calls, call.Valid := by
    simp [calls, Call.Valid, BlockLength]
  have reach := Bridge.completes moduleTasks (0, fun _ => 0) valid .refl
  obtain ⟨never, -, whenever⟩ := lockstep moduleTasks (0, fun _ => 0) calls valid _ reach
  obtain ⟨up, down, s, server, -, selected⟩ := whenever _ rfl
  exact ⟨_, rfl, never, up, down, s, server,
    selected [.reset, .wbWriteBlock32 0x100 [1, 2]] .cpu0ReadCtrl dcCpu0 rfl rfl (by decide)⟩

/-- After an access to the memory `dbg_ctrl` finds, and keeps, the chain of the
memory: it does not select the one of the processor. -/
theorem ctrl_keeps_wishbone_chain :
    ∃ t : Bridge Word, Bridge.Steps moduleTasks
        (.start (0, fun _ => 0) [.wbRead32 0x100, .ctrl 0 1]) t ∧
      t.made = [.wbRead32 0x100, .ctrl 0 1] ∧ (∃ a, t.net.client = .ret a) ∧
      ∃ s, t.net.server = .ret s ∧ s.selected = some dcWishbone ∧
        s.selected ≠ some dcCpu0 := by
  have valid : ∀ call ∈ [Call.wbRead32 0x100, .ctrl 0 1], call.Valid := by
    simp [Call.Valid]
  have reach := Bridge.completes moduleTasks (0, fun _ => 0) valid .refl
  have selected : (carriedOut moduleTasks (0, fun _ => 0)
      [.wbRead32 0x100, .ctrl 0 1]).2.selected = some dcWishbone := rfl
  refine ⟨_, reach, rfl, ⟨_, rfl⟩, _, rfl, selected, ?_⟩
  rw [selected]
  decide

end OrpsocCores.JpVpi
