import Mathlib.Data.List.Induction
import OrpsocCores.Gdb.DebugAccess
import OrpsocCores.VpiDebugModule.Transfers

/-!
# The debug accesses on the link

From an access of the server to the pins of the debug interface: the access is one call
(`DebugAccess`), the call asks the simulator over three pipes (`JpVpi`), and the tasks of its
debug module drive a test access port (`VpiDebugModule`).  This module puts the levels together.

A data register behind the port takes over the scans of the accesses, one by one, with a
selection of the chain in front of those that need another one (`scansOf`); and a reading
access gives what `tdo` was at the edges in front of the status of its last scan
(`Op.incoming`).  Of the hardware only that is asked that a wait for `tdo` to go low ends.

What is written to several registers at once is shown as `debug_cpu_go` shifts it, with the
first bit of a word taken from the word before it.  `Op.scans_writeRegs` says when that is the
words.
-/

set_option autoImplicit false

namespace OrpsocCores.Gdb

open Crc Network VpiDebugModule
open JpVpi (Call Chains Sim Machine Bridge dcWishbone dcCpu0 noChain carriedOut)

/-! ## The accesses as scans -/

namespace Op

/-- The chain of an access. -/
def chain : Op → JpVpi.Word
  | .readByte _ | .writeByte _ _ | .readWords _ _ | .writeWords _ _ => dcWishbone
  | .readReg _ | .writeReg _ _ | .readRegs _ _ | .writeRegs _ _ | .writeCtrl _ | .readCtrl => dcCpu0

/-- The data bits of a write of registers. -/
def registerBits (data : List (BitVec 32)) : List Bool := wordBits data fun i => (i - 1) / 32

/-- The scans of an access on its chain. -/
def scans : Op → List (List (Option Bool))
  | .readByte adr =>
      [commandScan DBG_WB_WR_COMM DBG_WB_READ8 adr 0, goScan DBG_WB_GO [] 8]
  | .writeByte adr data =>
      [commandScan DBG_WB_WR_COMM DBG_WB_WRITE8 adr 0, goScan DBG_WB_GO (msbFirst data) 0]
  | .readWords adr words =>
      [commandScan DBG_WB_WR_COMM DBG_WB_READ32 adr (BitVec.ofNat 16 (4 * words - 1)),
        goScan DBG_WB_GO [] (32 * words)]
  | .writeWords adr data =>
      [commandScan DBG_WB_WR_COMM DBG_WB_WRITE32 adr (BitVec.ofNat 16 (4 * data.length - 1)),
        goScan DBG_WB_GO (data.flatMap msbFirst) 0]
  | .readReg adr => [commandScan DBG_CPU_WR_COMM DBG_CPU_READ adr 3, goScan DBG_CPU_GO [] 32]
  | .writeReg adr data =>
      [commandScan DBG_CPU_WR_COMM DBG_CPU_WRITE
          (if adr = DebugAccess.jtagRiscop then 0x00 else adr) 3,
        goScan DBG_CPU_GO (msbFirst data) 0]
  | .readRegs adr words =>
      [commandScan DBG_CPU_WR_COMM DBG_CPU_READ adr (BitVec.ofNat 16 (4 * words - 1)),
        goScan DBG_CPU_GO [] (32 * words)]
  | .writeRegs adr data =>
      [commandScan DBG_CPU_WR_COMM DBG_CPU_WRITE adr (BitVec.ofNat 16 (4 * data.length - 1)),
        goScan DBG_CPU_GO (registerBits data) 0]
  -- the stall bit behind the reset bit, which is never set
  | .writeCtrl data =>
      [scanOf ([false] ++ msbFirst DBG_CPU_WR_CTRL ++ [false, data.getLsbD 0] ++
        List.replicate 50 false) 0]
  | .readCtrl => [scanOf ([false] ++ msbFirst DBG_CPU_RD_CTRL) 52]

/-- What an access gives that has come to this state of the link. -/
def incoming (env : Surroundings) (l : Link) : Op → Outcome
  | .readByte _ => .byte ((l.incoming env 8 1).headD 0)
  | .readReg _ => .word ((l.incoming env 32 1).headD 0)
  | .readWords _ words | .readRegs _ words => .words (l.incoming env 32 words)
  -- the second of 52 bits, in front of the status, the check and the way back to idle; it is
  -- looked at after the edge
  | .readCtrl => .stalled (env.level (l.edges.length - 88))
  | .writeByte _ _ | .writeWords _ _ | .writeReg _ _ | .writeRegs _ _ | .writeCtrl _ => .none

/-- **Registers that are written at once** get the words exactly when neighbouring words begin
with the same bit. -/
theorem scans_writeRegs (data : List (BitVec 32)) :
    registerBits data = data.flatMap msbFirst ↔ ∀ k, k + 1 < data.length →
      (data.getD k 0).getLsbD 31 = (data.getD (k + 1) 0).getLsbD 31 :=
  wordBits_late_iff data

end Op

/-- The scan that selects a chain, if another one is selected. -/
def selection (selected : Option JpVpi.Word) (chain : JpVpi.Word) : List (List (Option Bool)) :=
  if selected = some chain then []
  else [scanOf ([true] ++ msbFirst (chain.setWidth 4 : BitVec 4)) 0]

/-- The scans of some accesses, when this chain is selected before them. -/
def scansOf : Option JpVpi.Word → List Op → List (List (Option Bool))
  | _, [] => []
  | selected, op :: ops => selection selected op.chain ++ op.scans ++ scansOf (some op.chain) ops

/-- The chain that is selected behind some accesses. -/
def selectedBy (selected : Option JpVpi.Word) (ops : List Op) : Option JpVpi.Word :=
  ops.foldl (fun _ op => some op.chain) selected

theorem scansOf_append (selected : Option JpVpi.Word) (ops : List Op) (op : Op) :
    scansOf selected (ops ++ [op]) =
      scansOf selected ops ++ (selection (selectedBy selected ops) op.chain ++ op.scans) := by
  induction ops generalizing selected with
  | nil => simp [scansOf, selectedBy]
  | cons first ops ih =>
      rw [List.cons_append, scansOf, ih, scansOf]
      simp only [List.append_assoc, selectedBy, List.foldl_cons]

/-! ## One access -/

variable {env : Surroundings} {x : Chains × Sim Link} {selected : Option JpVpi.Word}

/-- What the server takes to be selected. -/
structure Chosen (selected : Option JpVpi.Word) (v : Chains) : Prop where
  current : v.currentChain = selected.getD noChain
  wanted : ∀ chain, selected = some chain → v.dbgChain = chain

theorem chosen_both (chain : JpVpi.Word) : Chosen (some chain) ⟨chain, chain⟩ :=
  ⟨rfl, fun _ same => Option.some.inj same⟩

/-- Selecting the chain of an access. -/
theorem Chosen.select (chosen : Chosen selected x.1) {chain : JpVpi.Word}
    (real : chain ≠ noChain) :
    (JpVpi.select (tasks env) chain x).1 = ⟨chain, chain⟩ ∧
      Scans (selection selected chain) x.2.machine.1
        (JpVpi.select (tasks env) chain x).2.machine.1 := by
  obtain ⟨⟨currentChain, dbgChain⟩, s⟩ := x
  have current : currentChain = selected.getD noChain := chosen.current
  unfold JpVpi.select selection
  cases selected with
  | none =>
      have other : currentChain ≠ chain := by rw [current]; exact real.symm
      rw [if_neg other, if_neg (by simp)]
      exact ⟨rfl, scans_moduleSelect chain s.machine⟩
  | some last =>
      have wanted : dbgChain = last := chosen.wanted last rfl
      by_cases same : last = chain
      · subst same
        have here : currentChain = last := current
        rw [if_pos here, if_pos rfl, here, wanted]
        exact ⟨rfl, Scans.refl _⟩
      · have other : currentChain ≠ chain := by rw [current]; exact same
        rw [if_neg other, if_neg fun equal => same (Option.some.inj equal)]
        exact ⟨rfl, scans_moduleSelect chain s.machine⟩

theorem Op.chain_ne_noChain (op : Op) : op.chain ≠ noChain := by
  cases op with
  | readByte | writeByte | readWords | writeWords => exact (by decide : dcWishbone ≠ noChain)
  | readReg | writeReg | readRegs | writeRegs | writeCtrl | readCtrl =>
      exact (by decide : dcCpu0 ≠ noChain)

/-- The two bits that `dbg_cpu0_write_ctrl` writes. -/
def ctrlOf (data : Byte) : BitVec 2 :=
  ((((data &&& 1).setWidth 32 &&& 1) |||
    ((((data &&& 2).setWidth 32 : BitVec 32) &&& 1) <<< 1) : BitVec 32).setWidth 2)

/-- The byte that `dbg_cpu0_read_ctrl` makes of the two bits it reads. -/
def statusOf (bits : BitVec 2) : Byte :=
  (((((bits.setWidth 32 : BitVec 32) &&& 1) <<< 1) |||
    (((bits.setWidth 32 : BitVec 32) >>> 1) &&& 1) : BitVec 32).setWidth 8)

theorem getLsbD_statusOf (bits : BitVec 2) : (statusOf bits).getLsbD 0 = bits.getLsbD 1 := by
  simp [statusOf]

theorem getLsbD_ctrlOf (data : Byte) :
    (ctrlOf data).getLsbD 0 = data.getLsbD 0 ∧ (ctrlOf data).getLsbD 1 = false := by
  constructor
  · simp [ctrlOf]
  · simp [ctrlOf]

/-- The control register is written with the stall bit alone. -/
theorem ctrlBits_ctrlOf (data : Byte) :
    ctrlBits ((ctrlOf data).setWidth 52) = [false] ++ msbFirst DBG_CPU_WR_CTRL ++
      [false, data.getLsbD 0] ++ List.replicate 50 false := by
  obtain ⟨stall, reset⟩ := getLsbD_ctrlOf data
  rw [ctrlBits, BitVec.getLsbD_setWidth, BitVec.getLsbD_setWidth, stall, reset]
  rfl

/-! ### The control register -/

section Control

variable {σ : Type} {T : JpVpi.Tasks σ} {y : Chains × Sim σ}

/-- Selecting the chain again. -/
theorem select_again {chain : JpVpi.Word} (now : y.1 = ⟨chain, chain⟩) :
    JpVpi.select T y.1.dbgChain y = y := by
  rw [now]
  exact if_pos (congrArg Chains.currentChain now)

theorem direct_cpu0WriteCtrl (now : (JpVpi.select T dcCpu0 y).1 = ⟨dcCpu0, dcCpu0⟩)
    (data : Byte) :
    (Call.cpu0WriteCtrl data).direct T y =
      ((.none, (JpVpi.select T dcCpu0 y).1),
        (JpVpi.select T dcCpu0 y).2.run (T.debugCpuWrCtrl (ctrlOf data))) := by
  simp only [Call.direct, JpVpi.writeCtrl, select_again now]
  rfl

theorem direct_cpu0ReadCtrl (now : (JpVpi.select T dcCpu0 y).1 = ⟨dcCpu0, dcCpu0⟩) :
    Call.cpu0ReadCtrl.direct T y =
      ((.byte (statusOf (T.debugCpuRdCtrl (JpVpi.select T dcCpu0 y).2.machine).1),
        (JpVpi.select T dcCpu0 y).1),
        (JpVpi.select T dcCpu0 y).2.run fun m => (T.debugCpuRdCtrl m).2) := by
  simp only [Call.direct, JpVpi.readCtrl, select_again now]
  rfl

end Control

/-- The task of an access, behind the selection of its chain. -/
def Op.task (env : Surroundings) : Op → Machine Link → Machine Link
  | .readByte adr => fun m => ((tasks env).wbRead8 adr m).2
  | .writeByte adr data => (tasks env).wbWrite8 data adr
  | .readWords adr words => (tasks env).wbBlockRead32 adr (BitVec.ofNat 32 (4 * words))
  | .writeWords adr data =>
      JpVpi.withBlock data ((tasks env).wbBlockWrite32 adr (BitVec.ofNat 32 (4 * data.length)))
  | .readReg adr => (tasks env).cpuRead32 adr
  | .writeReg adr data =>
      JpVpi.withBlock [data]
        ((tasks env).cpuWrite32 data (if adr = DebugAccess.jtagRiscop then 0x00 else adr))
  | .readRegs adr words =>
      if 4 < 4 * words then (tasks env).cpuReadBlock adr (BitVec.ofNat 32 (4 * words))
      else (tasks env).cpuRead32 adr
  | .writeRegs adr data =>
      JpVpi.withBlock data
        (if 1 < data.length then (tasks env).cpuWriteBlock adr (BitVec.ofNat 32 (4 * data.length))
        else (tasks env).cpuWrite32 (data.headD 0) adr)
  | .writeCtrl data => (tasks env).debugCpuWrCtrl (ctrlOf data)
  | .readCtrl => fun m => ((tasks env).debugCpuRdCtrl m).2

/-- **What a task shifts.** -/
theorem Op.scans_task {op : Op} (valid : op.Valid) (m : Machine Link) :
    Scans op.scans m.1 (op.task env m).1 := by
  cases op with
  | readByte adr => exact scans_wbRead8 adr m
  | writeByte adr data => exact scans_wbWrite8 adr m data
  | readWords adr words => exact scans_wbBlockRead32 adr m valid
  | writeWords adr data => exact scans_wbBlockWrite32 adr m valid
  | readReg adr =>
      have read := @scans_cpuRead env adr m 1 Op.blockLength_word
      rw [if_neg (by decide)] at read
      exact read
  | writeReg adr data =>
      have written := @scans_cpuWrite env (if adr = DebugAccess.jtagRiscop then 0x00 else adr) m
        [data] (Op.blockLength_single data)
      have single : ¬ 1 < [data].length := Nat.lt_irrefl 1
      rw [wordBits_single data fun i inside => by omega, if_neg single] at written
      exact written
  | readRegs adr words => exact scans_cpuRead adr m valid
  | writeRegs adr data => exact scans_cpuWrite adr m valid
  | writeCtrl data =>
      have written := @scans_debugCpuWrCtrl env m (ctrlOf data)
      rw [ctrlBits_ctrlOf] at written
      exact written
  | readCtrl => exact scans_debugCpuRdCtrl m

/-- What a task returns, from the machine in front of it. -/
def Op.result (env : Surroundings) (m : Machine Link) : Op → JpVpi.Result
  | .readByte adr => .byte ((JpVpi.wordBytes ((tasks env).wbRead8 adr m).1).headD 0)
  | .readWords adr words =>
      .words (JpVpi.firstWords ((Op.readWords adr words).task env m).2 (4 * words / 4))
  | .readReg adr => .words (JpVpi.firstWords ((Op.readReg adr).task env m).2 1)
  | .readRegs adr words =>
      .words (JpVpi.firstWords ((Op.readRegs adr words).task env m).2 (4 * words / 4))
  | .readCtrl => .byte (statusOf ((tasks env).debugCpuRdCtrl m).1)
  | .writeByte _ _ | .writeWords _ _ | .writeReg _ _ | .writeRegs _ _ | .writeCtrl _ => .none

/-- **What a task reads.** -/
theorem Op.outcome_result {op : Op} (valid : op.Valid) (m : Machine Link) :
    op.outcome (op.result env m) = op.incoming env (op.task env m).1 := by
  cases op with
  | readByte adr =>
      rw [Op.incoming, Op.task, ← wbRead8_data adr m]
      rfl
  | readWords adr words =>
      have whole : 4 * words / 4 = words := by omega
      rw [Op.incoming, Op.result, whole, Op.task, ← wbBlockRead32_data adr m valid]
      rfl
  | readReg adr =>
      have read := @cpuRead_data env adr m 1 Op.blockLength_word
      rw [if_neg (Nat.lt_irrefl 4)] at read
      rw [Op.incoming, Op.task, ← read]
      rfl
  | readRegs adr words =>
      have whole : 4 * words / 4 = words := by omega
      rw [Op.incoming, Op.result, whole, Op.task, ← cpuRead_data adr m valid]
      rfl
  | readCtrl =>
      rw [Op.incoming, Op.task, ← debugCpuRdCtrl_data m]
      exact congrArg Outcome.stalled (getLsbD_statusOf _)
  | writeByte | writeWords | writeReg | writeRegs | writeCtrl => rfl

/-- An access over the bridge selects its chain and runs its task. -/
theorem Chosen.direct (chosen : Chosen selected x.1) (op : Op) :
    op.call.direct (tasks env) x =
      ((op.result env (JpVpi.select (tasks env) op.chain x).2.machine, ⟨op.chain, op.chain⟩),
        (JpVpi.select (tasks env) op.chain x).2.run (op.task env)) := by
  have now : (JpVpi.select (tasks env) op.chain x).1 = ⟨op.chain, op.chain⟩ :=
    (chosen.select op.chain_ne_noChain).1
  rw [← now]
  cases op with
  | readByte | writeByte | readWords | writeWords | readRegs | writeRegs => rfl
  | readReg adr => 
      rfl
  | writeReg adr data =>
      rfl
  | writeCtrl data => exact direct_cpu0WriteCtrl now data
  | readCtrl => exact direct_cpu0ReadCtrl now

/-- **An access over the bridge.** -/
theorem Op.scanned (chosen : Chosen selected x.1) {op : Op} (valid : op.Valid) :
    Chosen (some op.chain) (op.call.direct (tasks env) x).1.2 ∧
      Scans (selection selected op.chain ++ op.scans) x.2.machine.1
        (op.call.direct (tasks env) x).2.machine.1 ∧
      op.outcome (op.call.direct (tasks env) x).1.1 =
        op.incoming env (op.call.direct (tasks env) x).2.machine.1 := by
  obtain ⟨-, selecting⟩ := chosen.select op.chain_ne_noChain
  rw [chosen.direct]
  exact ⟨chosen_both op.chain, selecting.trans (op.scans_task valid _), op.outcome_result valid _⟩

/-! ## Every run -/

variable (env) (machine : Machine Link)

/-- The chains and the simulator after a reset and some accesses. -/
def afterOps (ops : List Op) : Chains × Sim Link :=
  ((carriedOut (tasks env) machine (.reset :: ops.map Op.call)).1.2,
    (carriedOut (tasks env) machine (.reset :: ops.map Op.call)).2)

theorem carriedOut_ops (ops : List Op) (op : Op) :
    carriedOut (tasks env) machine (.reset :: (ops ++ [op]).map Op.call) =
      op.call.direct (tasks env) (afterOps env machine ops) := by
  rw [List.map_append, List.map_singleton, ← List.cons_append, JpVpi.carriedOut_append]
  rfl

theorem afterOps_append (ops : List Op) (op : Op) :
    afterOps env machine (ops ++ [op]) =
      ((op.call.direct (tasks env) (afterOps env machine ops)).1.2,
        (op.call.direct (tasks env) (afterOps env machine ops)).2) := by
  rw [afterOps, carriedOut_ops]

/-- The link behind the reset. -/
def afterReset : Link := (afterOps env machine []).2.machine.1

/-- **The reset leaves the controller idle**, whatever its state was before. -/
theorem afterReset_idle (power : TapController.State) :
    ((afterReset env machine).tap power).state = .runTestIdle := by
  have rest : Returns (start env machine.1) (afterReset env machine) :=
    (returns_setInstruction _ _).trans ((returns_readIdCode _).trans (returns_setInstruction _ _))
  exact rest.tap (start_idle power machine.1)

/-- The link behind some accesses. -/
theorem afterOps_scans {ops : List Op} (valid : ∀ op ∈ ops, op.Valid) :
    Chosen (selectedBy none ops) (afterOps env machine ops).1 ∧
      Scans (scansOf none ops) (afterReset env machine) (afterOps env machine ops).2.machine.1 := by
  induction ops using List.reverseRecOn with
  | nil => exact ⟨⟨rfl, fun _ never => absurd never (Option.some_ne_none _).symm⟩, Scans.refl _⟩
  | append_singleton ops op ih =>
      obtain ⟨chosen, scans⟩ := ih fun o inside => valid o (List.mem_append_left _ inside)
      have last := valid op (List.mem_append_right _ (List.mem_singleton_self op))
      obtain ⟨chosen', scans', -⟩ := Op.scanned chosen last
      rw [afterOps_append, scansOf_append, selectedBy, List.foldl_append]
      exact ⟨chosen', scans.trans scans'⟩

/-- **The debug accesses on the link.**  In every scheduling of the server and the simulator, when
an access has returned, a data register behind the controller has taken over, since the reset,
the scans of the accesses and no others, whatever state the controller was powered up in.  The
access has succeeded, whatever chain was set before it, and what it has read is what `tdo` was. -/
theorem accesses_scanned {before rest : List Op} {op : Op}
    (valid : ∀ o ∈ before ++ [op] ++ rest, o.Valid) {r : Bridge Link}
    (reach : Bridge.Steps (tasks env)
      (.start machine (.reset :: (before ++ [op] ++ rest).map Op.call)) r)
    (made : r.made = .reset :: (before ++ [op]).map Op.call)
    {a : JpVpi.Result × Chains} (returned : r.net.client = .ret a) :
    ∃ s, r.net.server = .ret s ∧
      (∀ power, s.machine.1.taken power =
        (afterReset env machine).taken power ++ scansOf none (before ++ [op])) ∧
      ∀ gdbChain old, (op.access gdbChain old).answer a.1 =
        (.errNone, op.incoming env s.machine.1) := by
  have validCalls : ∀ call ∈ Call.reset :: (before ++ [op] ++ rest).map Op.call, call.Valid := by
    intro call inside
    rcases List.mem_cons.mp inside with rfl | inside
    · trivial
    · obtain ⟨o, member, rfl⟩ := List.mem_map.mp inside
      exact (valid o member).call
  have settled : r.net = .quiet (.ret (carriedOut (tasks env) machine r.made).1)
      (.ret (carriedOut (tasks env) machine r.made).2) :=
    Session.returned (JpVpi.main_polls (tasks env)) (JpVpi.main_responding (tasks env))
      (JpVpi.meets_direct (tasks env) validCalls) reach returned
  have validOps := fun o inside => valid o (List.mem_append_left rest inside)
  have earlier := fun o inside => validOps o (List.mem_append_left [op] inside)
  obtain ⟨chosen, -⟩ := afterOps_scans env machine earlier
  obtain ⟨-, scans⟩ := afterOps_scans env machine validOps
  obtain ⟨-, -, outcome⟩ := Op.scanned chosen
    (validOps op (List.mem_append_right before (List.mem_singleton_self op)))
  rw [afterOps_append] at scans
  rw [made, carriedOut_ops] at settled
  rw [settled] at returned ⊢
  obtain rfl := Proc.ret.inj returned
  refine ⟨_, rfl, fun power => scans.taken (afterReset_idle env machine power), ?_⟩
  intro gdbChain old
  rw [Op.access_eq]
  exact congrArg (Prod.mk EnumErrors.errNone) outcome

/-- A byte is written and read back, while `tdo` stays low: the chain is selected once. -/
theorem accesses_scanned_byte :
    ∃ r : Bridge Link,
      r.made = .reset :: [Op.writeByte 0x100 5, .readByte 0x100].map Op.call ∧
      ∃ a, r.net.client = .ret a ∧
        ((Op.readByte 0x100).access none []).answer a.1 = (.errNone, .byte 0) ∧
        ∃ s, r.net.server = .ret s ∧ ∀ power, s.machine.1.taken power =
          (afterReset quiet (poweredUp, fun _ => 0)).taken power ++
            [scanOf [true, false, false, false, false] 0,
              commandScan DBG_WB_WR_COMM DBG_WB_WRITE8 0x100 0,
              goScan DBG_WB_GO [false, false, false, false, false, true, false, true] 0,
              commandScan DBG_WB_WR_COMM DBG_WB_READ8 0x100 0, goScan DBG_WB_GO [] 8] := by
  let ops : List Op := [.writeByte 0x100 5, .readByte 0x100]
  let machine : Machine Link := (poweredUp, fun _ => 0)
  have valid : ∀ op ∈ ops, op.Valid := by simp [ops, Op.Valid]
  have validCalls : ∀ call ∈ Call.reset :: ops.map Op.call, call.Valid := by
    simp [ops, Op.call, Call.Valid]
  obtain ⟨r, reach, made, a, returned⟩ :
      ∃ r, Bridge.Steps (tasks quiet) (.start machine (.reset :: ops.map Op.call)) r ∧
        r.made = .reset :: ops.map Op.call ∧ ∃ a, r.net.client = .ret a :=
    ⟨_, Bridge.completes (tasks quiet) machine validCalls .refl, rfl, _, rfl⟩
  obtain ⟨s, server, taken, read⟩ :=
    @accesses_scanned quiet machine [.writeByte 0x100 5] [] (.readByte 0x100) valid r reach made
      a returned
  refine ⟨r, made, a, returned, ?_, s, server, taken⟩
  have low : s.machine.1.incoming quiet 8 1 = [0] := by
    rw [incoming_one]
    congr 1
    apply BitVec.eq_of_getLsbD_eq
    intro i inside
    rw [getLsbD_bitsAt _ inside]
    exact BitVec.getLsbD_zero.symm
  rw [read none [], Op.incoming, low]
  rfl

end OrpsocCores.Gdb
