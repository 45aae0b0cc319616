import OrpsocCores.VpiDebugModule.Frames

/-!
# The commands on the debug link

The command loop of the bridge calls the tasks of this module.  A test access port
controller that is driven by the pins, and may have been powered up in any state, is in
run-test/idle whenever the loop looks for a command, and again when the command is over.
What it shifts in between is known bit by bit: a frame out, with its check, and as many
bits in as the task reads (`frame_structure`).  The number of polls in pause-DR is not
seen in it.
-/

set_option autoImplicit false

namespace OrpsocCores.VpiDebugModule

open Crc JpVpi Network TapController

variable {env : Surroundings} {l l' l'' : Link}

/-- A controller powered up in this state, behind all the edges so far. -/
def Link.tap (power : State) (l : Link) : Tap (Option Bool) := Tap.after ⟨power, [], []⟩ l.edges

/-- What an idle controller makes of the edges since the registers were these. -/
def Link.since (l l' : Link) : Tap (Option Bool) := Tap.idle.after (l'.edges.drop l.edges.length)

theorem since_eq {edges : List (Edge (Option Bool))} (made : l'.edges = l.edges ++ edges) :
    l.since l' = Tap.idle.after edges := by
  rw [Link.since, made, List.drop_left]

/-! ## The frames of the tasks -/

/-- A task that shifts so many bits out and so many in, and nothing else, and comes back
to run-test/idle. -/
structure Framed (out inn : Nat) (l l' : Link) : Prop where
  state : (l.since l').state = .runTestIdle
  dr : ∃ bits : List Bool, bits.length = out ∧
    (l.since l').dr = bits.map some ++ List.replicate inn none
  ir : (l.since l').ir = []

theorem Scan.since {bits : List (Option Bool)} (scan : Scan bits l l') :
    l.since l' = ⟨.runTestIdle, bits, []⟩ := by
  obtain ⟨edges, made, shifted, -⟩ := scan.edges
  rw [since_eq made, shifted]

theorem framed_of_scan {bits : List Bool} {genCrcErr : Bool} {header n : Nat}
    (scan : Scan (frame genCrcErr bits ++ List.replicate n none) l l')
    (long : bits.length = header) : Framed (header + 32) n l l' := by
  refine ⟨?_, ?_, ?_⟩
  · rw [scan.since]
  · refine ⟨bits ++ checkBits genCrcErr (bits.foldl calculateCrc (BitVec.allOnes 32)), ?_, ?_⟩
    · rw [List.length_append, length_checkBits, long]
    · rw [scan.since, frame]
  · rw [scan.since]

theorem length_commandBits (command accType : BitVec 4) (addr : Word) (length : BitVec 16) :
    (commandBits command accType addr length).length = 1 + 4 + 4 + 32 + 16 := by
  simp [commandBits]

theorem length_ctrlBits (data : BitVec 52) : (ctrlBits data).length = 1 + 4 + 52 := by
  simp [ctrlBits]

theorem length_storageBits (storage : Storage) (word : Nat → Nat) (n : Nat) :
    (storageBits env storage word n).length = n := by
  rw [storageBits, List.length_map, List.length_range]

theorem length_header (command : BitVec 4) (payload : List Bool) :
    ([false] ++ msbFirst command ++ payload).length = 1 + 4 + payload.length := by
  rw [List.length_append, List.length_append, length_msbFirst, List.length_singleton]

theorem length_wbPayload (m : Machine Link) :
    (wbPayload env m).length = if m.1.wbWrites then m.1.lengthGlobal.toNat * 8 else 0 := by
  unfold wbPayload
  split
  · exact length_storageBits _ _ _
  · rfl

theorem length_cpuPayload (m : Machine Link) :
    (cpuPayload env m).length =
      if m.1.lastCpuCmd = DBG_CPU_WRITE then m.1.lengthGlobal.toNat * 8 else 0 := by
  unfold cpuPayload
  split
  · exact length_storageBits _ _ _
  · rfl

theorem framed_debugWishboneGo (waitForWbReady genCrcErr : Bool) (m : Machine Link) :
    Framed (1 + 4 + (if m.1.wbWrites then m.1.lengthGlobal.toNat * 8 else 0) + 32)
      ((if m.1.wbReads then m.1.lengthGlobal.toNat * 8 else 0) + 4 + 32) m.1
      (debugWishboneGo env waitForWbReady genCrcErr m).1 := by
  apply framed_of_scan (scan_debugWishboneGo waitForWbReady genCrcErr m)
  rw [length_header, length_wbPayload]

theorem framed_debugCpuGo (waitForCpuReady genCrcErr : Bool) (m : Machine Link) :
    Framed
      (1 + 4 + (if m.1.lastCpuCmd = DBG_CPU_WRITE then m.1.lengthGlobal.toNat * 8 else 0) + 32)
      ((if m.1.lastCpuCmd = DBG_CPU_READ then m.1.lengthGlobal.toNat * 8 else 0) + 4 + 32) m.1
      (debugCpuGo env waitForCpuReady genCrcErr m).1 := by
  apply framed_of_scan (scan_debugCpuGo waitForCpuReady genCrcErr m)
  rw [length_header, length_cpuPayload]

/-! ## Back to idle -/

/-- Edges that take an idle controller back to idle. -/
def Returns (l l' : Link) : Prop :=
  ∃ edges, l'.edges = l.edges ++ edges ∧ (Tap.idle.after edges).state = .runTestIdle

theorem Returns.refl (l : Link) : Returns l l := ⟨[], (List.append_nil _).symm, rfl⟩

theorem Returns.trans (first : Returns l l') (second : Returns l' l'') : Returns l l'' := by
  obtain ⟨edges, made, idle⟩ := first
  obtain ⟨edges', made', idle'⟩ := second
  refine ⟨edges ++ edges', by rw [made', made, List.append_assoc], ?_⟩
  rw [after_append, after_of_idle idle, idle']

theorem Returns.tap {power : State} (returns : Returns l l')
    (idle : (l.tap power).state = .runTestIdle) : (l'.tap power).state = .runTestIdle := by
  obtain ⟨edges, made, back⟩ := returns
  rw [Link.tap, made, after_append, ← Link.tap, after_of_idle idle, back]

theorem Scan.returns {bits : List (Option Bool)} (scan : Scan bits l l') : Returns l l' := by
  obtain ⟨edges, made, shifted, -⟩ := scan.edges
  exact ⟨edges, made, by rw [shifted]⟩

theorem returns_setInstruction (instr : BitVec 4) (l : Link) :
    Returns l (setInstruction env instr l) :=
  ⟨_, setInstruction_edges instr l, by rw [after_scan_ir]⟩

theorem returns_readIdCode (l : Link) : Returns l (readIdCode env l).2 :=
  ⟨_, readIdCode_edges l, by rw [after_scan _ _ _ (shifts_shifting _)]⟩

theorem start_edges (l : Link) :
    (start env l).edges = l.edges ++ (List.replicate 5 ⟨true, l.tdi⟩ ++ [⟨false, l.tdi⟩]) := by
  simp [start, gotoRunTestIdle, resetTap]

/-- **The reset leads to run-test/idle**, from any state. -/
theorem start_idle (power : State) (l : Link) :
    ((start env l).tap power).state = .runTestIdle := by
  have reset := after_replicate_reset (Tap.after ⟨power, [], []⟩ l.edges) l.tdi (le_refl 5)
  rw [Link.tap, start_edges, after_append, after_append, after_cons, after_nil, Tap.step, reset]
  rfl

theorem returns_start (l : Link) : Returns l (start env l) := by
  refine ⟨_, start_edges l, ?_⟩
  have reset := after_replicate_reset Tap.idle l.tdi (le_refl 5)
  rw [after_append, after_cons, after_nil, Tap.step, reset]
  rfl

theorem Returns.setWb (returns : Returns l l') (accType : BitVec 4) (lengthGlobal : BitVec 19) :
    Returns l { l' with lastWbCmd := accType, lengthGlobal := lengthGlobal } :=
  returns

theorem Returns.setCpu (returns : Returns l l') (accType : BitVec 4) (lengthGlobal : BitVec 19) :
    Returns l { l' with lastCpuCmd := accType, lengthGlobal := lengthGlobal } :=
  returns

theorem returns_wbTransfer (accType : BitVec 4) (addr : Word) (length : BitVec 16)
    (lengthGlobal : BitVec 19) (waitForWbReady : Bool) (l : Link) (storage : Storage) :
    Returns l (wbTransfer env accType addr length lengthGlobal waitForWbReady (l, storage)).1 := by
  unfold wbTransfer
  extract_lets l₁
  have command : Returns l l₁ := (scan_debugWishboneWrComm accType addr length false l).returns
  exact (command.setWb accType lengthGlobal).trans
    (scan_debugWishboneGo waitForWbReady false (_, storage)).returns

theorem returns_cpuTransfer (accType : BitVec 4) (addr : Word) (length : BitVec 16)
    (lengthGlobal : BitVec 19) (l : Link) (storage : Storage) :
    Returns l (cpuTransfer env accType addr length lengthGlobal (l, storage)).1 := by
  unfold cpuTransfer
  extract_lets l₁
  have command : Returns l l₁ := (scan_debugCpuWrComm accType addr length false l).returns
  exact (command.setCpu accType lengthGlobal).trans
    (scan_debugCpuGo false false (_, storage)).returns

/-! ## The command loop -/

/-- A program of the simulator behind which an idle controller is idle again. -/
def Settles (s : Sim Link) (p : Simulator (Sim Link)) : Prop :=
  p.Ensures fun s' => Returns s.machine.1 s'.machine.1

theorem settles_pure {s : Sim Link} {machine : Machine Link} {selected : Option Word}
    (returns : Returns s.machine.1 machine.1) : Settles s (pure ⟨machine, selected⟩) :=
  returns

theorem tasks_resetTap (m : Machine Link) :
    (tasks env).resetTap m = (start env m.1, m.2) := rfl

theorem tasks_setInstruction (jtagInstnVal : Word) (m : Machine Link) :
    (tasks env).setInstruction jtagInstnVal m =
      (setInstruction env (jtagInstnVal.setWidth 4) m.1, m.2) := rfl

theorem tasks_moduleSelect (setChainVal : Word) (m : Machine Link) :
    (tasks env).moduleSelect setChainVal m =
      (moduleSelect env (setChainVal.setWidth 4) false m.1, m.2) := rfl

theorem tasks_debugCpuWrCtrl (cpuCtrlVal : BitVec 2) (m : Machine Link) :
    (tasks env).debugCpuWrCtrl cpuCtrlVal m =
      (debugCpuWrCtrl env (cpuCtrlVal.setWidth 52) m.1, m.2) := rfl

theorem tasks_debugCpuRdCtrl (m : Machine Link) :
    (tasks env).debugCpuRdCtrl m =
      ((debugCpuRdCtrl env m.1).1, (debugCpuRdCtrl env m.1).2, m.2) := rfl

theorem tasks_readIdCode (m : Machine Link) :
    (tasks env).readIdCode m = ((readIdCode env m.1).1, (readIdCode env m.1).2, m.2) := rfl

theorem tasks_cpuRead32 (cmdAdr : Word) (m : Machine Link) :
    (tasks env).cpuRead32 cmdAdr m = (cpuRead32 env cmdAdr 0x3 m).2 := rfl

theorem cpuRead32_machine (addr : Word) (length : BitVec 16) (m : Machine Link) :
    (cpuRead32 env addr length m).2 =
      cpuTransfer env DBG_CPU_READ addr length (length.setWidth 19 + 1) m := rfl

/-- **Every command ends in run-test/idle.** -/
theorem settles_serve (s : Sim Link) (cmd : Command) : Settles s (serve (tasks env) s cmd) := by
  cases cmd with
  | reset =>
      rw [serve, tasks_resetTap]
      exact settles_pure (returns_start s.machine.1)
  | jtagSetIr =>
      apply Proc.ensures_bind
      intro jtagInstnVal
      rw [tasks_setInstruction]
      exact settles_pure (returns_setInstruction _ s.machine.1)
  | setDebugChain =>
      apply Proc.ensures_bind
      intro setChainVal
      rw [tasks_moduleSelect]
      exact settles_pure (scan_moduleSelect _ false s.machine.1).returns
  | cpuCtrlWr =>
      apply Proc.ensures_bind
      intro cpuCtrlVal
      rw [tasks_debugCpuWrCtrl]
      exact settles_pure (scan_debugCpuWrCtrl _ s.machine.1).returns
  | cpuCtrlRd =>
      rw [serve, tasks_debugCpuRdCtrl]
      apply Proc.ensures_bind
      intro _
      exact settles_pure (scan_debugCpuRdCtrl s.machine.1).returns
  | cpuWrReg =>
      apply Proc.ensures_bind
      intro cmdAdr
      apply Proc.ensures_bind
      intro blockCmdLength
      apply Proc.ensures_bind
      intro storage
      split
      · exact settles_pure (returns_cpuTransfer _ _ _ _ s.machine.1 storage)
      · exact settles_pure (returns_cpuTransfer _ _ _ _ s.machine.1 _)
  | cpuRdReg =>
      apply Proc.ensures_bind
      intro cmdAdr
      apply Proc.ensures_bind
      intro blockCmdLength
      apply Proc.ensures_bind
      intro _
      apply settles_pure
      split
      · exact returns_cpuTransfer _ _ _ _ s.machine.1 s.machine.2
      · rw [tasks_cpuRead32, cpuRead32_machine]
        exact returns_cpuTransfer _ _ _ _ s.machine.1 s.machine.2
  | wbWr =>
      apply Proc.ensures_bind
      intro cmdAdr
      apply Proc.ensures_bind
      intro cmdSize
      apply Proc.ensures_bind
      intro cmdData
      split
      · exact settles_pure (returns_wbTransfer _ _ _ _ _ s.machine.1 _)
      · split
        · exact settles_pure (returns_wbTransfer _ _ _ _ _ s.machine.1 _)
        · split
          · exact settles_pure (returns_wbTransfer _ _ _ _ _ s.machine.1 _)
          · exact settles_pure (Returns.refl s.machine.1)
  | wbRd32 =>
      apply Proc.ensures_bind
      intro cmdAdr
      apply Proc.ensures_bind
      intro _
      exact settles_pure (returns_wbTransfer _ _ _ _ _ s.machine.1 s.machine.2)
  | wbBlockWr32 =>
      apply Proc.ensures_bind
      intro cmdAdr
      apply Proc.ensures_bind
      intro blockCmdLength
      apply Proc.ensures_bind
      intro storage
      exact settles_pure (returns_wbTransfer _ _ _ _ _ s.machine.1 storage)
  | wbBlockRd32 =>
      apply Proc.ensures_bind
      intro cmdAdr
      apply Proc.ensures_bind
      intro blockCmdLength
      apply Proc.ensures_bind
      intro _
      exact settles_pure (returns_wbTransfer _ _ _ _ _ s.machine.1 s.machine.2)
  | readJtagId =>
      rw [serve, tasks_readIdCode]
      apply Proc.ensures_bind
      intro _
      exact settles_pure (returns_readIdCode s.machine.1)
  | gdbDetach => exact trivial
  | wbRd8 =>
      apply Proc.ensures_bind
      intro cmdAdr
      apply Proc.ensures_bind
      intro _
      exact settles_pure (returns_wbTransfer _ _ _ _ _ s.machine.1 s.machine.2)

theorem settles_main (s : Sim Link) : Settles s (main (tasks env) s) := by
  intro data
  show Proc.Ensures _ (Proc.bind respond _)
  apply Proc.Ensures.bind (P := fun s' => Returns s.machine.1 s'.machine.1)
  · split
    · exact settles_serve s _
    · exact trivial
  · intro s' returns
    exact returns

/-- So many rounds of the command loop. -/
def rounds (T : Tasks Link) : Nat → Sim Link → Simulator (Sim Link)
  | 0, s => .ret s
  | n + 1, s => (main T s).bind (rounds T n)

theorem settles_rounds (n : Nat) (s : Sim Link) : Settles s (rounds (tasks env) n s) := by
  induction n generalizing s with
  | zero => exact Returns.refl s.machine.1
  | succ n ih =>
      apply Proc.Ensures.bind (settles_main s)
      intro s' returns
      exact Proc.Ensures.mono (ih s') fun s'' => returns.trans

/-- **The structure of the frames.**  Whatever `tdo` does and however long a wait takes, a
controller that is driven from its reset is idle between the commands; an instruction is
shifted with as many bits as the register has, the identification with 32, and each other
task shifts its header, its data and the check out, and its data, the status and the check
in. -/
theorem frame_structure (env : Surroundings) :
    (∀ (power : State) (l : Link) (storage : Storage) (n : Nat),
      (rounds (tasks env) n ⟨(start env l, storage), none⟩).Ensures fun s =>
        (s.machine.1.tap power).state = .runTestIdle) ∧
    (∀ (instr : BitVec 4) (l : Link),
      (l.since (setInstruction env instr l)).state = .runTestIdle ∧
        (l.since (setInstruction env instr l)).ir.length = IR_LENGTH ∧
        (l.since (setInstruction env instr l)).dr = []) ∧
    (∀ l : Link, (l.since (readIdCode env l).2).state = .runTestIdle ∧
      (l.since (readIdCode env l).2).dr.length = 32 ∧ (l.since (readIdCode env l).2).ir = []) ∧
    (∀ (data : BitVec 4) (genCrcErr : Bool) (l : Link),
      Framed (1 + 4 + 32) (4 + 32) l (moduleSelect env data genCrcErr l)) ∧
    (∀ (accType : BitVec 4) (addr : Word) (length : BitVec 16) (genCrcErr : Bool) (l : Link),
      Framed (1 + 4 + 4 + 32 + 16 + 32) (4 + 32) l
          (debugWishboneWrComm env accType addr length genCrcErr l) ∧
        Framed (1 + 4 + 4 + 32 + 16 + 32) (4 + 32) l
          (debugCpuWrComm env accType addr length genCrcErr l)) ∧
    (∀ (waitForWbReady genCrcErr : Bool) (m : Machine Link),
      Framed (1 + 4 + (if m.1.wbWrites then m.1.lengthGlobal.toNat * 8 else 0) + 32)
        ((if m.1.wbReads then m.1.lengthGlobal.toNat * 8 else 0) + 4 + 32) m.1
        (debugWishboneGo env waitForWbReady genCrcErr m).1) ∧
    (∀ (data : BitVec 52) (l : Link),
      Framed (1 + 4 + 52 + 32) (4 + 32) l (debugCpuWrCtrl env data l)) ∧
    (∀ l : Link, Framed (1 + 4 + 32) (52 + 4 + 32) l (debugCpuRdCtrl env l).2) ∧
    (∀ (waitForCpuReady genCrcErr : Bool) (m : Machine Link),
      Framed
        (1 + 4 + (if m.1.lastCpuCmd = DBG_CPU_WRITE then m.1.lengthGlobal.toNat * 8 else 0) + 32)
        ((if m.1.lastCpuCmd = DBG_CPU_READ then m.1.lengthGlobal.toNat * 8 else 0) + 4 + 32) m.1
        (debugCpuGo env waitForCpuReady genCrcErr m).1) := by
  refine ⟨?_, ?_, ?_, ?_, ?_, ?_, ?_, ?_, ?_⟩
  · intro power l storage n
    apply Proc.Ensures.mono (settles_rounds n _)
    intro s returns
    exact returns.tap (start_idle power l)
  · intro instr l
    rw [since_eq (setInstruction_edges instr l), after_scan_ir]
    exact ⟨rfl, by simp [IR_LENGTH], rfl⟩
  · intro l
    rw [since_eq (readIdCode_edges l), after_scan _ _ _ (shifts_shifting _)]
    exact ⟨rfl, by simp, rfl⟩
  · intro data genCrcErr l
    exact framed_of_scan (scan_moduleSelect data genCrcErr l) (by simp)
  · intro accType addr length genCrcErr l
    exact ⟨framed_of_scan (scan_debugWishboneWrComm accType addr length genCrcErr l)
        (length_commandBits _ _ _ _),
      framed_of_scan (scan_debugCpuWrComm accType addr length genCrcErr l)
        (length_commandBits _ _ _ _)⟩
  · exact framed_debugWishboneGo
  · intro data l
    exact framed_of_scan (scan_debugCpuWrCtrl data l) (length_ctrlBits data)
  · intro l
    exact framed_of_scan (scan_debugCpuRdCtrl l) (by simp)
  · exact framed_debugCpuGo

end OrpsocCores.VpiDebugModule
