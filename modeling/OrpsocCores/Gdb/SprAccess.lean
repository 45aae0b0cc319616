import OrpsocCores.Gdb.AccessErrors

/-!
# Access to the special purpose registers

`readspr` and `writespr` go three ways: the next program counter goes through its copy,
the registers of the debug group through the copy of the 22 words at its start, and every
other register to the processor.  `sprFile` is what the three together hold, one value for
each register number.

Of a number in the debug group only the low eight bits are used, as an index into the copy
that nothing compares with its size.  The other numbers of the group are so taken for the
first 22, or for memory behind the copy.  And a write to register 4 goes to register 0, but
not a read.  `spr_access_iff` is about any sequence of requests within a stall, from the
moment the server notices it (`AtStall.noticed`): `readspr` and `writespr` are the accesses
of one register file, and stay inside the copy, exactly when none meets one of the two
where that makes a difference.
-/

set_option autoImplicit false

namespace OrpsocCores.Gdb

open Scanf Trace

/-! ## The requests -/

/-- A command for a register. -/
inductive SprRequest where
  | read (regno : BitVec 32)
  | write (regno val : BitVec 32)
  deriving DecidableEq

/-- One value for each register. -/
abbrev RegFile := BitVec 32 → BitVec 32

namespace SprRequest

def regno : SprRequest → BitVec 32
  | read regno => regno
  | write regno _ => regno

/-- The packet carries this command, with a register number that is accepted. -/
def Parses (request : SprRequest) (buf : RspBuf) : Prop :=
  requestKind (buf.chars 0) = .query ∧ buf.startsWith "qRcmd," = true ∧
    request.regno.toNat ≤ maxSprs ∧
    match request with
    | read regno => (str "readspr").isPrefixOf (RspServer.command buf) = true ∧
        one (sscanf readsprFormat (RspServer.command buf)) = some regno
    | write regno val => (str "readspr").isPrefixOf (RspServer.command buf) = false ∧
        (str "writespr").isPrefixOf (RspServer.command buf) = true ∧
        two (sscanf writesprFormat (RspServer.command buf)) = some (regno, val)

instance (request : SprRequest) (buf : RspBuf) : Decidable (request.Parses buf) :=
  match request with
  | read _ => inferInstanceAs (Decidable (_ ∧ _ ∧ _ ∧ _ ∧ _))
  | write _ _ => inferInstanceAs (Decidable (_ ∧ _ ∧ _ ∧ _ ∧ _ ∧ _))

/-- The branch of `rsp_command` for it. -/
def handle (host : Host) (s : RspServer) : SprRequest → RspServer
  | read regno => s.readspr host regno
  | write regno val => s.writespr host regno val

/-- The registers behind it. -/
def after (file : RegFile) : SprRequest → RegFile
  | read _ => file
  | write regno val => Function.update file regno val

/-- The answer to it. -/
def answer (file : RegFile) : SprRequest → List Byte
  | read regno => ascii2hex (sprintf8x (file regno))
  | write _ _ => str "OK"

/-- The same command for another register. -/
def redirect (reg : BitVec 32) : SprRequest → SprRequest
  | read _ => read reg
  | write _ val => write reg val

/-- The number of its accesses. -/
def accesses (s : RspServer) : SprRequest → Nat
  | read regno => s.sprAccesses regno s.npcReads
  | write regno val => s.sprAccesses regno (s.npcWrites val)

/-- A packet is served by the branch for its request. -/
theorem served (host : Host) (s : RspServer) {request : SprRequest} {buf : RspBuf}
    (parses : request.Parses buf) : s.rspClientRequest host buf = request.handle host s := by
  obtain ⟨kind, isCommand, accepted, parses⟩ := parses
  cases request with
  | read regno =>
      exact s.rspClientRequest_readspr host kind isCommand parses.1 parses.2 accepted
  | write regno val =>
      rw [RspServer.rspClientRequest, kind]
      dsimp only
      rw [RspServer.rspQuery_command isCommand, RspServer.rspCommand]
      rw [parses.1, if_neg Bool.false_ne_true, if_pos parses.2.1, parses.2.2]
      exact if_neg (Nat.not_lt.mpr accepted)

end SprRequest

/-- A packet with a command for a register. -/
structure SprPacket where
  buf : RspBuf
  request : SprRequest
  parses : request.Parses buf

/-! ## The digits of a register -/

/-- The digits of a register determine it. -/
theorem reg2hex_injective {val val' : BitVec 32} (same : reg2hex val = reg2hex val') :
    val = val' := by
  have small (x : BitVec 32) : (x &&& 0xf).toNat < 16 := by
    rw [BitVec.toNat_and]
    exact Nat.lt_succ_of_le Nat.and_le_right
  apply BitVec.eq_of_getLsbD_eq
  intro i inside
  have digits := List.map_inj_left.mp same (7 - i / 4) (List.mem_range.mpr (by omega))
  have nibble := BitVec.eq_of_toNat_eq (digit_inj (small _) (small _) digits)
  have position : 28 - (7 - i / 4) * 4 + i % 4 = i := by omega
  have bit := congrArg (fun x : BitVec 32 => x.getLsbD (i % 4)) nibble
  have mask : ∀ j < 4, (0xf : BitVec 32).getLsbD j = true := by decide
  simp only [BitVec.getLsbD_and, BitVec.getLsbD_ushiftRight, position,
    mask (i % 4) (Nat.mod_lt _ (by decide)), Bool.and_true] at bit
  exact bit

theorem mem_reg2hex {val : BitVec 32} {ch : Byte} (member : ch ∈ reg2hex val) : ch ≠ chr ' ' := by
  obtain ⟨n, -, rfl⟩ := List.mem_map.mp member
  have small : ((val >>> (28 - n * 4)) &&& 0xf).toNat < 16 := by
    rw [BitVec.toNat_and]
    exact Nat.lt_succ_of_le Nat.and_le_right
  have notBlank : ∀ v : Fin 16, digit v ≠ chr ' ' := by decide
  exact notBlank ⟨_, small⟩

/-- With zeros for the blanks, the digits are the register's. -/
theorem map_sprintf8x (val : BitVec 32) :
    (sprintf8x val).map (fun ch => if ch = chr ' ' then chr '0' else ch) = reg2hex val := by
  unfold sprintf8x
  extract_lets blanks
  obtain ⟨rest, split⟩ := List.takeWhile_prefix (· = chr '0') (l := reg2hex val)
  have zeros : (reg2hex val).take blanks = List.replicate blanks (chr '0') := by
    have few : blanks ≤ ((reg2hex val).takeWhile (· = chr '0')).length := Nat.min_le_right _ _
    refine List.eq_replicate_iff.mpr ⟨?_, fun ch member => ?_⟩
    · rw [List.length_take, reg2hex_length]
      omega
    · rw [← split, List.take_append_of_le_length few] at member
      have isZero := List.mem_takeWhile_imp (List.mem_of_mem_take member)
      exact of_decide_eq_true isZero
  have kept : ((reg2hex val).drop blanks).map (fun ch => if ch = chr ' ' then chr '0' else ch) =
      (reg2hex val).drop blanks := by
    have same : ∀ ch ∈ (reg2hex val).drop blanks,
        (if ch = chr ' ' then chr '0' else ch) = ch :=
      fun ch member => if_neg (mem_reg2hex (List.mem_of_mem_drop member))
    rw [List.map_congr_left same, List.map_id']
  rw [List.map_append, List.map_replicate, if_pos rfl, kept, ← zeros, List.take_append_drop]

/-- Blanks for leading zeros. -/
theorem sprintf8x_injective {val val' : BitVec 32} (same : sprintf8x val = sprintf8x val') :
    val = val' := by
  apply reg2hex_injective
  rw [← map_sprintf8x val, ← map_sprintf8x val', same]

/-! ## The registers -/

namespace RspServer

variable (s : RspServer)

/-- The word of the copy that a register has, if it has one. -/
def copied (n : BitVec 32) : Nat := (n - dbgCpuRegAdd).toNat

/-- The value of each register, as the server has it. -/
def sprFile : RegFile := fun n =>
  if n = npcCpuRegAdd then s.npcValue
  else if copied n < dbgGroupWords ∧ s.dbgRegsCacheDirty ≠ -1 then s.dbgRegs (copied n)
  else s.target.cpu.spr n

/-- The register that an access to a number of the debug group goes to. -/
def aliased (regno : BitVec 32) : BitVec 32 := dbgCpuRegAdd + BitVec.ofNat 32 (cacheWord regno)

theorem cacheWord_lt (regno : BitVec 32) : cacheWord regno < 256 := by
  rw [cacheWord, BitVec.toNat_and]
  exact Nat.lt_succ_of_le Nat.and_le_right

theorem copied_aliased (regno : BitVec 32) : copied (aliased regno) = cacheWord regno := by
  have small := cacheWord_lt regno
  simp only [copied, aliased, dbgCpuRegAdd]
  bv_omega

theorem aliased_ne_npc (regno : BitVec 32) : aliased regno ≠ npcCpuRegAdd := by
  have small := cacheWord_lt regno
  simp only [aliased, dbgCpuRegAdd, npcCpuRegAdd]
  bv_omega

/-- Another register is not that word of the copy. -/
theorem copied_ne {n regno : BitVec 32} (other : n ≠ aliased regno) :
    copied n ≠ cacheWord regno := by
  have small := cacheWord_lt regno
  simp only [copied, aliased, dbgCpuRegAdd] at other ⊢
  bv_omega

theorem eq_of_copied (n : BitVec 32) : n = dbgCpuRegAdd + BitVec.ofNat 32 (copied n) := by
  rw [copied, BitVec.ofNat_toNat, BitVec.setWidth_eq, BitVec.add_comm, BitVec.sub_add_cancel]

/-- The registers of the copy are in the debug group, and accesses to them go to them. -/
theorem of_copied {n : BitVec 32} (inCopy : copied n < dbgGroupWords) :
    inDebugGroup n = true ∧ aliased n = n := by
  rw [eq_of_copied n]
  generalize copied n = k at inCopy
  rw [dbgGroupWords] at inCopy
  interval_cases k <;> decide

section Reads

variable {host : Host}

/-- Behind a read of the next program counter there is a copy of it. -/
theorem getNpc_known (stalled : s.stallState = .stalled) :
    (s.getNpc host).1.NpcKnown ∧ (s.getNpc host).1.npcCachedValue = (s.getNpc host).2 := by
  unfold getNpc NpcKnown
  rw [if_pos stalled]
  by_cases cached : s.npcIsCached = true
  · rw [if_pos cached]
    exact ⟨⟨stalled, cached⟩, rfl⟩
  · rw [if_neg cached]
    dsimp only
    rw [if_neg (EnumErrors.not_code_pos _)]
    exact ⟨⟨stalled, rfl⟩, rfl⟩

/-- Reading the next program counter changes no register. -/
theorem getNpc_sprFile (stalled : s.stallState = .stalled)
    (fine : ¬ host.AnyFails s.target.performed s.npcReads) :
    (s.getNpc host).1.sprFile = s.sprFile ∧ (s.getNpc host).2 = s.sprFile npcCpuRegAdd := by
  have value := s.getNpc_value host fine
  obtain ⟨known, copy⟩ := s.getNpc_known stalled
  have npc : (s.getNpc host).1.npcValue = s.npcValue := by
    rw [npcValue, if_pos known, copy, value]
  refine ⟨?_, value.trans (if_pos rfl).symm⟩
  funext n
  unfold sprFile
  rw [npc, getNpc_cpu, getNpc_dbgRegs, getNpc_dbgRegsCacheDirty]

/-- Writing the next program counter changes it and no other register. -/
theorem setNpc_sprFile (stalled : s.stallState = .stalled) {val : BitVec 32}
    (fine : ¬ host.AnyFails s.target.performed (s.npcWrites val)) :
    (s.setNpc host val).sprFile = Function.update s.sprFile npcCpuRegAdd val := by
  have fineRead : ¬ host.AnyFails s.target.performed s.npcReads := by
    rw [npcWrites, Host.anyFails_add, not_or] at fine
    exact fine.1
  obtain ⟨file, read⟩ := s.getNpc_sprFile stalled fineRead
  have value : s.sprFile npcCpuRegAdd = s.npcValue := if_pos rfl
  by_cases current : val = s.npcValue
  · have same : s.setNpc host val = (s.getNpc host).1 := by
      rw [setNpc, read, value]
      exact if_pos current
    rw [same, file, current, ← value, Function.update_eq_self]
  · have written : ¬ host.Fails (s.getNpc host).1.target.performed := by
      rw [npcWrites, if_neg current, Host.anyFails_add, not_or, Host.anyFails_one] at fine
      rw [getNpc_performed]
      exact fine.2
    have known : (s.getNpc host).1.stallState = .stalled := (s.getNpc_known stalled).1.1
    have changed : val ≠ (s.getNpc host).2 := by
      rw [read, value]
      exact current
    have set : s.setNpc host val = { (s.getNpc host).1 with
        target := { (s.getNpc host).1.target with
          cpu := (s.getNpc host).1.target.cpu.write host npcCpuRegAdd val
          performed := (s.getNpc host).1.target.performed + 1 }
        npcCachedValue := val
        npcIsCached := true } := by
      rw [setNpc, gdbWriteReg, Target.writes_of_fine written]
      exact (if_neg changed).trans (if_pos known)
    rw [set, ← file]
    funext n
    by_cases isNpc : n = npcCpuRegAdd
    · rw [isNpc, Function.update_self]
      exact (if_pos rfl).trans (if_pos ⟨known, rfl⟩)
    · rw [Function.update_of_ne isNpc]
      unfold sprFile
      rw [if_neg isNpc, if_neg isNpc, Cpu.write_spr, Function.update_of_ne isNpc]

/-- Reading the debug registers changes no register. -/
theorem getDebugRegisters_sprFile (fine : ¬ host.AnyFails s.target.performed s.debugReads) :
    (s.getDebugRegisters host).sprFile = s.sprFile ∧
      (s.getDebugRegisters host).dbgRegsCacheDirty ≠ -1 := by
  by_cases dirty : s.dbgRegsCacheDirty ≠ -1
  · have same : s.getDebugRegisters host = s := if_pos dirty
    rw [same]
    exact ⟨rfl, dirty⟩
  · have filled : s.getDebugRegisters host = { s with
        target := { s.target with performed := s.target.performed + 1 }
        dbgRegs := fun i => if 0 ≤ i ∧ i < dbgGroupWords then
          s.target.cpu.read (dbgCpuRegAdd + BitVec.ofNat 32 i.toNat) else s.dbgRegs i
        dbgRegsCacheDirty := 0 } := by
      rw [debugReads, if_neg dirty, Host.anyFails_one] at fine
      rw [getDebugRegisters, gdbReadRegs, Target.reads_of_fine fine]
      exact if_neg dirty
    rw [filled]
    refine ⟨?_, show (0 : Int) ≠ -1 by decide⟩
    funext n
    by_cases isNpc : n = npcCpuRegAdd
    · rw [sprFile, sprFile, if_pos isNpc, if_pos isNpc]
      rfl
    · have before : s.sprFile n = s.target.cpu.spr n :=
        (if_neg isNpc).trans (if_neg fun both => dirty both.2)
      rw [before, sprFile, if_neg isNpc]
      by_cases inCopy : copied n < dbgGroupWords
      · have clean : (0 : Int) ≠ -1 := by decide
        have word : (0 : Int) ≤ copied n ∧ (copied n : Int) < dbgGroupWords :=
          ⟨Int.natCast_nonneg _, Int.ofNat_lt.mpr inCopy⟩
        rw [if_pos ⟨inCopy, clean⟩]
        dsimp only
        rw [if_pos word, Int.toNat_natCast, ← eq_of_copied, Cpu.read,
          if_neg fun both => isNpc both.1]
      · rw [if_neg fun both => inCopy both.1]

end Reads

/-! ## What a command does -/

/-- The register that a command goes to. -/
def accessed : SprRequest → BitVec 32
  | .read regno => if inDebugGroup regno then aliased regno else regno
  | .write regno _ =>
      if inDebugGroup regno then aliased regno else if regno = 4 then 0 else regno

/-- The command is answered, and does to the registers, what one for this register is to. -/
structure Serves (s s' : RspServer) (request : SprRequest) : Prop where
  stalled : s'.stallState = .stalled
  replies : s.replies s' = [request.answer s.sprFile]
  file : s'.sprFile = request.after s.sprFile

/-- A register outside the copy. -/
theorem sprFile_direct {n : BitVec 32} (notNpc : n ≠ npcCpuRegAdd)
    (outside : inDebugGroup n = false) : s.sprFile n = s.target.cpu.spr n := by
  refine (if_neg notNpc).trans (if_neg fun both => ?_)
  rw [(of_copied both.1).1] at outside
  cases outside

/-- A register of the copy, when there is one. -/
theorem sprFile_aliased {regno : BitVec 32} (inCopy : cacheWord regno < dbgGroupWords)
    (copy : s.dbgRegsCacheDirty ≠ -1) :
    s.sprFile (aliased regno) = s.dbgRegs (cacheWord regno) := by
  rw [sprFile, if_neg (aliased_ne_npc regno), copied_aliased]
  exact if_pos ⟨inCopy, copy⟩

/-- Whether the copy has been changed does not matter. -/
theorem sprFile_flag (copy : s.dbgRegsCacheDirty ≠ -1) {flag : Int} (set : flag ≠ -1) :
    { s with dbgRegsCacheDirty := flag }.sprFile = s.sprFile := by
  funext n
  unfold sprFile
  dsimp only
  simp only [copy, set, not_false_eq_true, and_true, ne_eq]
  rfl

variable {host : Host}

theorem readspr_serves (stalled : s.stallState = .stalled) {regno : BitVec 32}
    (fine : ¬ host.AnyFails s.target.performed (s.sprAccesses regno s.npcReads))
    (inside : inDebugGroup regno = true → cacheWord regno < dbgGroupWords) :
    Serves s (s.readspr host regno) (.read (accessed (.read regno))) := by
  unfold readspr accessed
  unfold sprAccesses at fine
  dsimp only
  by_cases isNpc : regno = npcCpuRegAdd
  · rw [if_pos isNpc] at fine ⊢
    obtain ⟨file, read⟩ := s.getNpc_sprFile stalled fine
    have direct : inDebugGroup regno = false := by
      rw [isNpc]
      decide
    rw [direct, if_neg Bool.false_ne_true, isNpc]
    refine ⟨(s.getNpc_known stalled).1.1, ?_, file⟩
    rw [SprRequest.answer, ← read]
    exact replies_of_sent (by rw [put, getNpc_sent])
  · rw [if_neg isNpc] at fine ⊢
    by_cases group : inDebugGroup regno = true
    · rw [if_pos group] at fine ⊢
      rw [if_pos group]
      obtain ⟨file, copy⟩ := s.getDebugRegisters_sprFile fine
      have word := (s.getDebugRegisters host).sprFile_aliased (inside group) copy
      have clean : (0 : Int) ≠ -1 := by decide
      refine ⟨(s.getDebugRegisters_stallState host).trans stalled, ?_,
        ((s.getDebugRegisters host).sprFile_flag copy clean).trans file⟩
      rw [SprRequest.answer, ← file, word]
      exact replies_of_sent (by rw [put, touch, getDebugRegisters_sent])
    · rw [if_neg group] at fine ⊢
      rw [if_neg group, gdbReadReg, Target.reads_of_fine (mt Host.anyFails_one.mpr fine)]
      have value : s.target.cpu.read regno = s.sprFile regno := by
        rw [s.sprFile_direct isNpc (Bool.not_eq_true _ ▸ group), Cpu.read,
          if_neg fun both => isNpc both.1]
      refine ⟨stalled, ?_, rfl⟩
      rw [SprRequest.answer, ← value]
      exact replies_of_sent rfl

/-- A write of another register than the next program counter to the processor. -/
theorem write_sprFile {adr : BitVec 32} (notNpc : adr ≠ npcCpuRegAdd)
    (outside : inDebugGroup adr = false) (val : BitVec 32) (performed : Nat) :
    { s with target := { s.target with
        cpu := s.target.cpu.write host adr val
        performed := performed } }.sprFile = Function.update s.sprFile adr val := by
  have flushed : (s.target.cpu.write host adr val).flushed = s.target.cpu.flushed := by
    rw [Cpu.write]
    dsimp only
    rw [beq_false_of_ne notNpc, Bool.and_false, Bool.or_false]
  have read : (s.target.cpu.write host adr val).read npcCpuRegAdd =
      s.target.cpu.read npcCpuRegAdd := by
    rw [Cpu.read, Cpu.read, flushed, Cpu.write_spr, Function.update_of_ne notNpc.symm]
  funext n
  by_cases isNpc : n = npcCpuRegAdd
  · rw [isNpc, Function.update_of_ne notNpc.symm, sprFile, if_pos rfl, sprFile, if_pos rfl,
      npcValue, npcValue, read]
    rfl
  · by_cases here : n = adr
    · rw [here, Function.update_self, sprFile_direct _ notNpc outside, Cpu.write_spr,
        Function.update_self]
    · rw [Function.update_of_ne here, sprFile, sprFile, if_neg isNpc, if_neg isNpc,
        Cpu.write_spr, Function.update_of_ne here]

/-- A write into the copy. -/
theorem copy_sprFile {regno : BitVec 32} (inCopy : cacheWord regno < dbgGroupWords)
    (copy : s.dbgRegsCacheDirty ≠ -1) (val : BitVec 32) :
    { s with
      dbgRegs := Function.update s.dbgRegs (cacheWord regno) val
      dbgRegsCacheDirty := 1 }.sprFile = Function.update s.sprFile (aliased regno) val := by
  have changed : (1 : Int) ≠ -1 := by decide
  funext n
  by_cases here : n = aliased regno
  · rw [here, Function.update_self, sprFile_aliased _ inCopy changed]
    exact Function.update_self ..
  · have word : (copied n : Int) ≠ cacheWord regno := fun same =>
      copied_ne here (Int.ofNat_inj.mp same)
    rw [Function.update_of_ne here, ← s.sprFile_flag copy changed]
    unfold sprFile
    dsimp only
    rw [Function.update_of_ne word]
    rfl

theorem writespr_serves (stalled : s.stallState = .stalled) {regno val : BitVec 32}
    (fine : ¬ host.AnyFails s.target.performed (s.sprAccesses regno (s.npcWrites val)))
    (inside : inDebugGroup regno = true → cacheWord regno < dbgGroupWords) :
    Serves s (s.writespr host regno val) (.write (accessed (.write regno val)) val) := by
  unfold writespr accessed
  unfold sprAccesses at fine
  dsimp only
  by_cases isNpc : regno = npcCpuRegAdd
  · rw [if_pos isNpc] at fine ⊢
    have direct : inDebugGroup regno = false := by
      rw [isNpc]
      decide
    have other : regno ≠ 4 := by
      rw [isNpc]
      decide
    rw [direct, if_neg Bool.false_ne_true, if_neg other, isNpc]
    have replied : s.replies ((s.setNpc host val).put (str "OK")) = [str "OK"] :=
      replies_of_sent (by rw [put, setNpc_sent])
    exact ⟨(s.setNpc_stallState host val).trans stalled, replied, s.setNpc_sprFile stalled fine⟩
  · rw [if_neg isNpc] at fine ⊢
    by_cases group : inDebugGroup regno = true
    · rw [if_pos group] at fine ⊢
      rw [if_pos group]
      obtain ⟨file, copy⟩ := s.getDebugRegisters_sprFile fine
      refine ⟨(s.getDebugRegisters_stallState host).trans stalled,
        replies_of_sent (by rw [put, touch, getDebugRegisters_sent]; rfl), ?_⟩
      rw [SprRequest.after, ← file]
      exact (s.getDebugRegisters host).copy_sprFile (inside group) copy val
    · rw [if_neg group] at fine ⊢
      rw [if_neg group, writeCpuReg, gdbWriteReg,
        Target.writes_of_fine (mt Host.anyFails_one.mpr fine)]
      dsimp only
      rw [if_neg (EnumErrors.not_code_pos _)]
      have remapped : (if regno = 4 then 0 else regno) ≠ npcCpuRegAdd ∧
          inDebugGroup (if regno = 4 then 0 else regno) = false := by
        split_ifs
        · decide
        · exact ⟨isNpc, Bool.not_eq_true _ ▸ group⟩
      exact ⟨stalled, replies_of_sent rfl, s.write_sprFile remapped.1 remapped.2 val _⟩

/-! ## The indices into the copy -/

theorem handle_touches (request : SprRequest) :
    s.touches (request.handle host s) =
      if inDebugGroup request.regno then [.cacheWord (cacheWord request.regno)] else [] := by
  have of_touched {s' : RspServer} {l : List Touch} (touched : s'.touched = s.touched ++ l) :
      s.touches s' = l := by
    rw [touches, touched, List.drop_left]
  have direct {regno : BitVec 32} (isNpc : regno = npcCpuRegAdd) : inDebugGroup regno = false := by
    rw [isNpc]
    decide
  apply of_touched
  cases request with
  | read regno =>
      unfold SprRequest.handle SprRequest.regno readspr
      dsimp only
      split_ifs with isNpc group group
      · exact absurd group (by rw [direct isNpc]; decide)
      · rw [put, getNpc_touched, List.append_nil]
      · rw [put, touch, getDebugRegisters_touched]
      · rw [put, List.append_nil]
  | write regno val =>
      unfold SprRequest.handle SprRequest.regno writespr
      dsimp only
      split_ifs with isNpc group group
      · exact absurd group (by rw [direct isNpc]; decide)
      · rw [put, setNpc_touched, List.append_nil]
      · rw [put, touch, getDebugRegisters_touched]
      · have plain : (s.writeCpuReg host regno val).touched = s.touched := by
          unfold writeCpuReg
          dsimp only
          split_ifs <;> rfl
        rw [plain, List.append_nil]

/-! ## One request -/

/-- The index of a number of the debug group is one of the copy. -/
def InCopy (regno : BitVec 32) : Prop :=
  inDebugGroup regno = true → cacheWord regno < dbgGroupWords

instance (regno : BitVec 32) : Decidable (InCopy regno) := inferInstanceAs (Decidable (_ → _))

/-- The command goes to the register it is for, or there is no difference between the
two. -/
def Sound : SprRequest → Prop
  | .read regno => InCopy regno ∧ s.sprFile (accessed (.read regno)) = s.sprFile regno
  | .write regno val => InCopy regno ∧ (accessed (.write regno val) = regno ∨
      s.sprFile (accessed (.write regno val)) = val ∧ s.sprFile regno = val)

instance (request : SprRequest) : Decidable (s.Sound request) :=
  match request with
  | .read _ => inferInstanceAs (Decidable (_ ∧ _))
  | .write _ _ => inferInstanceAs (Decidable (_ ∧ (_ ∨ _ ∧ _)))

theorem Sound.of_accessed {s : RspServer} {request : SprRequest} (inside : InCopy request.regno)
    (same : accessed request = request.regno) : s.Sound request := by
  cases request with
  | read regno => exact ⟨inside, congrArg s.sprFile same⟩
  | write regno val => exact ⟨inside, .inl same⟩

theorem Sound.inCopy {s : RspServer} {request : SprRequest} (sound : s.Sound request) :
    InCopy request.regno := by
  cases request with
  | read regno => exact sound.1
  | write regno val => exact sound.1

/-- The command is answered as by one register file, does to it what it should, and stays
inside the copy. -/
structure SprRight (s s' : RspServer) (file : RegFile) (request : SprRequest) : Prop where
  replies : s.replies s' = [request.answer file]
  registers : ∀ n, s'.sprFile n = request.after file n
  inRange : ∀ touch ∈ s.touches s', touch.InRange

theorem inRange_iff (host : Host) (request : SprRequest) :
    (∀ touch ∈ s.touches (request.handle host s), touch.InRange) ↔ InCopy request.regno := by
  rw [handle_touches, InCopy]
  split_ifs with group
  · rw [List.forall_mem_singleton, imp_iff_right group]
    rfl
  · exact iff_of_true (fun _ member => absurd member List.not_mem_nil) fun is => absurd is group

theorem update_eq_update_iff {file : RegFile} {reg reg' val : BitVec 32} :
    Function.update file reg val = Function.update file reg' val ↔
      reg = reg' ∨ file reg = val ∧ file reg' = val := by
  constructor
  · intro same
    by_cases here : reg = reg'
    · exact .inl here
    · have first := congrFun same reg
      have second := congrFun same reg'
      rw [Function.update_self, Function.update_of_ne here] at first
      rw [Function.update_self, Function.update_of_ne (Ne.symm here)] at second
      exact .inr ⟨first.symm, second⟩
  · rintro (rfl | ⟨rfl, same⟩)
    · rfl
    · rw [Function.update_eq_self, ← same, Function.update_eq_self]

theorem handle_serves (stalled : s.stallState = .stalled) {request : SprRequest}
    (fine : ¬ host.AnyFails s.target.performed (request.accesses s))
    (inside : InCopy request.regno) :
    Serves s (request.handle host s) (request.redirect (accessed request)) := by
  cases request with
  | read regno => exact s.readspr_serves stalled fine inside
  | write regno val => exact s.writespr_serves stalled fine inside

/-- **A command of which no access fails does right exactly when it goes to the register it
is for, or there is no difference.** -/
theorem sprRight_iff (stalled : s.stallState = .stalled) {request : SprRequest}
    (fine : ¬ host.AnyFails s.target.performed (request.accesses s)) :
    SprRight s (request.handle host s) s.sprFile request ↔ s.Sound request := by
  by_cases inside : InCopy request.regno
  · have serves := s.handle_serves stalled fine inside
    have inRange := (s.inRange_iff host request).mpr inside
    have answered (right : SprRight s (request.handle host s) s.sprFile request) :
        (request.redirect (accessed request)).answer s.sprFile = request.answer s.sprFile :=
      List.singleton_inj.mp (serves.replies.symm.trans right.replies)
    have changed (right : SprRight s (request.handle host s) s.sprFile request) :
        (request.redirect (accessed request)).after s.sprFile = request.after s.sprFile :=
      serves.file.symm.trans (funext right.registers)
    cases request with
    | read regno =>
        constructor
        · intro right
          exact ⟨inside, sprintf8x_injective (ascii2hex_injective (answered right))⟩
        · rintro ⟨-, same⟩
          refine ⟨serves.replies.trans ?_, congrFun serves.file, inRange⟩
          rw [SprRequest.redirect, SprRequest.answer, SprRequest.answer, same]
    | write regno val =>
        constructor
        · intro right
          exact ⟨inside, update_eq_update_iff.mp (changed right)⟩
        · rintro ⟨-, same⟩
          exact ⟨serves.replies, congrFun (serves.file.trans (update_eq_update_iff.mpr same)),
            inRange⟩
  · exact iff_of_false (fun right => inside ((s.inRange_iff host request).mp right.inRange))
      fun sound => inside sound.inCopy

end RspServer

/-! ## Runs -/

/-- A request within a stall: a command for a register, or anything else. -/
inductive StallRequest where
  | spr (packet : SprPacket)
  | other (buf : RspBuf)

namespace StallRequest

variable (host : Host)

def buf : StallRequest → RspBuf
  | spr packet => packet.buf
  | other buf => buf

/-- The server answers it. -/
def step (s : RspServer) (request : StallRequest) : RspServer :=
  s.rspClientRequest host request.buf

/-- The registers as they are to be.  What another request does to them is its own
matter. -/
def expect (s : RspServer) (request : StallRequest) (file : RegFile) : RegFile :=
  match request with
  | spr packet => packet.request.after file
  | other buf => (s.rspClientRequest host buf).sprFile

/-- No access of a command fails, and the stall lasts. -/
def Permitted (s : RspServer) : StallRequest → Prop
  | spr packet => ¬ host.AnyFails s.target.performed (packet.request.accesses s)
  | other buf => (s.rspClientRequest host buf).stallState = .stalled

/-- A command is answered, and does, as with one register file. -/
def Right (x : RspServer × RegFile) (request : StallRequest) : Prop :=
  match request with
  | spr packet => RspServer.SprRight x.1 (request.step host x.1) x.2 packet.request
  | other _ => True

/-- A command goes to the register it is for, or there is no difference. -/
def Sound (s : RspServer) : StallRequest → Prop
  | spr packet => s.Sound packet.request
  | other _ => True

/-- The server beside the registers as they are to be. -/
def run : RspServer × RegFile → StallRequest → RspServer × RegFile :=
  monitored (step host) (expect host)

variable {host}

theorem right_iff {s : RspServer} {packet : SprPacket} (stalled : s.stallState = .stalled)
    (fine : (spr packet).Permitted host s) :
    Right host (s, s.sprFile) (spr packet) ↔ (spr packet).Sound s := by
  unfold Right step buf
  dsimp only
  rw [SprRequest.served host s packet.parses]
  exact s.sprRight_iff stalled fine

end StallRequest

/-- The processor has stalled, and the server's copies agree with it. -/
structure AtStall (s : RspServer) : Prop where
  stalled : s.stallState = .stalled
  agrees : s.sprFile = s.target.cpu.spr

/-- That is so when the server notices a stall. -/
theorem AtStall.noticed (host : Host) (s : RspServer) (stalled : s.target.cpu.stalled = true)
    (uncopied : s.dbgRegsCacheDirty = -1) (settled : s.target.cpu.flushed = false)
    (fine : ¬ host.Fails s.target.performed) : AtStall (s.rspCheckForException host) := by
  let before : RspServer := { s with stallState := .stalled, npcIsCached := false }
  have noticed : s.rspCheckForException host = { before.getDebugRegisters host with
      sigval := RspServer.signalOf ((before.getDebugRegisters host).dbgRegs drr) } :=
    if_pos stalled
  have accesses : ¬ host.AnyFails before.target.performed before.debugReads := by
    rw [RspServer.debugReads, if_neg (not_not.mpr uncopied), Host.anyFails_one]
    exact fine
  have file : before.sprFile = s.target.cpu.spr := by
    funext n
    unfold RspServer.sprFile
    split_ifs with isNpc copied
    · rw [isNpc, RspServer.npcValue, if_neg fun known => Bool.false_ne_true known.2, Cpu.read,
        if_neg fun both => Bool.false_ne_true (settled.symm.trans both.2)]
    · exact absurd uncopied copied.2
    · rfl
  rw [noticed]
  refine ⟨before.getDebugRegisters_stallState host, ?_⟩
  dsimp only
  rw [RspServer.getDebugRegisters_cpu, ← file]
  exact (before.getDebugRegisters_sprFile accesses).1

/-- **Within a stall in which no access fails, `readspr` and `writespr` are the accesses of
one register file, and stay inside the copy, exactly when every command goes to the
register it is for, or there is no difference.** -/
theorem spr_access_iff (host : Host) {s : RspServer} {requests : List StallRequest}
    (atStall : AtStall s)
    (permitted : Always (StallRequest.step host) (StallRequest.Permitted host) s requests) :
    Always (StallRequest.run host) (StallRequest.Right host) (s, s.target.cpu.spr) requests ↔
      Always (StallRequest.step host) StallRequest.Sound s requests := by
  rw [← Always.monitored_iff (StallRequest.expect host) s.target.cpu.spr]
  refine Always.iff_of_invariant (fun x => x.1.stallState = .stalled ∧ x.1.sprFile = x.2) ?_ ?_
    ⟨atStall.stalled, atStall.agrees⟩ (permitted.monitored (StallRequest.expect host) _)
  · rintro ⟨s, file⟩ request ⟨stalled, same⟩ fine sound
    dsimp only at same stalled
    subst same
    cases request with
    | other buf => exact ⟨fine, rfl⟩
    | spr packet =>
        have registers := ((StallRequest.right_iff stalled fine).mpr sound).registers
        have served := SprRequest.served host s packet.parses
        have lasts := (s.handle_serves stalled fine sound.inCopy).stalled
        exact ⟨(congrArg RspServer.stallState served).trans lasts, funext registers⟩
  · rintro ⟨s, file⟩ request ⟨stalled, same⟩ fine
    dsimp only at same stalled
    subst same
    cases request with
    | other buf => exact Iff.rfl
    | spr packet => exact StallRequest.right_iff stalled fine

theorem idleHost_fine (first n : Nat) : ¬ idleHost.AnyFails first n :=
  fun ⟨_, _, fails⟩ => fails rfl

theorem atStall_idle : AtStall idleServer where
  stalled := rfl
  agrees := by
    funext n
    unfold RspServer.sprFile
    split_ifs with isNpc copied
    · rfl
    · exact absurd rfl copied.2
    · rfl

/-- `readspr 3005`. -/
def readDcr : SprPacket where
  buf := packetBuf "qRcmd,726561647370722033303035"
  request := .read 0x3005
  parses := by decide +kernel

/-- `writespr 3005 21`. -/
def writeDcr : SprPacket where
  buf := packetBuf "qRcmd,77726974657370722033303035203231"
  request := .write 0x3005 0x21
  parses := by decide +kernel

/-- A register of the debug group is written, and read back after some memory. -/
def controlRequests : List StallRequest :=
  [.spr writeDcr, .other (packetBuf "m100,4"), .spr readDcr]

theorem control_register_right :
    Always (StallRequest.run idleHost) (StallRequest.Right idleHost)
      (idleServer, idleServer.target.cpu.spr) controlRequests := by
  have lasts : (((StallRequest.spr writeDcr).step idleHost idleServer).rspClientRequest idleHost
      (packetBuf "m100,4")).stallState = .stalled := by decide +kernel
  have permitted : Always (StallRequest.step idleHost) (StallRequest.Permitted idleHost)
      idleServer controlRequests := ⟨idleHost_fine _ _, lasts, idleHost_fine _ _, trivial⟩
  have writeSound (s : RspServer) : s.Sound writeDcr.request :=
    .of_accessed (by decide) (by decide)
  have readSound (s : RspServer) : s.Sound readDcr.request :=
    .of_accessed (by decide) (by decide)
  exact (spr_access_iff idleHost atStall_idle permitted).mpr
    ⟨writeSound _, trivial, readSound _, trivial⟩

/-- `readspr 3016`. -/
def readBehind : SprPacket where
  buf := packetBuf "qRcmd,726561647370722033303136"
  request := .read 0x3016
  parses := by decide +kernel

/-- `writespr 3105 21`. -/
def writeAlias : SprPacket where
  buf := packetBuf "qRcmd,77726974657370722033313035203231"
  request := .write 0x3105 0x21
  parses := by decide +kernel

/-- `writespr 4 21`. -/
def writeFour : SprPacket where
  buf := packetBuf "qRcmd,77726974657370722034203231"
  request := .write 4 0x21
  parses := by decide +kernel

/-- A word behind the copy is read; the register 3005 is written, and register 0, instead of
the one that was asked for. -/
theorem stray_numbers_wrong :
    AtStall idleServer ∧ ∀ packet ∈ [readBehind, writeAlias, writeFour],
      ¬ Always (StallRequest.run idleHost) (StallRequest.Right idleHost)
        (idleServer, idleServer.target.cpu.spr) [.spr packet] := by
  refine ⟨atStall_idle, fun packet member always => ?_⟩
  have unsound : ∀ packet ∈ [readBehind, writeAlias, writeFour],
      ¬ idleServer.Sound packet.request := by decide +kernel
  rw [← atStall_idle.agrees] at always
  exact unsound packet member ((StallRequest.right_iff rfl (idleHost_fine _ _)).mp always.1)

end OrpsocCores.Gdb
