import OrpsocCores.Gdb.HardwareBreakpoints

/-!
# One reply for each request

A client waits for the reply to a request before it sends the next one.  The
requests for registers and memory, for matchpoints and for commands are each to
be answered by exactly one packet, whatever their arguments are and however the
debug accesses end.

`oneReply_iff` says when they are.  Four handlers have a way out that does not
fit.  A `Z1` without a free pair is refused with an empty reply and then answered
`OK`.  A command that is neither `readspr` nor `writespr` is not answered.  An
`M` packet without a colon can send `rsp_write_mem` to an address that it has
computed from `NULL`.  And an `m` packet for more than the buffers hold is only
cut down when it is for twice as much.  Every other request is answered once, in
every state of the server and for any outcome of the debug accesses.
-/

set_option autoImplicit false

namespace OrpsocCores.Gdb

open Scanf FixedBuffer

/-! ## When a request is answered once -/

/-- The requests that are answered by a packet. -/
def ExpectsReply (buf : RspBuf) : Prop :=
  requestKind (buf.chars 0) ∈
      [.readAllRegs, .writeAllRegs, .readMem, .writeMem, .writeMemBin, .readReg, .writeReg,
        .insertMatchpoint, .removeMatchpoint] ∨
    requestKind (buf.chars 0) = .query ∧ buf.startsWith "qRcmd," = true

instance (buf : RspBuf) : Decidable (ExpectsReply buf) := inferInstanceAs (Decidable (_ ∨ _))

/-- The command is one of the two that there are. -/
def KnownCommand (cmd : List Byte) : Prop :=
  (str "readspr").isPrefixOf cmd = true ∨ (str "writespr").isPrefixOf cmd = true

/-- The request does not take a way out that leaves it without a reply, or with
two. -/
structure Answerable (host : Host) (s : RspServer) (buf : RspBuf) : Prop where
  insert : requestKind (buf.chars 0) = .insertMatchpoint → ∀ addr len,
    three (sscanf (matchpointFormat 'Z') buf.cText) = some (1, addr, len) →
      ∃ i < or1kMaxMatchpoints, FreePair (s.debugRegs host) i
  readMem : requestKind (buf.chars 0) = .readMem → ∀ addr len,
    two (sscanf (memFormat 'm') buf.cText) = some (addr, len) →
      host.mallocs (RspServer.readLength len) = true →
        (readMemory host s.target addr (RspServer.readLength len).toNat).err ≠ .errNone ∨
          RspServer.ReplyFits host (RspServer.readLength len).toNat
  writeMem : requestKind (buf.chars 0) = .writeMem → ∀ addr len,
    two (sscanf (memFormat 'M') buf.cText) = some (addr, len) →
      (len * 2).toInt = RspServer.datlen host buf →
        ¬ (buf.colon = none ∧ 0 < RspServer.datlen host buf)
  command : requestKind (buf.chars 0) = .query → KnownCommand (RspServer.command buf)

/-! ## One more packet -/

/-- The server has sent one more packet. -/
def AddsReply (s s' : RspServer) : Prop := ∃ body, s'.sent = s.sent ++ [body]

theorem AddsReply.put {s s' : RspServer} (quiet : s'.sent = s.sent) (body : List Byte) :
    AddsReply s (s'.put body) := ⟨body, by rw [RspServer.put, quiet]⟩

theorem AddsReply.length {s s' : RspServer} (adds : AddsReply s s') :
    (s.replies s').length = 1 := by
  obtain ⟨body, sent⟩ := adds
  rw [RspServer.replies_of_sent sent, List.length_singleton]

/-- A request that is not answered. -/
theorem not_one_of_silent {s s' : RspServer} (silent : s'.sent = s.sent) :
    (s.replies s').length ≠ 1 := by
  rw [RspServer.replies_of_sent (silent.trans (List.append_nil _).symm)]
  exact Nat.zero_ne_one

/-- What a scan has found is all that it has found. -/
theorem forall_parsed {found : Option (BitVec 32 × BitVec 32)} {addr len : BitVec 32}
    {p : BitVec 32 → BitVec 32 → Prop} (parsed : found = some (addr, len)) :
    (∀ addr' len', found = some (addr', len') → p addr' len') ↔ p addr len := by
  refine ⟨fun all => all addr len parsed, fun holds addr' len' parsed' => ?_⟩
  cases parsed.symm.trans parsed'
  exact holds

namespace RspServer

variable (host : Host) (s : RspServer)

/-! ## Registers -/

theorem readCpuReg_adds (adr : BitVec 32) : AddsReply s (s.readCpuReg host adr) := by
  unfold readCpuReg
  dsimp only
  split_ifs <;> exact .put rfl _

theorem writeCpuReg_adds (adr val : BitVec 32) : AddsReply s (s.writeCpuReg host adr val) := by
  unfold writeCpuReg
  dsimp only
  split_ifs <;> exact .put rfl _

theorem rspReadAllRegs_adds : AddsReply s (s.rspReadAllRegs host) := .put rfl _

theorem rspWriteAllRegs_adds (buf : RspBuf) : AddsReply s (s.rspWriteAllRegs host buf) :=
  .put (by rw [setNpc_sent, touch]) _

theorem rspReadReg_adds (buf : RspBuf) : AddsReply s (s.rspReadReg host buf) := by
  unfold rspReadReg
  split
  · split_ifs
    · exact s.readCpuReg_adds host _
    · exact s.readCpuReg_adds host _
    · exact .put (s.getNpc_sent host) _
    · exact s.readCpuReg_adds host _
    · exact .put rfl _
  · exact .put rfl _

theorem rspWriteReg_adds (buf : RspBuf) : AddsReply s (s.rspWriteReg host buf) := by
  unfold rspWriteReg
  split
  · dsimp only
    split_ifs
    · exact s.writeCpuReg_adds host _ _
    · exact s.writeCpuReg_adds host _ _
    · exact .put (s.setNpc_sent host _) _
    · exact s.writeCpuReg_adds host _ _
    · exact .put rfl _
  · exact .put rfl _

theorem readspr_adds (regno : BitVec 32) : AddsReply s (s.readspr host regno) := by
  unfold readspr
  dsimp only
  split_ifs
  · exact .put (s.getNpc_sent host) _
  · exact .put (s.getDebugRegisters_sent host) _
  · exact .put rfl _

theorem writespr_adds (regno val : BitVec 32) : AddsReply s (s.writespr host regno val) := by
  unfold writespr
  dsimp only
  split_ifs
  · exact .put (s.setNpc_sent host _) _
  · exact .put (s.getDebugRegisters_sent host) _
  · exact s.writeCpuReg_adds host _ _

theorem rspCommand_iff (buf : RspBuf) :
    (s.replies (s.rspCommand host buf)).length = 1 ↔ KnownCommand (command buf) := by
  unfold rspCommand KnownCommand
  dsimp only
  split_ifs with isRead isWrite
  · refine iff_of_true (AddsReply.length ?_) (.inl isRead)
    split
    · split_ifs
      · exact .put rfl _
      · exact s.readspr_adds host _
    · exact .put rfl _
  · refine iff_of_true (AddsReply.length ?_) (.inr isWrite)
    split
    · split_ifs
      · exact .put rfl _
      · exact s.writespr_adds host _ _
    · exact .put rfl _
  · exact iff_of_false (not_one_of_silent rfl) fun known => known.elim isRead isWrite

/-! ## Memory -/

theorem rspReadMem_iff {buf : RspBuf} :
    (s.replies (s.rspReadMem host buf)).length = 1 ↔ ∀ addr len,
      two (sscanf (memFormat 'm') buf.cText) = some (addr, len) →
        host.mallocs (readLength len) = true →
          (readMemory host s.target addr (readLength len).toNat).err ≠ .errNone ∨
            ReplyFits host (readLength len).toNat := by
  unfold rspReadMem
  cases parsed : two (sscanf (memFormat 'm') buf.cText) with
  | none => exact iff_of_true (AddsReply.put rfl _).length nofun
  | some both =>
      obtain ⟨addr, len⟩ := both
      rw [forall_parsed rfl]
      dsimp only
      split_ifs with granted failed fits
      · exact iff_of_true (AddsReply.put rfl _).length fun _ => .inl failed
      · exact iff_of_true (AddsReply.put rfl _).length fun _ => .inr fits
      · exact iff_of_false (not_one_of_silent rfl) fun answered =>
          (answered granted).elim failed fits
      · exact iff_of_true (AddsReply.put rfl _).length fun grants => absurd grants granted

theorem rspWriteMem_iff {buf : RspBuf} :
    (s.replies (s.rspWriteMem host buf)).length = 1 ↔ ∀ addr len,
      two (sscanf (memFormat 'M') buf.cText) = some (addr, len) →
        (len * 2).toInt = datlen host buf → ¬ (buf.colon = none ∧ 0 < datlen host buf) := by
  unfold rspWriteMem
  cases parsed : two (sscanf (memFormat 'M') buf.cText) with
  | none => exact iff_of_true (AddsReply.put rfl _).length nofun
  | some both =>
      obtain ⟨addr, len⟩ := both
      rw [forall_parsed rfl]
      dsimp only
      split_ifs with differs wild failed
      · exact iff_of_true (AddsReply.put rfl _).length fun same => absurd same differs
      · exact iff_of_false (not_one_of_silent rfl) fun tame => tame (not_not.mp differs) wild
      · exact iff_of_true (AddsReply.put rfl _).length fun _ => wild
      · exact iff_of_true (AddsReply.put rfl _).length fun _ => wild

/-- Unescaping reads at most one byte behind the last one. -/
theorem rspUnescapeLoop_total {n len : Nat} (room : len < n) (data : Vector Byte n)
    {fromOff toOff : Nat} (behind : toOff ≤ fromOff) :
    ∃ result, rspUnescapeLoop len data fromOff toOff = .ok result := by
  induction left : len - fromOff using Nat.strongRecOn generalizing data fromOff toOff with
  | ind m ih =>
      rw [rspUnescapeLoop]
      split_ifs with more
      · have inside : fromOff < n := by omega
        have next : fromOff + 1 < n := by omega
        have target : toOff < n := by omega
        simp only [load_of_lt inside, load_of_lt next, store_of_lt target, bind, Except.bind]
        split_ifs
        · exact ih (len - (fromOff + 2)) (by omega) _ (by omega) rfl
        · exact ih (len - (fromOff + 1)) (by omega) _ (by omega) rfl
      · exact ⟨_, rfl⟩

theorem rspWriteMemBin_adds {buf : RspBuf} (received : buf.len < gdbBufMax) :
    AddsReply s (s.rspWriteMemBin host buf) := by
  unfold rspWriteMemBin
  split
  · split
    · exact .put rfl _
    · rename_i i _
      dsimp only
      split_ifs with outside
      · exact .put rfl _
      · have room : buf.len - (i + 1) < gdbBufMax - (i + 1) := by omega
        obtain ⟨⟨data, newlen⟩, unescaped⟩ :=
          rspUnescapeLoop_total room (buf.data.drop (i + 1)) (Nat.le_refl 0)
        rw [rspUnescape, unescaped]
        dsimp only
        split_ifs <;> exact .put rfl _
  · exact .put rfl _

/-! ## Matchpoints -/

theorem insertMemory_adds (addr : BitVec 32) : AddsReply s (s.insertMemory host addr) := by
  unfold insertMemory
  dsimp only
  split_ifs <;> exact .put rfl _

theorem removeMemory_adds (addr : BitVec 32) : AddsReply s (s.removeMemory host addr) := by
  unfold removeMemory
  split
  · exact .put rfl _
  · dsimp only
    split_ifs <;> exact .put rfl _

theorem removeHardware_adds (addr : BitVec 32) : AddsReply s (s.removeHardware host addr) := by
  rcases findMatchingDcrdvrPair_spec (s.debugRegs host) addr with
    ⟨i, -, -, -, found⟩ | ⟨-, found⟩
  · rw [s.removeHardware_found host found]
    exact ⟨_, rfl⟩
  · rw [s.removeHardware_none host found]
    exact ⟨_, rfl⟩

theorem rspRemoveMatchpoint_adds (buf : RspBuf) : AddsReply s (s.rspRemoveMatchpoint host buf) := by
  unfold rspRemoveMatchpoint
  split
  · split_ifs
    · exact s.removeMemory_adds host _
    · exact s.removeHardware_adds host _
    · exact .put rfl _
    · exact .put rfl _
  · exact .put rfl _

/-- A `Z1` is answered once if there is a free pair. -/
theorem insertHardware_iff (addr : BitVec 32) :
    (s.replies (s.insertHardware host addr)).length = 1 ↔
      ∃ i < or1kMaxMatchpoints, FreePair (s.debugRegs host) i := by
  rcases findFreeDcrdvrPair_spec (s.debugRegs host) with ⟨i, inside, free, found⟩ | ⟨none, found⟩
  · rw [s.insertHardware_found host found]
    exact iff_of_true (AddsReply.length ⟨_, rfl⟩) ⟨i, inside, free⟩
  · have twice : (s.insertHardware host addr).sent = s.sent ++ [[], str "OK"] := by
      rw [s.insertHardware_none host found]
    rw [replies_of_sent twice]
    exact iff_of_false (by decide) fun ⟨i, inside, free⟩ => none i inside free

theorem rspInsertMatchpoint_iff {buf : RspBuf} :
    (s.replies (s.rspInsertMatchpoint host buf)).length = 1 ↔ ∀ addr len,
      three (sscanf (matchpointFormat 'Z') buf.cText) = some (1, addr, len) →
        ∃ i < or1kMaxMatchpoints, FreePair (s.debugRegs host) i := by
  unfold rspInsertMatchpoint
  cases parsed : three (sscanf (matchpointFormat 'Z') buf.cText) with
  | none => exact iff_of_true (AddsReply.put rfl _).length nofun
  | some all =>
      obtain ⟨type, addr, len⟩ := all
      have other (notHardware : type ≠ 1) : ∀ addr' len',
          some (type, addr, len) = some (1, addr', len') →
            ∃ i < or1kMaxMatchpoints, FreePair (s.debugRegs host) i := by
        intro addr' len' same
        cases same
        exact absurd rfl notHardware
      dsimp only
      split_ifs with memory hardware unsupported
      · exact iff_of_true (s.insertMemory_adds host addr).length
          (other fun hardware => absurd (memory.symm.trans hardware) (by decide))
      · rw [s.insertHardware_iff host addr, hardware]
        exact ⟨fun free _ _ _ => free, fun all => all addr len rfl⟩
      · exact iff_of_true (AddsReply.put rfl _).length (other hardware)
      · exact iff_of_true (AddsReply.put rfl _).length (other hardware)

end RspServer

/-! ## All requests -/

/-- The condition for a request that has none. -/
theorem answerable_of_other {host : Host} {s : RspServer} {buf : RspBuf}
    (other : requestKind (buf.chars 0) ∉
      [.insertMatchpoint, .readMem, .writeMem, .query]) : Answerable host s buf := by
  simp only [List.mem_cons, List.not_mem_nil, or_false, not_or] at other
  obtain ⟨insert, readMem, writeMem, query⟩ := other
  exact ⟨fun is => absurd is insert, fun is => absurd is readMem, fun is => absurd is writeMem,
    fun is => absurd is query⟩

/-- **One reply for each request.**  A request for registers or memory, for a
matchpoint, or with a command is answered by exactly one packet if and only if it
does not take one of the ways out, in any state of the server and however the
debug accesses end. -/
theorem oneReply_iff (host : Host) (s : RspServer) {buf : RspBuf} (received : buf.len < gdbBufMax)
    (expected : ExpectsReply buf) :
    (s.replies (s.rspClientRequest host buf)).length = 1 ↔ Answerable host s buf := by
  have always {s' : RspServer} (adds : AddsReply s s')
      (other : requestKind (buf.chars 0) ∉ [.insertMatchpoint, .readMem, .writeMem, .query]) :
      (s.replies s').length = 1 ↔ Answerable host s buf :=
    iff_of_true adds.length (answerable_of_other other)
  have apart {kind other : RequestKind} {p : Prop} (here : requestKind (buf.chars 0) = kind)
      (differs : kind ≠ other) : requestKind (buf.chars 0) = other → p :=
    fun there => absurd (here.symm.trans there) differs
  unfold RspServer.rspClientRequest
  cases kind : requestKind (buf.chars 0)
  case readAllRegs => exact always (s.rspReadAllRegs_adds host) (by simp [kind])
  case writeAllRegs => exact always (s.rspWriteAllRegs_adds host buf) (by simp [kind])
  case readReg => exact always (s.rspReadReg_adds host buf) (by simp [kind])
  case writeReg => exact always (s.rspWriteReg_adds host buf) (by simp [kind])
  case writeMemBin => exact always (s.rspWriteMemBin_adds host received) (by simp [kind])
  case removeMatchpoint => exact always (s.rspRemoveMatchpoint_adds host buf) (by simp [kind])
  case insertMatchpoint =>
    refine (s.rspInsertMatchpoint_iff host).trans
      ⟨fun insert => ⟨fun _ => insert, apart kind (by decide), apart kind (by decide),
        apart kind (by decide)⟩, fun answerable => answerable.insert kind⟩
  case readMem =>
    refine (s.rspReadMem_iff host).trans
      ⟨fun readMem => ⟨apart kind (by decide), fun _ => readMem, apart kind (by decide),
        apart kind (by decide)⟩, fun answerable => answerable.readMem kind⟩
  case writeMem =>
    refine (s.rspWriteMem_iff host).trans
      ⟨fun writeMem => ⟨apart kind (by decide), apart kind (by decide), fun _ => writeMem,
        apart kind (by decide)⟩, fun answerable => answerable.writeMem kind⟩
  case query =>
    have isCommand : buf.startsWith "qRcmd," = true := by
      rcases expected with listed | ⟨-, isCommand⟩
      · rw [kind] at listed
        simp at listed
      · exact isCommand
    dsimp only
    rw [RspServer.rspQuery_command isCommand]
    refine (s.rspCommand_iff host buf).trans
      ⟨fun known => ⟨apart kind (by decide), apart kind (by decide), apart kind (by decide),
        fun _ => known⟩, fun answerable => answerable.command kind⟩
  all_goals
    rcases expected with listed | ⟨isQuery, -⟩
    · rw [kind] at listed
      simp at listed
    · rw [kind] at isQuery
      cases isQuery

/-- A breakpoint for which there is no pair is answered twice. -/
theorem crowded_answered_twice :
    ¬ ((idleServer.replies (idleServer.rspClientRequest idleHost (packetBuf "Z1,100,4"))).length =
      1) := by
  decide +kernel

/-- A register is read, with one reply. -/
theorem oneReply_readReg :
    (idleServer.replies (idleServer.rspClientRequest idleHost (packetBuf "p21"))).length = 1 := by
  refine (oneReply_iff idleHost idleServer (by decide +kernel) (by decide +kernel)).mpr ?_
  exact answerable_of_other (by decide +kernel)

end OrpsocCores.Gdb
