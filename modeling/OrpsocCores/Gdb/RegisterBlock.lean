import OrpsocCores.Gdb.HandleRsp

/-!
# Reading and writing all registers

A `G` packet carries the 32 general purpose registers, PPC, NPC and SR, eight
digits each.  The request is to set these registers of the processor and no
other one, and a `g` that follows is to return the same digits.

The code does neither.  The length that `rsp_write_all_regs` passes for the
general purpose registers is eight times what it should be: 256 words are
written, of which all but the first 32 come from the memory behind the array
`gpr_regs`, so that the registers at the addresses behind the general purpose
registers get whatever lies there (`rspWriteAllRegs_spills`).  And
`rsp_read_all_regs` formats PPC last, whose terminator falls on the first digit
of NPC (`rspReadAllRegs_npc_digit`).  No packet and no state of the server makes
a difference to either (`registerBlock_never`, `rspReadAllRegs_never`).
-/

set_option autoImplicit false

namespace OrpsocCores.Gdb

/-! ## The contract -/

/-- The register is one of those in a `G` packet. -/
def InBlock (adr : BitVec 32) : Prop :=
  (∃ i < maxGprs, adr = gprCpuRegAdd + BitVec.ofNat 32 i) ∨
    adr = ppcCpuRegAdd ∨ adr = npcCpuRegAdd ∨ adr = srCpuRegAdd

instance (adr : BitVec 32) : Decidable (InBlock adr) :=
  inferInstanceAs (Decidable (_ ∨ _))

/-- What a `G` packet is to do, between two states of the server: no array is left,
the registers are those of the packet, the other ones stay, and on a processor
that is plain storage a `g` returns the digits of the packet. -/
structure WritesExactly (host : Host) (buf : RspBuf) (s s' : RspServer) : Prop where
  inRange : ∀ touch ∈ s.touches s', touch.InRange
  gprs : ∀ i < maxGprs, s'.target.cpu.spr (gprCpuRegAdd + BitVec.ofNat 32 i) =
    RspServer.packetReg buf i
  ppc : s'.target.cpu.spr ppcCpuRegAdd = RspServer.packetReg buf ppcRegnum
  npc : s'.target.cpu.spr npcCpuRegAdd = RspServer.packetReg buf npcRegnum
  sr : s'.target.cpu.spr srCpuRegAdd = RspServer.packetReg buf srRegnum
  others : ∀ adr, ¬ InBlock adr → s'.target.cpu.spr adr = s.target.cpu.spr adr
  readBack : host.flushes = false → s'.target.cpu.flushed = false →
    s'.replies (s'.rspReadAllRegs host) =
      [(List.range (numRegs * 8)).map fun i => buf.chars (1 + i)]

namespace RspServer

variable (host : Host) (s : RspServer)

/-! ## Writing -/

theorem rspWriteAllRegs_touches (buf : RspBuf) :
    s.touches (s.rspWriteAllRegs host buf) = (List.range gprBlockWords).map .gprWord := by
  simp [touches, rspWriteAllRegs, put, touch]

/-- Setting the next program counter leaves the other registers as they are. -/
theorem setNpc_spr {adr : BitVec 32} (other : adr ≠ npcCpuRegAdd) (addr : BitVec 32) :
    (s.setNpc host addr).target.cpu.spr adr = s.target.cpu.spr adr := by
  have written : (gdbWriteReg host (s.getNpc host).1.target npcCpuRegAdd addr).target.cpu.spr adr =
      s.target.cpu.spr adr := by
    simp only [gdbWriteReg, Target.writes]
    split
    · rw [Cpu.write_spr, if_neg (by decide), Function.update_of_ne other, getNpc_cpu]
    · rw [getNpc_cpu]
  unfold setNpc
  dsimp only
  split_ifs
  · rw [getNpc_cpu]
  · exact written
  · exact written

/-- A register behind the general purpose registers. -/
theorem behind_ne {i : Nat} (behind : maxGprs ≤ i) (inside : i < gprBlockWords) :
    ¬ InBlock (gprCpuRegAdd + BitVec.ofNat 32 i) := by
  simp only [maxGprs, gprBlockWords] at behind inside
  rintro (⟨j, small, same⟩ | same | same | same)
  · simp only [maxGprs, gprCpuRegAdd] at small same
    bv_omega
  all_goals
    simp only [gprCpuRegAdd, ppcCpuRegAdd, npcCpuRegAdd, srCpuRegAdd] at same
    bv_omega

/-- **The registers behind the general purpose registers get what lies behind the
array.** -/
theorem rspWriteAllRegs_spills {host : Host} (reliable : host.Reliable) (buf : RspBuf) {i : Nat}
    (behind : maxGprs ≤ i) (inside : i < gprBlockWords) :
    (s.rspWriteAllRegs host buf).target.cpu.spr (gprCpuRegAdd + BitVec.ofNat 32 i) =
      s.gprRegs i := by
  have outside := behind_ne behind inside
  have notNpc : gprCpuRegAdd + BitVec.ofNat 32 i ≠ npcCpuRegAdd := fun same =>
    outside (.inr (.inr (.inl same)))
  have notPcs : ∀ k < 2, gprCpuRegAdd + BitVec.ofNat 32 i ≠ srCpuRegAdd + BitVec.ofNat 32 k := by
    intro k small
    interval_cases k
    · exact fun same => outside (.inr (.inr (.inr (same.trans (by decide)))))
    · exact fun same => outside (.inr (.inl (same.trans (by decide))))
  rw [rspWriteAllRegs, put]
  dsimp only
  rw [setNpc_spr host _ notNpc]
  simp only [touch, gdbWriteRegs, Target.writes_reliable reliable]
  rw [Cpu.writeBlock_spr_outside host _ notPcs, Cpu.writeBlock_spr_inside host _ inside (by decide),
    if_neg (Nat.not_lt.mpr behind)]

/-! ## Reading -/

/-- The cell behind a string that was written. -/
theorem storeString_terminator (dest : Chars) (start : Nat) (text : List Byte) :
    storeString dest start text (start + text.length) = 0 := by
  have behind : ¬ start + text.length < start := by omega
  rw [storeString, if_neg behind, Nat.add_sub_cancel_left]
  simp

/-- **The first digit of NPC in the reply to a `g` is a terminator.** -/
theorem rspReadAllRegs_npc_digit :
    ∃ buffer : Chars, s.replies (s.rspReadAllRegs host) = [(List.range (numRegs * 8)).map buffer] ∧
      buffer (npcRegnum * 8) = 0 :=
  ⟨storeString _ (ppcRegnum * 8) (reg2hex _), replies_of_sent rfl, storeString_terminator _ _ _⟩

/-- No `g` returns a packet of digits. -/
theorem rspReadAllRegs_never {buf : RspBuf}
    (digits : ∀ i < numRegs * 8, 0 ≤ hex (buf.chars (1 + i))) :
    s.replies (s.rspReadAllRegs host) ≠
      [(List.range (numRegs * 8)).map fun i => buf.chars (1 + i)] := by
  obtain ⟨buffer, sent, terminator⟩ := s.rspReadAllRegs_npc_digit host
  have inside : npcRegnum * 8 ∈ List.range (numRegs * 8) := List.mem_range.mpr (by decide)
  intro same
  have digit := List.map_inj_left.mp (List.singleton_inj.mp (sent.symm.trans same)) _ inside
  have isDigit := digits (npcRegnum * 8) (by decide)
  rw [← digit, terminator] at isDigit
  exact absurd isDigit (by decide)

end RspServer

/-! ## No packet does what it should -/

/-- **Writing all registers.**  No `G` packet meets its contract, in any state of the
server and whatever the debug accesses return. -/
theorem registerBlock_never (host : Host) (s : RspServer) (buf : RspBuf) :
    ¬ WritesExactly host buf s (s.rspWriteAllRegs host buf) := by
  intro exact
  have first : Touch.gprWord maxGprs ∈ s.touches (s.rspWriteAllRegs host buf) := by
    rw [s.rspWriteAllRegs_touches host buf]
    exact List.mem_map_of_mem (List.mem_range.mpr (by decide))
  exact Nat.lt_irrefl maxGprs (exact.inRange _ first)

/-- A packet that sets all registers to zero. -/
def zeroRegs : RspBuf :=
  ⟨Vector.ofFn fun i => if i.val = 0 then chr 'G' else chr '0', gdbBufMax⟩

/-- The registers behind the general purpose registers get what lies behind the
array, here sevens. -/
theorem zeroRegs_spills :
    ¬ WritesExactly { idleHost with flushes := false } zeroRegs
      { idleServer with gprRegs := fun i => if i < maxGprs then 0 else 7 }
      ({ idleServer with gprRegs := fun i => if i < maxGprs then 0 else 7 }.rspWriteAllRegs
        { idleHost with flushes := false } zeroRegs) := by
  intro exact
  have same := exact.others (gprCpuRegAdd + BitVec.ofNat 32 maxGprs)
    (RspServer.behind_ne (Nat.le_refl _) (by decide))
  rw [RspServer.rspWriteAllRegs_spills _ (fun _ => rfl) zeroRegs (Nat.le_refl _) (by decide)] at same
  exact absurd same (by decide)

end OrpsocCores.Gdb
