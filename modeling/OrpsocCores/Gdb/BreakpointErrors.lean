import OrpsocCores.Gdb.AccessErrors

/-!
# Software breakpoints and failing accesses

Both requests change the matchpoint table first and write to the memory behind that.  When
the write fails the client is told so, but the change of the table stays.  A breakpoint
that could not be removed is not in the table any more: the next attempt is answered `OK`,
and the trap instruction stays where it is, with nothing left to put in its place.

`breakpoint_atomic_iff` says when the server is as it was behind the error: when the write
does not fail, or the table was already what the request made of it.
-/

set_option autoImplicit false

namespace OrpsocCores.Gdb

/-- The table and the memory are as before. -/
def Untouched (s s' : RspServer) : Prop :=
  s'.mpHash = s.mpHash ∧ s'.target.memory = s.target.memory

/-- A request for a software breakpoint that is answered with an error for an access that
has failed leaves the table and the memory as they were. -/
def BreakpointAtomic (host : Host) (s : RspServer) (buf : RspBuf) : Prop :=
  (softwareBreakpoint buf).isSome = true →
    AccessFailed host s (s.rspClientRequest host buf) →
    s.replies (s.rspClientRequest host buf) = [str "E01"] →
    Untouched s (s.rspClientRequest host buf)

/-- The write of a request succeeds, or the table holds what the request makes of it. -/
def SoftwareBreakpoint.Harmless (host : Host) (s : RspServer) : SoftwareBreakpoint → Prop
  | .insert addr => ¬ host.Fails (s.target.performed + 1) ∨
      (s.mpHash (.bpMemory, addr)).isSome = true
  | .remove addr => ¬ host.Fails s.target.performed ∨ s.mpHash (.bpMemory, addr) = none

/-! ## The table -/

theorem MpMap.add_eq_self_iff {m : MpMap} {key : MpKey} {instr : BitVec 32} :
    m.add key instr = m ↔ (m key).isSome = true := by
  unfold MpMap.add
  split_ifs with present
  · exact iff_of_true rfl present
  · refine iff_of_false (fun same => ?_) present
    have here := congrFun same key
    rw [Function.update_self] at here
    exact present (here ▸ Option.isSome_some)

theorem MpMap.delete_eq_self_iff {m : MpMap} {key : MpKey} : m.delete key = m ↔ m key = none :=
  Function.update_eq_self_iff.trans eq_comm

/-- A write that fails leaves the memory as it was. -/
theorem gdbWriteWords_memory {host : Host} {t : Target} (fails : host.Fails t.performed)
    (addr : BitVec 32) (data : Nat → BitVec 32) (words : Nat) :
    (gdbWriteWords host t addr data words).target.memory = t.memory := by
  have failed : t.err host ≠ .errNone := fails
  rw [gdbWriteWords, Target.writes, if_neg failed]

/-! ## The requests -/

namespace RspServer

variable (host : Host) (s : RspServer)

theorem insertMemory_failed (fails : host.Fails (s.target.performed + 1)) (addr : BitVec 32) :
    s.replies (s.insertMemory host addr) = [str "E01"] ∧
      (Untouched s (s.insertMemory host addr) ↔ (s.mpHash (.bpMemory, addr)).isSome = true) := by
  unfold insertMemory
  extract_lets instr written s₁
  have failed : written.err ≠ .errNone := fails
  rw [if_pos failed]
  refine ⟨replies_of_sent rfl, ?_⟩
  have memory : written.target.memory = s.target.memory :=
    gdbWriteWords_memory (t := instr.target) fails addr _ 1
  exact (and_iff_left memory).trans MpMap.add_eq_self_iff

theorem removeMemory_failed {addr instr : BitVec 32} (fails : host.Fails s.target.performed)
    (present : s.mpHash (.bpMemory, addr) = some instr) :
    s.replies (s.removeMemory host addr) = [str "E01"] ∧
      ¬ Untouched s (s.removeMemory host addr) := by
  have failed : (gdbWriteWords host s.target addr (fun _ => instr) 1).err ≠ .errNone := fails
  unfold removeMemory
  rw [present]
  dsimp only
  rw [if_pos failed]
  refine ⟨replies_of_sent rfl, fun untouched => ?_⟩
  have absent := MpMap.delete_eq_self_iff.mp untouched.1
  rw [present] at absent
  cases absent

/-- An insertion that is answered with an error leaves everything as it was exactly when
its write does not fail or the breakpoint was there. -/
theorem insertMemory_atomic_iff (addr : BitVec 32) :
    (AccessFailed host s (s.insertMemory host addr) →
        s.replies (s.insertMemory host addr) = [str "E01"] →
        Untouched s (s.insertMemory host addr)) ↔
      (SoftwareBreakpoint.insert addr).Harmless host s := by
  have tests := s.insertMemory_tests host addr
  have tested : host.TestedFails s.target.performed [false, true] ↔
      host.Fails (s.target.performed + 1) := by
    simp [Host.TestedFails]
  by_cases fails : host.Fails (s.target.performed + 1)
  · obtain ⟨replied, untouched⟩ := s.insertMemory_failed host fails addr
    have made : (s.insertMemory host addr).target.performed = s.target.performed + 2 := by
      unfold insertMemory
      dsimp only
      split_ifs <;> rfl
    have failed : AccessFailed host s (s.insertMemory host addr) :=
      (accessFailed_iff made).mpr ⟨1, Nat.lt_succ_self 1, fails⟩
    rw [SoftwareBreakpoint.Harmless, or_iff_right (not_not.mpr fails), ← untouched]
    exact ⟨fun atomic => atomic failed replied, fun holds _ _ => holds⟩
  · refine iff_of_true (fun _ replied => ?_) (.inl fails)
    exact absurd replied (tests.untested (fails ∘ tested.mp) (List.cons_ne_nil _ _))

/-- A removal that is answered with an error leaves everything as it was exactly when its
write does not fail or there was no breakpoint. -/
theorem removeMemory_atomic_iff (addr : BitVec 32) :
    (AccessFailed host s (s.removeMemory host addr) →
        s.replies (s.removeMemory host addr) = [str "E01"] →
        Untouched s (s.removeMemory host addr)) ↔
      (SoftwareBreakpoint.remove addr).Harmless host s := by
  have tests := s.removeMemory_tests host addr
  cases present : s.mpHash (.bpMemory, addr) with
  | none =>
      rw [present] at tests
      refine iff_of_true (fun failed => ?_) (.inr present)
      exact absurd ((tests.failed id).mp failed) (Host.not_anyFails_zero _)
  | some instr =>
      rw [present, Option.isSome_some, if_pos rfl] at tests
      have tested : host.TestedFails s.target.performed [true] ↔
          host.Fails s.target.performed := by
        simp [Host.TestedFails]
      by_cases fails : host.Fails s.target.performed
      · obtain ⟨replied, touched⟩ := s.removeMemory_failed host fails present
        have made : (s.removeMemory host addr).target.performed = s.target.performed + 1 := by
          unfold removeMemory
          rw [present]
          dsimp only
          split_ifs <;> rfl
        have failed : AccessFailed host s (s.removeMemory host addr) :=
          (accessFailed_iff made).mpr ⟨0, Nat.one_pos, fails⟩
        refine iff_of_false (fun atomic => touched (atomic failed replied)) ?_
        rintro (fine | absent)
        · exact fine fails
        · cases present.symm.trans absent
      · refine iff_of_true (fun _ replied => ?_) (.inl fails)
        exact absurd replied (tests.untested (fails ∘ tested.mp) (List.cons_ne_nil _ _))

end RspServer

/-- **A request for a software breakpoint that fails leaves the server as it was exactly
when it is not its write that fails, or the table needed no change.** -/
theorem breakpoint_atomic_iff (host : Host) (s : RspServer) (buf : RspBuf) :
    BreakpointAtomic host s buf ↔
      ∀ request, softwareBreakpoint buf = some request → request.Harmless host s := by
  unfold BreakpointAtomic
  cases is : softwareBreakpoint buf with
  | none => exact iff_of_true nofun nofun
  | some request =>
      have only : (∀ request', some request = some request' → request'.Harmless host s) ↔
          request.Harmless host s := by
        refine ⟨fun all => all request rfl, fun harmless request' same => ?_⟩
        rw [← Option.some.inj same]
        exact harmless
      rw [imp_iff_right Option.isSome_some, only, s.rspClientRequest_breakpoint host is]
      cases request with
      | insert addr => exact s.insertMemory_atomic_iff host addr
      | remove addr => exact s.removeMemory_atomic_iff host addr

/-- A server that has set a breakpoint. -/
def breakpointSet (host : Host) : RspServer :=
  idleServer.rspClientRequest host (packetBuf "Z0,100,4")

/-- The write that removes the breakpoint fails.  The second attempt is answered `OK`, but
the trap instruction is still there. -/
theorem failed_removal_wrong :
    ¬ BreakpointAtomic (failingHost [2]) (breakpointSet (failingHost [2]))
        (packetBuf "z0,100,4") ∧
      (let first := (breakpointSet (failingHost [2])).rspClientRequest (failingHost [2])
          (packetBuf "z0,100,4")
        let second := first.rspClientRequest (failingHost [2]) (packetBuf "z0,100,4")
        first.replies second = [str "OK"] ∧
          readWord second.target.memory 0x100 = or1kTrapInstr) := by
  refine ⟨fun atomic => ?_, by decide +kernel⟩
  have untouched := atomic (by decide +kernel)
    ⟨2, by decide +kernel, by decide +kernel, by decide⟩ (by decide +kernel)
  exact absurd (congrFun untouched.1 (.bpMemory, 0x100)) (by decide +kernel)

end OrpsocCores.Gdb
