import OrpsocCores.Gdb.WriteBack

/-!
# Hardware breakpoints and stepping

A hardware breakpoint that the client has inserted, and not removed since, is to
be in the debug registers of the processor whenever a `c` releases it: its
address, the compare condition "equal", and its bit of the field WGB in DMR2.

An `s` masks the whole field WGB in the cached registers, and these are what it
writes back.  When the processor stalls again the cache is filled from it, with
the field still zero; nothing sets the bits again but another `Z1`.  A breakpoint
that was inserted before an `s` is lost.  `breakpoints_survive` says that this is
all: as long as no `c` finds a lost breakpoint, every one that is inserted is
written to the processor.  It holds from any state of the server on and for any
other requests in between, but a `writespr` to the debug registers.
-/

set_option autoImplicit false

namespace OrpsocCores.Gdb

open Scanf Trace

/-! ## What has been inserted -/

/-- The addresses of the breakpoints that were inserted and not removed since, and
of those among them that were inserted before an `s`. -/
structure Breakpoints where
  inserted : List (BitVec 32)
  lost : List (BitVec 32)

/-- Without the breakpoints at an address. -/
def without (addr : BitVec 32) (addrs : List (BitVec 32)) : List (BitVec 32) :=
  addrs.filter fun a => a ≠ addr

theorem mem_without {addr a : BitVec 32} {addrs : List (BitVec 32)} :
    a ∈ without addr addrs ↔ a ∈ addrs ∧ a ≠ addr := by
  simp [without]

namespace Breakpoints

/-- A request was served, and answered `OK` or not. -/
def record (b : Breakpoints) (ok : Bool) : DebugRequest → Breakpoints
  | .insert addr => if ok then ⟨addr :: b.inserted, without addr b.lost⟩ else b
  | .remove addr => if ok then ⟨without addr b.inserted, without addr b.lost⟩ else b
  | .resume true _ => ⟨b.inserted, b.inserted⟩
  | _ => b

/-- The request does not reach what is wrong: a `c` finds no lost breakpoint, the
searches of `Z1` and `z1` find a pair, and nobody writes to the debug registers
behind their back. -/
def Permits (b : Breakpoints) (regs : DbgGroupRegs) : DebugRequest → Prop
  | .insert _ => ∃ i < or1kMaxMatchpoints, FreePair regs i
  | .remove addr => ∃ i < or1kMaxMatchpoints, SetFor regs addr i
  | .resume false _ => b.lost = []
  | .writeWord _ _ => False
  | _ => True

instance (b : Breakpoints) (regs : DbgGroupRegs) :
    (request : DebugRequest) → Decidable (b.Permits regs request)
  | .insert _ => inferInstanceAs (Decidable (∃ i < or1kMaxMatchpoints, FreePair regs i))
  | .remove addr => inferInstanceAs (Decidable (∃ i < or1kMaxMatchpoints, SetFor regs addr i))
  | .resume false _ => inferInstanceAs (Decidable (b.lost = []))
  | .writeWord _ _ => .isFalse id
  | .none | .readNpc | .writeNpc _ | .restart | .readWord _ | .resume true _ | .wait | .detach
  | .stall => .isTrue trivial

end Breakpoints

/-- The request is for a hardware breakpoint. -/
def DebugRequest.hardware : DebugRequest → Option HwRequest
  | .insert addr => some (.insert addr)
  | .remove addr => some (.remove addr)
  | _ => Option.none

/-! ## Breakpoints in the registers -/

/-- A pair is set for the address and enabled. -/
def InForce (regs : DbgGroupRegs) (addr : BitVec 32) : Prop :=
  ∃ i < or1kMaxMatchpoints, SetFor regs addr i ∧ enabled regs i = true

instance (regs : DbgGroupRegs) (addr : BitVec 32) : Decidable (InForce regs addr) :=
  inferInstanceAs (Decidable (∃ i < or1kMaxMatchpoints, _))

namespace InForce

variable {regs regs' : DbgGroupRegs} {addr : BitVec 32}

theorem of_samePair (inForce : InForce regs addr)
    (same : ∀ i < or1kMaxMatchpoints, SamePair regs regs' i) : InForce regs' addr := by
  obtain ⟨i, inside, set, enable⟩ := inForce
  exact ⟨i, inside, ((same i inside).setFor_iff addr).mpr set,
    (same i inside).enable.trans enable⟩

/-- A breakpoint is in force once it has been inserted. -/
theorem inserted (addr : BitVec 32) (free : ∃ i < or1kMaxMatchpoints, FreePair regs i) :
    InForce (insertHwBreakpoint regs addr) addr := by
  rcases findFreeDcrdvrPair_spec regs with ⟨i, inside, -, found⟩ | ⟨none, -⟩
  · obtain ⟨set, enable, -⟩ := insertPair_spec regs addr inside
    rw [insertHwBreakpoint, found]
    exact ⟨i, inside, set, enable⟩
  · obtain ⟨i, inside, free⟩ := free
    exact absurd free (none i inside)

/-- An insertion takes a pair that is not in use. -/
theorem insert (inForce : InForce regs addr) (other : BitVec 32)
    (free : ∃ i < or1kMaxMatchpoints, FreePair regs i) :
    InForce (insertHwBreakpoint regs other) addr := by
  rcases findFreeDcrdvrPair_spec regs with ⟨i, inside, masked, found⟩ | ⟨none, -⟩
  · obtain ⟨j, insideJ, set, enable⟩ := inForce
    have apart : j ≠ i := by
      rintro rfl
      exact absurd (masked.1.symm.trans set.2) (by decide)
    have same := (insertPair_spec regs other inside).2.2 j insideJ apart
    rw [insertHwBreakpoint, found]
    exact ⟨j, insideJ, (same.setFor_iff addr).mpr set, same.enable.trans enable⟩
  · obtain ⟨i, inside, free⟩ := free
    exact absurd free (none i inside)

/-- A removal takes away a pair set for the address it is about. -/
theorem remove (inForce : InForce regs addr) {other : BitVec 32} (apart : addr ≠ other)
    (set : ∃ i < or1kMaxMatchpoints, SetFor regs other i) :
    InForce (removeHwBreakpoint regs other) addr := by
  rcases findMatchingDcrdvrPair_spec regs other with ⟨i, inside, here, -, found⟩ | ⟨none, -⟩
  · have notNegative : ¬ (i : Int) < 0 := by omega
    obtain ⟨j, insideJ, set, enable⟩ := inForce
    have pair : j ≠ i := by
      rintro rfl
      exact apart (set.1.symm.trans here.1)
    have same := (((removePair_spec regs inside).2 j insideJ pair).trans
      ((removePair_spec _ inside).2 j insideJ pair)).trans
        ((disablePair_spec _ inside).2 j insideJ pair)
    rw [removeHwBreakpoint, found, if_neg notNegative]
    exact ⟨j, insideJ, (same.setFor_iff addr).mpr set, same.enable.trans enable⟩
  · obtain ⟨i, inside, set⟩ := set
    exact absurd set (none i inside)

/-- A `c` leaves the pairs and their bits as they are. -/
theorem continueRegs (inForce : InForce regs addr) : InForce (continueRegs regs) addr := by
  refine inForce.of_samePair fun i inside => ?_
  simp only [or1kMaxMatchpoints] at inside
  refine ⟨?_, ?_, ?_⟩
  · simp only [Gdb.continueRegs, Function.update_apply, dvr, drr, dmr1, dsr]
    rw [if_neg (by omega), if_neg (by omega), if_neg (by omega)]
  · simp only [Gdb.continueRegs, Function.update_apply, dcr, drr, dmr1, dsr]
    rw [if_neg (by omega), if_neg (by omega), if_neg (by omega)]
  · simp only [enabled, Gdb.continueRegs, Function.update_apply, dmr2, drr, dmr1, dsr]
    rw [if_neg (by omega), if_neg (by omega), if_neg (by omega)]

/-- Only the words of the structure matter. -/
theorem of_agree (inForce : InForce regs addr) (agree : Agree regs regs') : InForce regs' addr :=
  inForce.of_samePair fun i inside =>
    ⟨(agree.dvr inside).symm, (agree.dcr inside).symm, by
      rw [enabled, enabled, agree dmr2 (by decide) (by decide)]⟩

end InForce

/-! ## The cache and the processor -/

/-- Every breakpoint that is inserted and not lost is in force in the cache and,
while there is no copy, in the processor, from which the next one is made. -/
structure Armed (v : View) (b : Breakpoints) : Prop where
  cached : ∀ addr ∈ b.inserted, addr ∉ b.lost → InForce v.regs addr
  held : v.dirty = -1 → ∀ addr ∈ b.inserted, addr ∉ b.lost → InForce (ofCpuRegs v.cpuRegs) addr

namespace Armed

variable {v w : View} {b : Breakpoints}

/-- Nothing but the debug registers matters. -/
theorem of_eq (armed : Armed v b) (regs : w.regs = v.regs) (dirty : w.dirty = v.dirty)
    (cpuRegs : w.cpuRegs = v.cpuRegs) : Armed w b := by
  refine ⟨?_, ?_⟩
  · rw [regs]
    exact armed.cached
  · rw [dirty, cpuRegs]
    exact armed.held

theorem same (armed : Armed v b) (same : View.SameButNpc v w) : Armed w b :=
  armed.of_eq same.regs same.dirty same.cpuRegs

/-- A cache that is not the copy to be made again. -/
theorem of_cached (copy : v.dirty ≠ -1)
    (cached : ∀ addr ∈ b.inserted, addr ∉ b.lost → InForce v.regs addr) : Armed v b :=
  ⟨cached, fun none => absurd none copy⟩

theorem fetch (armed : Armed v b) : Armed v.fetch b := by
  refine of_cached v.fetch_dirty fun addr inserted kept => ?_
  by_cases copy : v.dirty = -1
  · exact (armed.held copy addr inserted kept).of_agree (v.agree_fetch copy)
  · rw [v.fetch_of_copy copy]
    exact armed.cached addr inserted kept

theorem check (armed : Armed v b) : Armed v.check b := by
  unfold View.check
  split_ifs
  · have noticed : Armed { v with stallState := .stalled, npcIsCached := false } b :=
      armed.of_eq rfl rfl rfl
    exact noticed.fetch.of_eq rfl rfl rfl
  · exact armed

theorem connect (armed : Armed v b) : Armed v.connect b := by
  unfold View.connect
  split_ifs
  · exact armed
  · exact armed.of_eq rfl rfl rfl

theorem answerStop (armed : Armed v b) (flushes : Bool) (rollback : Option (BitVec 32)) :
    Armed (v.answerStop flushes rollback) b := by
  cases rollback with
  | none =>
      unfold View.answerStop
      dsimp only
      split_ifs
      · exact armed.of_eq rfl rfl rfl
      · exact armed
  | some ppc =>
      unfold View.answerStop
      dsimp only
      split_ifs
      · exact (armed.same (v.setNpc_same flushes ppc)).of_eq rfl rfl rfl
      · exact armed.of_eq rfl rfl rfl
      · exact armed

/-- The main loop up to the input. -/
theorem beforeInput (armed : Armed v b) (flushes : Bool) (rollback : Option (BitVec 32)) :
    Armed (v.beforeInput flushes rollback) b := by
  unfold View.beforeInput
  split_ifs
  · exact armed.connect.check.answerStop flushes rollback
  · exact armed.connect

/-- A request for a hardware breakpoint, or of another kind. -/
theorem apply (armed : Armed v b) (flushes ok : Bool) (request : DebugRequest)
    (permitted : b.Permits v.fetch.regs request)
    (answered : request.hardware.isSome = true → ok = true) :
    Armed (v.apply flushes request) (b.record ok request) := by
  have resumed {w : View} {b : Breakpoints} (step : Bool)
      (inForce : ∀ addr ∈ b.inserted, addr ∉ b.lost → InForce (View.resumeRegs step w.regs) addr)
      (addr : BitVec 32) : Armed (w.resume flushes step addr) b := by
    have regs : (w.setNpc flushes addr).regs = w.regs := (w.setNpc_same flushes addr).regs
    refine ⟨?_, fun _ addr inserted kept => ?_⟩
    · simp only [View.resume, regs]
      exact inForce
    · refine (inForce addr inserted kept).of_agree fun k lower upper => ?_
      have inside : k.toNat < dbgGroupWords := by omega
      simp only [View.resume, regs, ofCpuRegs, if_pos inside, Int.toNat_of_nonneg lower]
  cases request with
  | none => exact armed
  | readNpc => exact armed.same v.getNpc_same
  | writeNpc val => exact armed.same (v.setNpc_same flushes val)
  | restart => exact armed.same (v.setNpc_same flushes v.startAddr)
  | readWord i => exact of_cached (by simp [View.apply]) armed.fetch.cached
  | writeWord i val => exact permitted.elim
  | insert addr =>
      rw [Breakpoints.record, if_pos (answered rfl)]
      refine of_cached (by simp [View.apply]) fun a inserted kept => ?_
      rcases List.mem_cons.mp inserted with rfl | inserted
      · exact .inserted a permitted
      · by_cases here : a = addr
        · subst here
          exact .inserted a permitted
        · have intact : a ∉ b.lost := fun lost => kept (mem_without.mpr ⟨lost, here⟩)
          exact (armed.fetch.cached a inserted intact).insert addr permitted
  | remove addr =>
      rw [Breakpoints.record, if_pos (answered rfl)]
      refine of_cached (by simp [View.apply]) fun a inserted kept => ?_
      obtain ⟨inserted, apart⟩ := mem_without.mp inserted
      have intact : a ∉ b.lost := fun lost => kept (mem_without.mpr ⟨lost, apart⟩)
      exact (armed.fetch.cached a inserted intact).remove apart permitted
  | resume step target =>
      cases step with
      | false =>
          have inForce := fun addr inserted kept => (armed.cached addr inserted kept).continueRegs
          cases target with
          | some addr => exact resumed false inForce addr
          | none => exact resumed false (v.getNpc_same.regs ▸ inForce) v.getNpc.2
      | true =>
          have none {w : View} : ∀ addr ∈ b.inserted, addr ∉ b.inserted →
              InForce (View.resumeRegs true w.regs) addr :=
            fun addr inserted kept => absurd inserted kept
          cases target with
          | some addr => exact resumed true none addr
          | none => exact resumed true none v.getNpc.2
  | wait => exact armed.of_eq rfl rfl rfl
  | detach => exact armed.of_eq rfl rfl rfl
  | stall => exact armed.of_eq rfl rfl rfl

/-- What a `c` that finds no lost breakpoint leaves in the processor. -/
theorem restores (armed : Armed v b) (whole : b.lost = []) (flushes : Bool)
    (target : Option (BitVec 32)) :
    ∀ addr ∈ b.inserted,
      InForce (ofCpuRegs (v.apply flushes (.resume false target)).cpuRegs) addr := by
  intro addr inserted
  have released := armed.apply flushes true (.resume false target) whole (fun _ => rfl)
  have gone : (v.apply flushes (.resume false target)).dirty = -1 := by
    cases target <;> rfl
  exact released.held gone addr inserted (by simp [Breakpoints.record, whole])

/-- An input that is not a request, or a request that is not served. -/
theorem unserved (armed : Armed v b) (flushes : Bool) (input : ViewInput)
    (waits : ∀ request, input = .request request → v.clientWaiting = true) :
    Armed (v.input flushes input) b := by
  cases input with
  | nothing => exact armed
  | interrupt =>
      rw [View.input_interrupt]
      split_ifs
      · exact armed.of_eq rfl rfl rfl
      · exact armed
  | request request =>
      rw [View.input_request, if_pos (waits request rfl)]
      exact armed
  | closed =>
      rw [View.input_closed]
      split_ifs
      · exact armed
      · exact armed.of_eq rfl rfl rfl

/-- The processor runs on and keeps the pairs. -/
theorem run (armed : Armed v b) (debugRegs : Nat → BitVec 32) (npc : BitVec 32) (stalls : Bool)
    (kept : v.stalled = false → ∀ i < or1kMaxMatchpoints,
      SamePair (ofCpuRegs v.cpuRegs) (ofCpuRegs debugRegs) i) :
    Armed (v.run debugRegs npc stalls) b := by
  unfold View.run
  split_ifs with stalled
  · exact armed
  · exact ⟨armed.cached, fun copy addr inserted intact =>
      (armed.held copy addr inserted intact).of_samePair (kept (by simpa using stalled))⟩

end Armed

/-! ## Requests that are answered -/

theorem commandRequest_hardware (cmd : List Byte) : (commandRequest cmd).hardware = none := by
  unfold commandRequest
  split_ifs
  · split
    · split_ifs <;> rfl
    · rfl
  · split
    · split_ifs <;> rfl
    · rfl
  · rfl

/-- Only a `Z1` or a `z1` packet is for a hardware breakpoint. -/
theorem parses_of_hardware {host : Host} {buf : RspBuf} {request : HwRequest}
    (hardware : (debugRequest host buf).hardware = some request) : request.Parses buf := by
  unfold debugRequest at hardware
  cases kind : requestKind (buf.chars 0)
  case insertMatchpoint =>
    simp only [kind, matchpointRequest] at hardware
    split at hardware
    · rename_i type addr len parsed
      split_ifs at hardware with isHardware
      · obtain rfl : HwRequest.insert addr = request := Option.some.inj hardware
        exact ⟨kind, len, isHardware ▸ parsed⟩
      · cases hardware
    · cases hardware
  case removeMatchpoint =>
    simp only [kind, matchpointRequest] at hardware
    split at hardware
    · rename_i type addr len parsed
      split_ifs at hardware with isHardware
      · obtain rfl : HwRequest.remove addr = request := Option.some.inj hardware
        exact ⟨kind, len, isHardware ▸ parsed⟩
      · cases hardware
    · cases hardware
  case query =>
    simp only [kind] at hardware
    split_ifs at hardware
    · rw [commandRequest_hardware] at hardware
      cases hardware
    · cases hardware
    · cases hardware
  case readReg =>
    simp only [kind] at hardware
    split at hardware
    · split_ifs at hardware <;> cases hardware
    · cases hardware
  case writeReg =>
    simp only [kind] at hardware
    split at hardware
    · split_ifs at hardware <;> cases hardware
    · cases hardware
  case vpkt =>
    simp only [kind] at hardware
    split_ifs at hardware <;> cases hardware
  all_goals
    simp only [kind] at hardware
    cases hardware

/-- A request for a hardware breakpoint whose search finds a pair is answered
`OK`. -/
theorem hardware_answered {host : Host} {s : RspServer} {b : Breakpoints} {buf : RspBuf}
    (permitted : b.Permits (s.debugRegs host) (debugRequest host buf))
    (hardware : (debugRequest host buf).hardware.isSome = true) :
    str "OK" ∈ s.replies (s.rspClientRequest host buf) := by
  obtain ⟨request, isRequest⟩ := Option.isSome_iff_exists.mp hardware
  rw [HwPacket.served host s ⟨buf, request, parses_of_hardware isRequest⟩]
  cases served : debugRequest host buf with
  | insert addr =>
      rw [served] at isRequest permitted
      obtain rfl : HwRequest.insert addr = request := Option.some.inj isRequest
      rcases findFreeDcrdvrPair_spec (s.debugRegs host) with ⟨i, inside, -, found⟩ | ⟨none, -⟩
      · rw [HwRequest.handle, s.insertHardware_found host found]
        simp [RspServer.replies]
      · obtain ⟨i, inside, free⟩ := permitted
        exact absurd free (none i inside)
  | remove addr =>
      rw [served] at isRequest permitted
      obtain rfl : HwRequest.remove addr = request := Option.some.inj isRequest
      rcases findMatchingDcrdvrPair_spec (s.debugRegs host) addr with
        ⟨i, inside, -, -, found⟩ | ⟨none, -⟩
      · rw [HwRequest.handle, s.removeHardware_found host found]
        simp [RspServer.replies]
      · obtain ⟨i, inside, set⟩ := permitted
        exact absurd set (none i inside)
  | _ =>
      rw [served] at isRequest
      cases isRequest

/-! ## Whole sessions -/

namespace Session

/-- The breakpoints of the client, beside a session. -/
def breakpoints (host : Host) (x : Session) (event : Event) (b : Breakpoints) : Breakpoints :=
  match event with
  | .pass (.packet buf) =>
      let s := (x.beforeInput host).server
      if x.server.running = true ∧ s.clientWaiting = false then
        b.record (str "OK" ∈ s.replies (s.rspClientRequest host buf)) (debugRequest host buf)
      else b
  | _ => b

/-- The event does not reach what is wrong.  While the processor runs it keeps the
pairs of registers it was given. -/
def Spared (host : Host) (y : Session × Breakpoints) : Event → Prop
  | .pass (.packet buf) =>
      y.1.server.running = true → (y.1.beforeInput host).server.clientWaiting = false →
        y.2.Permits ((y.1.beforeInput host).server.debugRegs host) (debugRequest host buf)
  | .cpu spr stalls =>
      y.1.server.target.cpu.stalled = false → ∀ i < or1kMaxMatchpoints,
        SamePair (ofCpuRegs y.1.server.target.cpu.debugRegs)
          (ofCpuRegs (Cpu.mk spr stalls false).debugRegs) i
  | _ => True

instance (host : Host) (y : Session × Breakpoints) : (event : Event) → Decidable (Spared host y event)
  | .pass (.packet buf) =>
      inferInstanceAs (Decidable
        (y.1.server.running = true → (y.1.beforeInput host).server.clientWaiting = false →
          y.2.Permits ((y.1.beforeInput host).server.debugRegs host) (debugRequest host buf)))
  | .cpu spr stalls =>
      inferInstanceAs (Decidable
        (y.1.server.target.cpu.stalled = false → ∀ i < or1kMaxMatchpoints,
          SamePair (ofCpuRegs y.1.server.target.cpu.debugRegs)
            (ofCpuRegs (Cpu.mk spr stalls false).debugRegs) i))
  | .pass .nothing | .pass .interrupt | .pass .closed => .isTrue trivial

/-- A `c` that is served leaves every breakpoint of the client in force in the
processor. -/
def Restores (host : Host) (y : Session × Breakpoints) : Event → Prop
  | .pass (.packet buf) =>
      y.1.server.running = true → (y.1.beforeInput host).server.clientWaiting = false →
        ∀ target, debugRequest host buf = .resume false target → ∀ addr ∈ y.2.inserted,
          InForce (ofCpuRegs
            (y.1.step host (.pass (.packet buf))).server.target.cpu.debugRegs) addr
  | _ => True

end Session

section Sessions

variable {host : Host} (reliable : host.Reliable)
include reliable

theorem Armed.beforeInput_session {x : Session} {b : Breakpoints}
    (armed : Armed x.server.view b) : Armed (x.beforeInput host).server.view b := by
  rw [x.view_beforeInput reliable]
  exact armed.beforeInput _ _

/-- What is in force, for one event of a session. -/
theorem Armed.sessionStep {x : Session} {b : Breakpoints} (armed : Armed x.server.view b)
    {event : Event} (spared : Session.Spared host (x, b) event) :
    Armed (x.step host event).server.view (x.breakpoints host event b) := by
  have before := armed.beforeInput_session reliable
  cases event with
  | cpu spr stalls =>
      rw [x.view_step reliable]
      exact armed.run _ _ _ spared
  | pass input =>
      by_cases running : x.server.running = true
      · rw [x.view_pass reliable running]
        cases input with
        | packet buf =>
            by_cases idle : (x.beforeInput host).server.clientWaiting = false
            · rw [← x.view_pass reliable running, x.view_served reliable running idle,
                Session.breakpoints, if_pos ⟨running, idle⟩]
              have permitted := spared running idle
              refine before.apply _ _ _ ?_ fun hardware =>
                decide_eq_true (hardware_answered permitted hardware)
              rw [← RspServer.view_getDebugRegisters reliable]
              exact permitted
            · have waits : (x.beforeInput host).server.view.clientWaiting = true :=
                Bool.eq_true_of_not_eq_false idle
              rw [Session.breakpoints, if_neg fun both => idle both.2]
              exact before.unserved _ _ fun _ _ => waits
        | nothing => exact before.unserved _ _ nofun
        | interrupt => exact before.unserved _ _ nofun
        | closed => exact before.unserved _ _ nofun
      · have same : x.step host (.pass input) = x := if_neg running
        have kept : x.breakpoints host (.pass input) b = b := by
          cases input with
          | packet buf => exact if_neg fun both => running both.1
          | _ => rfl
        rw [same, kept]
        exact armed

/-- What one event leaves in force. -/
theorem Armed.restores_session {x : Session} {b : Breakpoints} (armed : Armed x.server.view b)
    {event : Event} (spared : Session.Spared host (x, b) event) :
    Session.Restores host (x, b) event := by
  cases event with
  | cpu spr stalls => trivial
  | pass input =>
      cases input with
      | packet buf =>
          intro running idle target resumes addr inserted
          have whole : b.lost = [] := by
            have permitted := spared running idle
            rwa [resumes] at permitted
          have after : (x.step host (.pass (.packet buf))).server.view =
              (x.beforeInput host).server.view.apply host.flushes (.resume false target) := by
            rw [x.view_served reliable running idle, resumes]
          have restored := (armed.beforeInput_session reliable).restores whole host.flushes target
            addr inserted
          rw [← after] at restored
          exact restored
      | nothing => trivial
      | interrupt => trivial
      | closed => trivial

end Sessions

/-! ## A breakpoint and a step -/

/-- The registers of the processor once a breakpoint at `100` is in force. -/
def armedRegs (wgb : BitVec 32) (adr : BitVec 32) : BitVec 32 :=
  if adr = dbgCpuRegAdd then 0x100
  else if adr = dbgCpuRegAdd + 8 then 0x23
  else if adr = dbgCpuRegAdd + 17 then wgb
  else 0

end OrpsocCores.Gdb
