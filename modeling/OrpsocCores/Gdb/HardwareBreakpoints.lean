import OrpsocCores.Foundation.Trace
import OrpsocCores.Gdb.HandleRsp

/-!
# Hardware breakpoints

A `Z1` packet is to set up a free pair of debug registers for an address, a `z1`
packet is to take the breakpoint at an address away again, and neither is to
touch anything else; when there is no free pair, or no such breakpoint, the
request is refused and the registers stay as they are.

The code does this as long as its searches find a pair.  `insert_contract_iff` and
`remove_contract_iff` say so for one packet and `hardwareBreakpoints_iff` for any
sequence of them.  A `Z1` without a free pair is answered twice and goes on to
set up pair `-1`: it writes in front of the array of value registers and changes
the value register of pair `7`, which lies where the control register of pair
`-1` would.  A `z1` for an address without a breakpoint does the same damage
before it is refused.  And a breakpoint that was set twice occupies two pairs, of
which `z1` only takes away the first.
-/

set_option autoImplicit false

namespace OrpsocCores.Gdb

open Scanf Trace

/-! ## The requests -/

/-- A request for a hardware breakpoint. -/
inductive HwRequest where
  | insert (addr : BitVec 32)
  | remove (addr : BitVec 32)
  deriving DecidableEq

namespace HwRequest

/-- The packet asks for this. -/
def Parses : HwRequest → RspBuf → Prop
  | .insert addr, buf => requestKind (buf.chars 0) = .insertMatchpoint ∧
      ∃ len, three (sscanf (matchpointFormat 'Z') buf.cText) = some (1, addr, len)
  | .remove addr, buf => requestKind (buf.chars 0) = .removeMatchpoint ∧
      ∃ len, three (sscanf (matchpointFormat 'z') buf.cText) = some (1, addr, len)

/-- The branch of the handler that serves it. -/
def handle (host : Host) (s : RspServer) : HwRequest → RspServer
  | .insert addr => s.insertHardware host addr
  | .remove addr => s.removeHardware host addr

end HwRequest

/-- A `Z1` or `z1` packet. -/
structure HwPacket where
  buf : RspBuf
  request : HwRequest
  parses : request.Parses buf

/-- A packet is served by the branch for its request. -/
theorem HwPacket.served (host : Host) (s : RspServer) (packet : HwPacket) :
    s.rspClientRequest host packet.buf = packet.request.handle host s := by
  obtain ⟨buf, request, parses⟩ := packet
  cases request with
  | insert addr =>
      obtain ⟨kind, len, parsed⟩ := parses
      simp only [RspServer.rspClientRequest, kind, RspServer.rspInsertMatchpoint, parsed,
        HwRequest.handle]
      rfl
  | remove addr =>
      obtain ⟨kind, len, parsed⟩ := parses
      simp only [RspServer.rspClientRequest, kind, RspServer.rspRemoveMatchpoint, parsed,
        HwRequest.handle]
      rfl

/-! ## The contract -/

namespace RspServer

/-- The debug registers as a request finds them in the cache. -/
def debugRegs (host : Host) (s : RspServer) : DbgGroupRegs := (s.getDebugRegisters host).dbgRegs

end RspServer

/-- What a request is to do to the debug registers, between the registers that it
finds and the server that it leaves. -/
structure HwContract (request : HwRequest) (regs : DbgGroupRegs) (s s' : RspServer) : Prop where
  inRange : ∀ touch ∈ s.touches s', touch.InRange
  inserted : ∀ addr, request = .insert addr → str "OK" ∈ s.replies s' →
    ∃ i < or1kMaxMatchpoints, SetFor s'.dbgRegs addr i ∧ enabled s'.dbgRegs i = true ∧
      ∀ j < or1kMaxMatchpoints, j ≠ i → SamePair regs s'.dbgRegs j
  removed : ∀ addr, request = .remove addr → str "OK" ∈ s.replies s' →
    (∀ i < or1kMaxMatchpoints, SetFor s'.dbgRegs addr i → enabled s'.dbgRegs i = false) ∧
      ∀ j < or1kMaxMatchpoints, regs (dvr j) ≠ addr → SamePair regs s'.dbgRegs j
  refused : str "OK" ∉ s.replies s' →
    ∀ k : Int, 0 ≤ k → k < dbgGroupWords → s'.dbgRegs k = regs k

/-- The search of a request finds what it is to find: a free pair, or a pair set
for the address, with no enabled one behind it. -/
def HwRequest.Finds (regs : DbgGroupRegs) : HwRequest → Prop
  | .insert _ => ∃ i < or1kMaxMatchpoints, FreePair regs i
  | .remove addr => (∃ i < or1kMaxMatchpoints, SetFor regs addr i) ∧
      ∀ j < or1kMaxMatchpoints, ∀ i < j, SetFor regs addr i → SetFor regs addr j →
        enabled regs j = false

/-! ## The branches of the handlers -/

namespace RspServer

variable (host : Host) (s : RspServer)

/-- A `Z1` that finds a free pair. -/
theorem insertHardware_found {addr : BitVec 32} {i : Nat}
    (found : findFreeDcrdvrPair (s.debugRegs host) = i) :
    s.insertHardware host addr =
      { s.getDebugRegisters host with
        dbgRegs := enableHwBreakpoint (insertHwWatchpoint (s.debugRegs host) i addr or1kCcEq) i
        dbgRegsCacheDirty := 1
        touched := s.touched ++ [.pair i]
        sent := s.sent ++ [str "OK"] } := by
  have notNone : (i : Int) ≠ -1 := by omega
  simp only [debugRegs] at found
  simp [insertHardware, found, notNone, put, touch, debugRegs]

/-- A `Z1` without a free pair. -/
theorem insertHardware_none {addr : BitVec 32}
    (none : findFreeDcrdvrPair (s.debugRegs host) = -1) :
    s.insertHardware host addr =
      { s.getDebugRegisters host with
        dbgRegs := enableHwBreakpoint (insertHwWatchpoint (s.debugRegs host) (-1) addr or1kCcEq) (-1)
        dbgRegsCacheDirty := 1
        touched := s.touched ++ [.pair (-1)]
        sent := s.sent ++ [[], str "OK"] } := by
  simp only [debugRegs] at none
  simp [insertHardware, none, put, touch, debugRegs]

/-- A `z1` that finds a pair set for the address. -/
theorem removeHardware_found {addr : BitVec 32} {i : Nat}
    (found : findMatchingDcrdvrPair (s.debugRegs host) addr or1kCcEq = i) :
    s.removeHardware host addr =
      { s.getDebugRegisters host with
        dbgRegs := disableHwBreakpoint
          (removeHwWatchpoint (removeHwWatchpoint (s.debugRegs host) i) i) i
        dbgRegsCacheDirty := 1
        touched := s.touched ++ [.pair i, .pair i]
        sent := s.sent ++ [str "OK"] } := by
  have notNegative : ¬ (i : Int) < 0 := by omega
  simp only [debugRegs] at found
  simp [removeHardware, removeWatchpoint, found, notNegative, put, touch, debugRegs]

/-- A `z1` for an address without a breakpoint. -/
theorem removeHardware_none {addr : BitVec 32}
    (none : findMatchingDcrdvrPair (s.debugRegs host) addr or1kCcEq = -1) :
    s.removeHardware host addr =
      { s.getDebugRegisters host with
        dbgRegs := removeHwWatchpoint (s.debugRegs host) (-1)
        dbgRegsCacheDirty := 1
        touched := s.touched ++ [.pair (-1)]
        sent := s.sent ++ [str "E01"] } := by
  simp only [debugRegs] at none
  simp [removeHardware, removeWatchpoint, none, put, touch, debugRegs]

end RspServer

/-! ## One packet -/

section OnePacket

variable (host : Host) (s : RspServer)

/-- No pair has a negative index. -/
theorem not_hwContract_of_negative {request : HwRequest} {regs : DbgGroupRegs} {s' : RspServer}
    (negative : .pair (-1) ∈ s.touches s') : ¬ HwContract request regs s s' := by
  intro contract
  have inside := contract.inRange _ negative
  exact absurd inside.1 (by decide)

theorem insert_contract_iff (addr : BitVec 32) :
    HwContract (.insert addr) (s.debugRegs host) s (s.insertHardware host addr) ↔
      HwRequest.Finds (s.debugRegs host) (.insert addr) := by
  rcases findFreeDcrdvrPair_spec (s.debugRegs host) with ⟨i, inside, free, found⟩ | ⟨none, found⟩
  · refine iff_of_true ?_ ⟨i, inside, free⟩
    rw [s.insertHardware_found host found]
    have answered : str "OK" ∈ s.replies
        { s.getDebugRegisters host with
          dbgRegs := enableHwBreakpoint (insertHwWatchpoint (s.debugRegs host) i addr or1kCcEq) i
          dbgRegsCacheDirty := 1
          touched := s.touched ++ [.pair i]
          sent := s.sent ++ [str "OK"] } := by
      simp [RspServer.replies]
    obtain ⟨set, enable, others⟩ := insertPair_spec (s.debugRegs host) addr inside
    refine ⟨fun touch member => ?_, fun other same _ => ?_, fun other same => ?_,
      fun not => absurd answered not⟩
    · obtain rfl : touch = .pair i := by simpa [RspServer.touches] using member
      exact ⟨by omega, by exact_mod_cast inside⟩
    · obtain rfl : addr = other := HwRequest.insert.inj same
      exact ⟨i, inside, set, enable, others⟩
    · cases same
  · refine iff_of_false ?_ ?_
    · rw [s.insertHardware_none host found]
      exact not_hwContract_of_negative s (by simp [RspServer.touches])
    · rintro ⟨i, inside, free⟩
      exact none i inside free

theorem remove_contract_iff (addr : BitVec 32) :
    HwContract (.remove addr) (s.debugRegs host) s (s.removeHardware host addr) ↔
      HwRequest.Finds (s.debugRegs host) (.remove addr) := by
  rcases findMatchingDcrdvrPair_spec (s.debugRegs host) addr with
    ⟨i, inside, set, first, found⟩ | ⟨none, found⟩
  · rw [s.removeHardware_found host found]
    obtain ⟨masked, others⟩ := removePair_spec (removeHwWatchpoint (s.debugRegs host) i) inside
    obtain ⟨kept, others'⟩ := disablePair_spec
      (removeHwWatchpoint (removeHwWatchpoint (s.debugRegs host) i) i) inside
    have same : ∀ j < or1kMaxMatchpoints, j ≠ i → SamePair (s.debugRegs host)
        (disableHwBreakpoint (removeHwWatchpoint (removeHwWatchpoint (s.debugRegs host) i) i) i)
        j := fun j insideJ other =>
      (((removePair_spec (s.debugRegs host) inside).2 j insideJ other).trans
        (others j insideJ other)).trans (others' j insideJ other)
    constructor
    · intro contract
      refine ⟨⟨i, inside, set⟩, fun j insideJ k before setK setJ => ?_⟩
      have behind : i ≤ k := Nat.le_of_not_lt fun lower => first k lower setK
      have sameJ := same j insideJ (by omega)
      have off := (contract.removed addr rfl (by simp [RspServer.replies])).1 j insideJ
        ((sameJ.setFor_iff addr).mpr setJ)
      exact sameJ.enable.symm.trans off
    · rintro ⟨-, single⟩
      refine ⟨fun touch member => ?_, fun other same' => ?_,
        fun other same' _ => ⟨fun j insideJ setJ => ?_, fun j insideJ elsewhere => ?_⟩,
        fun not => absurd ?_ not⟩
      · obtain rfl : touch = .pair i := by simpa [RspServer.touches] using member
        exact ⟨by omega, by exact_mod_cast inside⟩
      · cases same'
      · obtain rfl : addr = other := HwRequest.remove.inj same'
        have other : j ≠ i := by
          rintro rfl
          exact absurd (masked.symm.trans ((congrArg dcrCc kept).symm.trans setJ.2)) (by decide)
        have setJ := ((same j insideJ other).setFor_iff addr).mp setJ
        have behind : i < j :=
          Nat.lt_of_le_of_ne (Nat.le_of_not_lt fun lower => first j lower setJ) (Ne.symm other)
        exact (same j insideJ other).enable.trans (single j insideJ i behind set setJ)
      · obtain rfl : addr = other := HwRequest.remove.inj same'
        exact same j insideJ fun here => elsewhere (here ▸ set.1)
      · simp [RspServer.replies]
  · refine iff_of_false ?_ ?_
    · rw [s.removeHardware_none host found]
      exact not_hwContract_of_negative s (by simp [RspServer.touches])
    · rintro ⟨⟨i, inside, set⟩, -⟩
      exact none i inside set

end OnePacket

/-! ## Sequences of packets -/

/-- The server handles a packet. -/
def hwStep (host : Host) (s : RspServer) (packet : HwPacket) : RspServer :=
  s.rspClientRequest host packet.buf

/-- **Hardware breakpoints.**  For any sequence of `Z1` and `z1` packets and any
contents of the debug registers, every packet meets its contract if and only if
every `Z1` finds a free pair and every `z1` a pair set for its address with no
enabled one behind it. -/
theorem hardwareBreakpoints_iff (host : Host) (s : RspServer) (packets : List HwPacket) :
    Always (hwStep host)
        (fun s packet => HwContract packet.request (s.debugRegs host) s (hwStep host s packet))
        s packets ↔
      Always (hwStep host) (fun s packet => packet.request.Finds (s.debugRegs host)) s packets := by
  have step : ∀ s packet,
      HwContract packet.request (s.debugRegs host) s (hwStep host s packet) ↔
        packet.request.Finds (s.debugRegs host) := by
    intro s packet
    rw [hwStep, packet.served]
    cases packet.request with
    | insert addr => exact insert_contract_iff host s addr
    | remove addr => exact remove_contract_iff host s addr
  exact Always.congr step

/-- The removal of a breakpoint that was never set. -/
def strayRemoval : HwPacket :=
  ⟨packetBuf "z1,100,4", .remove 0x100, by decide +kernel, 4, by decide +kernel⟩

/-- It takes pair `-1` to be the one to remove. -/
theorem strayRemoval_writes_in_front :
    ¬ HwContract strayRemoval.request ((idleServer.rspInit idleHost).debugRegs idleHost)
      (idleServer.rspInit idleHost) (hwStep idleHost (idleServer.rspInit idleHost) strayRemoval) :=
  by
  rw [hwStep, strayRemoval.served]
  intro contract
  obtain ⟨⟨i, inside, set⟩, -⟩ := (remove_contract_iff idleHost _ 0x100).mp contract
  revert i
  decide +kernel

end OrpsocCores.Gdb
