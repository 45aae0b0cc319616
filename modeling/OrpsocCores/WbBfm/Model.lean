import OrpsocCores.Foundation.ByteStore
import OrpsocCores.Wishbone.Bus

/-!
# The bus functional models

`wb_bfm_master.v`, `wb_bfm_slave.v` and the memory of `wb_bfm_memory.v` that is built on
the slave.  They are tasks that wait for edges.  Each side is a state machine here, whose
phase says which `@(...)` the running task is suspended at; `edge` is what happens at
`posedge wb_clk`, with the other side's outputs as they were before the edge, and
`settle` is what the new outputs trigger between two edges.

Data are 32 bits wide and the addresses at least 32, since the memory selects
`address[31:2]`.  The models begin when the reset has been released.
-/

set_option autoImplicit false

namespace OrpsocCores.WbBfm

open Wishbone

variable {aw : Nat}

/-- The signals between the two models. -/
abbrev Bus (aw : Nat) := Pins aw 32 4

/-! ## `wb_bfm_params.v` and `wb_bfm_common.v` -/

/-- `CLASSIC_CYCLE` and `BURST_CYCLE`. -/
inductive CycleType where
  | classic
  | burst
  deriving DecidableEq, Repr

def CycleType.code : CycleType → BitVec 1
  | .classic => 0
  | .burst => 1

/-- `LINEAR_BURST` to `CONSTANT_BURST`. -/
inductive BurstType where
  | linear
  | wrap4
  | wrap8
  | wrap16
  | constant
  deriving DecidableEq, Repr

namespace BurstType

def code : BurstType → BitVec 3
  | .linear => 0
  | .wrap4 => 1
  | .wrap8 => 2
  | .wrap16 => 3
  | .constant => 4

/-- `burst_type[1:0]`, as a burst type extension. -/
def bte : BurstType → Bte
  | .linear => .linear
  | .wrap4 => .wrap4
  | .wrap8 => .wrap8
  | .wrap16 => .wrap16
  | .constant => .linear

/-- `{1'b0, wb_bte_i}`. -/
def ofBte : Bte → BurstType
  | .linear => .linear
  | .wrap4 => .wrap4
  | .wrap8 => .wrap8
  | .wrap16 => .wrap16

theorem ofBte_bte {burstType : BurstType} (moves : burstType ≠ .constant) :
    ofBte burstType.bte = burstType := by
  cases burstType with
  | constant => exact absurd rfl moves
  | _ => rfl

end BurstType

/-- `get_cycle_type`. -/
def getCycleType (cti : Cti) : CycleType := if cti = .classic then .classic else .burst

/-- `is_last`. -/
def isLast : Cti → Bool
  | .classic => true
  | .constBurst => false
  | .incBurst => false
  | .endBurst => true

@[simp] theorem isLast_eq_isLast (cti : Cti) : isLast cti = cti.isLast := by cases cti <;> rfl

/-- `{addr_i[aw-1:k], addr_i[k-1:0] + 4}`. -/
def wrapAddr (k : Nat) (addrI : BitVec aw) : BitVec aw :=
  (addrI.extractLsb' k (aw - k) ++ (addrI.extractLsb' 0 k + 4#k)).setWidth aw

/-- `next_addr`. -/
def nextAddr (addrI : BitVec aw) : BurstType → BitVec aw
  | .linear => addrI + 4
  | .wrap4 => wrapAddr 4 addrI
  | .wrap8 => wrapAddr 5 addrI
  | .wrap16 => wrapAddr 6 addrI
  | .constant => addrI

/-! ## The master -/

/-- The arguments of `write_burst` and `read_burst`; `dataI` is `data_i` word by word and
means nothing to a read. -/
structure Burst (aw : Nat) where
  addrI : BitVec aw
  dataI : BitVec 32 → BitVec 32
  maskI : BitVec 4
  burstLengthI : BitVec 32
  burstTypeI : BurstType

/-- A call of one of the master's tasks. -/
inductive Request (aw : Nat) where
  | write (addrI : BitVec aw) (dataI : BitVec 32) (maskI : BitVec 4)
  /-- `write_burst` if `op` is set, else `read_burst`. -/
  | burst (op : Bool) (args : Burst aw)

/-- What the running task of the master waits for. -/
inductive MasterPhase where
  /-- No task is running. -/
  | idle
  /-- The edge between `init` and `next` in `write`. -/
  | opening
  /-- An edge with `wb_ack_i`, in `next`. -/
  | awaiting
  /-- `negedge wb_ack_i`, in `next`. -/
  | releasing
  deriving DecidableEq, Repr

/-- `wb_bfm_master`.  `op` is set for `WRITE`. -/
structure Master (aw : Nat) where
  addr : BitVec aw
  index : BitVec 32
  data : BitVec 32
  mask : BitVec 4
  op : Bool
  cycleType : CycleType
  burstType : BurstType
  burstLength : BitVec 32
  dataI : BitVec 32 → BitVec 32
  dataO : BitVec 32 → BitVec 32
  errO : Bool
  phase : MasterPhase
  out : Bus aw

namespace Master

/-- The type that `init` announces the cycle with. -/
def initType (m : Master aw) : Cti × Bte :=
  if m.cycleType = .classic then (.classic, .linear)
  else if m.index = m.burstLength - 1 then (.endBurst, .linear)
  -- `cycle_type` is compared with a burst type
  else if m.cycleType.code.setWidth 3 = BurstType.constant.code then (.constBurst, .linear)
  else (.incBurst, m.burstType.bte)

/-- No burst is announced as a constant one. -/
theorem initType_of_burst {m : Master aw} (burst : m.cycleType = .burst) :
    m.initType =
      if m.index = m.burstLength - 1 then (.endBurst, .linear)
      else (.incBurst, m.burstType.bte) := by
  have notClassic : m.cycleType ≠ .classic := by
    rw [burst]
    exact CycleType.noConfusion
  have notConstant : ¬ m.cycleType.code.setWidth 3 = BurstType.constant.code := by
    rw [burst]
    decide
  rw [initType, if_neg notClassic, if_neg notConstant]

/-- `init`. -/
def init (m : Master aw) : Master aw :=
  { m with
    out := { m.out with
      sel := m.mask, we := m.op, cyc := true, cti := m.initType.1, bte := m.initType.2 } }

/-- `next` as far as its first wait. -/
def next (m : Master aw) : Master aw :=
  { m with
    phase := .awaiting
    out := { m.out with
      adr := m.addr
      dat := if m.op then m.data else 0
      stb := true
      cti :=
        if m.cycleType = .burst ∧ m.index = m.burstLength - 1 then .endBurst else m.out.cti } }

/-- `next` in a classic cycle, when `wb_ack_i` is looked at. -/
def nextClassic (m : Master aw) (ackI : Bool) (datI : BitVec 32) : Master aw :=
  if ackI then { m with data := datI, phase := .releasing, out := { m.out with stb := false } }
  else m

/-- The end of a burst task. -/
def finish (m : Master aw) : Master aw :=
  { m with
    phase := .idle
    out := { m.out with cyc := false, stb := false, we := !m.op && m.out.we, cti := .classic } }

/-- `while(index < burst_length)`. -/
def loop (m : Master aw) : Master aw :=
  if m.index < m.burstLength then
    { m with data := if m.op then m.dataI m.index else m.data }.next
  else m.finish

/-- The part of a burst's loop after `next`. -/
def beat (m : Master aw) (datI : BitVec 32) : Master aw :=
  { m with
    data := datI
    dataO := if m.op then m.dataO else Function.update m.dataO m.index datI
    addr := nextAddr m.addr m.burstType
    index := m.index + 1 }

/-- A task as far as its first wait. -/
def call (m : Master aw) : Request aw → Master aw
  | .write addrI dataI maskI =>
      { m with
        addr := addrI, data := dataI, mask := maskI, cycleType := .classic, op := true
        phase := .opening }.init
  | .burst op args =>
      { m with
        addr := args.addrI, mask := args.maskI, op := op, burstLength := args.burstLengthI
        cycleType := .burst, burstType := args.burstTypeI, index := 0
        dataI := args.dataI }.init.loop

/-- `posedge wb_clk_i`.  A task is called at an edge, when no other one is running. -/
def edge (m : Master aw) (request : Option (Request aw)) (ackI : Bool) (datI : BitVec 32) :
    Master aw :=
  match m.phase with
  | .idle =>
      match request with
      | none => m
      | some request => m.call request
  | .opening => m.next.nextClassic ackI datI
  | .awaiting =>
      if m.cycleType = .classic then m.nextClassic ackI datI
      else if ackI then (m.beat datI).loop else m
  | .releasing => m

/-- The end of `write`, at `negedge wb_ack_i`. -/
def settle (m : Master aw) (ackBefore ackI errI : Bool) : Master aw :=
  if m.phase = .releasing ∧ ackBefore = true ∧ ackI = false then
    { m with
      phase := .idle, errO := errI, out := { m.out with cyc := false, we := false } }
  else m

end Master

/-! ## The slave and the memory -/

/-- `wb_bfm_slave`.  `op` is set for `WRITE`. -/
structure Slave (aw : Nat) where
  hasNext : Bool
  op : Bool
  address : BitVec aw
  data : BitVec 32
  mask : BitVec 4
  cycleType : CycleType
  burstType : BurstType
  err : Bool
  wbDatO : BitVec 32
  wbAckO : Bool
  wbErrO : Bool

namespace Slave

/-- `init` up to `@(posedge wb_cyc_i)`. -/
def release (s : Slave aw) : Slave aw := { s with wbAckO := false, wbDatO := 0, wbErrO := false }

/-- `init` from the edge at which it got `wb_cyc_i`. -/
def decode (s : Slave aw) (bus : Bus aw) : Slave aw :=
  { s with
    cycleType := getCycleType bus.cti
    burstType :=
      if getCycleType bus.cti = .burst then
        if bus.cti = .incBurst then .ofBte bus.bte else .linear
      else s.burstType
    op := bus.we
    address := bus.adr
    mask := bus.sel
    hasNext := true }

/-- `next` as far as its wait. -/
def next (s : Slave aw) : Slave aw :=
  { s with
    wbDatO := if !s.err && !s.op then s.data else 0
    wbAckO := !s.err
    wbErrO := s.err
    hasNext := !s.err && s.hasNext }

/-- `next` from its wait on. -/
def nextDone (s : Slave aw) (bus : Bus aw) : Slave aw :=
  { s with
    wbAckO := false
    wbErrO := false
    hasNext := !isLast bus.cti && !s.err
    data := if s.op then bus.dat else s.data }

end Slave

/-- What the memory waits for. -/
inductive MemoryPhase where
  /-- `posedge wb_cyc_i`, in `init`. -/
  | catching
  /-- An edge at which `wb_cyc_i` is still asserted, in `init`. -/
  | caught
  /-- `edges + 1` edges, in `repeat(delay)`. -/
  | delaying (edges : Nat)
  /-- The end of the beat, in `next`: an edge in a burst, `negedge wb_stb_i` in a classic
  cycle. -/
  | answering
  deriving DecidableEq, Repr

/-- `wb_bfm_memory`.  The array `mem` ends at `mem_words`: what `mem` holds from there on
stands for what a read outside the array returns. -/
structure BfmMemory (aw : Nat) where
  bfm0 : Slave aw
  address : BitVec aw
  data : BitVec 32
  mem : BitVec 30 → BitVec 32
  phase : MemoryPhase

/-- `address[31:2]`. -/
def wordOf (address : BitVec aw) : BitVec 30 := address.extractLsb' 2 30

/-- The range check of `wb_bfm_memory` lets the address pass. -/
def Inside (memWords : Nat) (address : BitVec aw) : Prop := ¬ (wordOf address).toNat > memWords

instance (memWords : Nat) (address : BitVec aw) : Decidable (Inside memWords address) :=
  inferInstanceAs (Decidable (¬ _))

namespace BfmMemory

/-- `read_ack` as far as its wait. -/
def readAck (m : BfmMemory aw) : BfmMemory aw :=
  { m with bfm0 := { m.bfm0 with data := m.data }.next, phase := .answering }

/-- `while(bfm0.has_next)`, and `init` after it; `delay` is what `$dist_uniform` returns. -/
def loop (memWords : Nat) (delay : Nat) (m : BfmMemory aw) : BfmMemory aw :=
  if m.bfm0.hasNext then
    if Inside memWords m.address then
      if m.bfm0.op then { m with bfm0 := m.bfm0.next, phase := .answering }
      else
        let m := { m with data := merge m.bfm0.mask (m.mem (wordOf m.address)) 0 }
        match delay with
        | 0 => m.readAck
        | delay + 1 => { m with phase := .delaying delay }
    else { m with bfm0 := { m.bfm0 with err := true }.next, phase := .answering }
  else { m with bfm0 := m.bfm0.release, phase := .catching }

/-- The memory after `write_ack`: a write outside the array is lost. -/
def written (memWords : Nat) (m : BfmMemory aw) (data : BitVec 32) : BitVec 30 → BitVec 32 :=
  if (wordOf m.address).toNat < memWords then
    Function.update m.mem (wordOf m.address)
      (merge m.bfm0.mask data (m.mem (wordOf m.address)))
  else m.mem

/-- The end of a beat, up to the head of the loop. -/
def beatDone (memWords : Nat) (m : BfmMemory aw) (bus : Bus aw) : BfmMemory aw :=
  let writes := m.bfm0.op && !m.bfm0.err
  { m with
    bfm0 := { m.bfm0.nextDone bus with err := false }
    data := if writes then bus.dat else m.data
    mem := if writes then m.written memWords bus.dat else m.mem
    address :=
      if m.bfm0.cycleType = .burst then nextAddr m.address m.bfm0.burstType else m.address }

/-- `posedge wb_clk_i`. -/
def edge (memWords : Nat) (m : BfmMemory aw) (bus : Bus aw) (delay : Nat) : BfmMemory aw :=
  match m.phase with
  | .catching => m
  | .caught =>
      if bus.cyc then
        { m with bfm0 := m.bfm0.decode bus, address := (m.bfm0.decode bus).address }.loop
          memWords delay
      else m
  | .delaying 0 => m.readAck
  | .delaying (edges + 1) => { m with phase := .delaying edges }
  | .answering =>
      if m.bfm0.cycleType = .burst then (m.beatDone memWords bus).loop memWords delay else m

/-- `posedge wb_cyc_i` and `negedge wb_stb_i`. -/
def settle (memWords : Nat) (m : BfmMemory aw) (before bus : Bus aw) (delay : Nat) :
    BfmMemory aw :=
  match m.phase with
  | .catching => if !before.cyc && bus.cyc then { m with phase := .caught } else m
  | .answering =>
      if m.bfm0.cycleType = .classic ∧ before.stb = true ∧ bus.stb = false then
        (m.beatDone memWords bus).loop memWords delay
      else m
  | _ => m

end BfmMemory

/-! ## The two on one bus -/

/-- The master connected to the memory. -/
structure Bench (aw : Nat) where
  master : Master aw
  memory : BfmMemory aw

/-- What comes from outside at an edge. -/
structure Inputs (aw : Nat) where
  request : Option (Request aw)
  delay : Nat

namespace Bench

/-- An edge and what follows it before the next one. -/
def step (memWords : Nat) (b : Bench aw) (i : Inputs aw) : Bench aw :=
  let master := b.master.edge i.request b.memory.bfm0.wbAckO b.memory.bfm0.wbDatO
  let memory :=
    (b.memory.edge memWords b.master.out i.delay).settle memWords b.master.out master.out i.delay
  { master := master.settle b.memory.bfm0.wbAckO memory.bfm0.wbAckO memory.bfm0.wbErrO
    memory := memory }

/-- Neither side is in an access.  `err` is set within `error_response` only. -/
structure Idle (b : Bench aw) : Prop where
  phase : b.master.phase = .idle
  cyc : b.master.out.cyc = false
  catching : b.memory.phase = .catching
  ack : b.memory.bfm0.wbAckO = false
  err : b.memory.bfm0.err = false

end Bench

end OrpsocCores.WbBfm
