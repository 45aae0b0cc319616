import OrpsocCores.Foundation.ByteStore
import OrpsocCores.Foundation.EarlyLatch
import OrpsocCores.Foundation.Trace

/-!
# The AXI memory

`axi4_memory.v` is the memory that the processor `picorv32` runs from in simulation.  It
serves the five channels of an AXI4-Lite slave on both edges of the clock: on a falling
edge it may take an address or data before the rising edge that transfers them, so that a
response can be ready at once.  The flags `async_axi_transaction` and
`delay_axi_transaction` say what may happen on the falling and on the rising edges; with
`AXI_TEST` a random generator draws them for every clock.

An address that is no address of the memory ends the simulation (`$finish`), except for
writes to one address that print.  After `$finish` no edge comes any more.  The source
assigns `mem_axi_rvalid` like the other registers, though it declares it without `reg`.
-/

set_option autoImplicit false

namespace OrpsocCores.Axi4Memory

open EarlyLatch

abbrev Word := BitVec 32

/-- What the master puts on its side of the channels. -/
structure Inputs where
  awvalid : Bool
  awaddr : Word
  wvalid : Bool
  wdata : Word
  wstrb : BitVec 4
  bready : Bool
  arvalid : Bool
  araddr : Word
  /-- `mem_axi_arprot[2]`. -/
  arinsn : Bool
  rready : Bool
  deriving DecidableEq

/-- The two edges of the clock. -/
inductive Edge
  | negedge (i : Inputs)
  | posedge (i : Inputs)

def Edge.inputs : Edge → Inputs
  | .negedge i => i
  | .posedge i => i

structure Regs where
  xorshift64State : BitVec 64
  asyncAxiTransaction : BitVec 5
  delayAxiTransaction : BitVec 5
  /-- `mem_axi_arready`, `fast_raddr`, `latched_raddr_en`, `latched_raddr` and
  `latched_rinsn`. -/
  ar : Latch (Word × Bool)
  /-- `mem_axi_awready`, `fast_waddr`, `latched_waddr_en` and `latched_waddr`. -/
  aw : Latch Word
  /-- `mem_axi_wready`, `fast_wdata`, `latched_wdata_en`, `latched_wdata` and
  `latched_wstrb`. -/
  w : Latch (Word × BitVec 4)
  rvalid : Bool
  rdata : Word
  bvalid : Bool
  memory : BitVec 14 → Word
  /-- The words written to the address that prints. -/
  printed : List Word
  finished : Bool

/-- The registers as the simulation starts, with `latched_*` and `mem_axi_rdata` that have
no initial value. -/
def Regs.initial (raddr : Word × Bool) (waddr : Word) (wdata : Word × BitVec 4) (rdata : Word)
    (memory : BitVec 14 → Word) : Regs where
  xorshift64State := 88172645463325252
  asyncAxiTransaction := 0b11111
  delayAxiTransaction := 0
  ar := ⟨false, false, false, raddr⟩
  aw := ⟨false, false, false, waddr⟩
  w := ⟨false, false, false, wdata⟩
  rvalid := false
  rdata := rdata
  bvalid := false
  memory := memory
  printed := []
  finished := false

/-- `xorshift64_next`. -/
def xorshift64Next (x : BitVec 64) : BitVec 64 :=
  let x := x ^^^ (x <<< 13)
  let x := x ^^^ (x >>> 7)
  x ^^^ (x <<< 17)

/-- The address is one of the memory: `address < 64*1024`. -/
def inMemory (address : Word) : Bool := address < 65536#32

/-- `address >> 2`, for an address of the memory. -/
def index (address : Word) : BitVec 14 := address.extractLsb' 2 14

/-- `handle_axi_rvalid`, without what it displays. -/
def handleAxiRvalid (s : Regs) (memory : BitVec 14 → Word) : Regs :=
  if inMemory s.ar.latched.1 then
    { s with rdata := memory (index s.ar.latched.1), rvalid := true, ar := s.ar.take }
  else { s with finished := true }

/-- `handle_axi_bvalid`. -/
def handleAxiBvalid (s : Regs) : Regs :=
  let address := s.aw.latched
  let (data, strb) := s.w.latched
  let stored :=
    if inMemory address then
      { s with
        memory := Function.update s.memory (index address)
          (merge strb data (s.memory (index address))) }
    else if address == 0x10000000 then { s with printed := s.printed ++ [data] }
    else { s with finished := true }
  { stored with bvalid := true, aw := s.aw.take, w := s.w.take }

/-- The statements that end both blocks: the responses that are due.  `rvalid` and `bvalid`
are what the registers held before the edge, and so is the memory that is read. -/
def respond (s : Regs) (rvalid bvalid : Bool) (read write : Bool) : Regs :=
  let memory := s.memory
  let s := if !rvalid && s.ar.en && read then handleAxiRvalid s memory else s
  if !bvalid && s.aw.en && s.w.en && write then handleAxiBvalid s else s

/-- `always @(negedge clk)`. -/
def negedge (s : Regs) (i : Inputs) : Regs :=
  let async := s.asyncAxiTransaction.getLsbD
  respond
    { s with
      ar := s.ar.early i.arvalid (i.araddr, i.arinsn) (async 0)
      aw := s.aw.early i.awvalid i.awaddr (async 1)
      w := s.w.early i.wvalid (i.wdata, i.wstrb) (async 2) }
    s.rvalid s.bvalid (async 3) (async 4)

/-- The two blocks `always @(posedge clk)`. -/
def posedge (axiTest : Bool) (s : Regs) (i : Inputs) : Regs :=
  let delay := s.delayAxiTransaction.getLsbD
  let drawn := xorshift64Next s.xorshift64State
  respond
    { s with
      xorshift64State := if axiTest then drawn else s.xorshift64State
      delayAxiTransaction :=
        if axiTest then drawn.extractLsb' 0 5 else s.delayAxiTransaction
      asyncAxiTransaction :=
        if axiTest then drawn.extractLsb' 5 5 else s.asyncAxiTransaction
      ar := s.ar.transfer i.arvalid (i.araddr, i.arinsn) (!delay 0)
      aw := s.aw.transfer i.awvalid i.awaddr (!delay 1)
      w := s.w.transfer i.wvalid (i.wdata, i.wstrb) (!delay 2)
      rvalid := s.rvalid && !i.rready
      bvalid := s.bvalid && !i.bready }
    s.rvalid s.bvalid (!delay 3) (!delay 4)

def step (axiTest : Bool) (s : Regs) (edge : Edge) : Regs :=
  if s.finished then s
  else match edge with
    | .negedge i => negedge s i
    | .posedge i => posedge axiTest s i

end OrpsocCores.Axi4Memory
