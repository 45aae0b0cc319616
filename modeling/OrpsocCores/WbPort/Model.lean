import OrpsocCores.DualClockFifo.Model
import OrpsocCores.Foundation.ByteStore
import OrpsocCores.Wishbone.Bus

/-!
# A port of the DDR controller

`wb_port.v` serves one Wishbone port from a line buffer.  Writes are pushed into
`wrfifo` and, when they hit the buffer, into the buffer as well.  A read that
misses raises a request for the line, which the SDRAM side turns into a burst.

The registers clocked by `wb_clk` are `WbSide`, those clocked by `sdram_clk` are
`SdramSide`, and both clocks drive the write FIFO and the buffer RAM.  A run is a
list of instants at which either clock has an edge, or both have.  The registers
`cycle_count` and `count` are never read and are left out.
-/

set_option autoImplicit false

namespace OrpsocCores.WbPort

open Wishbone

variable {bw : Nat}

/-- The states of the two machines, as the source numbers them together. -/
inductive Phase where
  | idle
  | read
  | write
  | writeLast
  | refill
  | waitLatency
  | readDone
  deriving DecidableEq, Repr

/-- The signals of the Wishbone port. -/
abbrev Bus := Pins 32 32 4

/-! ## Addresses -/

/-- `adr[31:BUF_WIDTH+2]`, the line an address lies in. -/
def lineOf (bw : Nat) (adr : BitVec 32) : BitVec (30 - bw) := adr.extractLsb' (bw + 2) (30 - bw)

/-- `adr[BUF_WIDTH+1:2]`, the word of the line. -/
def wordOf (bw : Nat) (adr : BitVec 32) : BitVec bw := adr.extractLsb' 2 bw

/-- `{adr[31:k], adr[k-1:0] + 4}`: the next word within an aligned block. -/
def wrapAdr (k : Nat) (adr : BitVec 32) : BitVec 32 :=
  (adr.extractLsb' k (32 - k) ++ (adr.extractLsb' 0 k + 4#k)).setWidth 32

/-- `next_wb_adr`. -/
def nextWbAdr (bus : Bus) : BitVec 32 :=
  match bus.bte with
  | .linear => bus.adr + 4
  | .wrap4 => wrapAdr 4 bus.adr
  | .wrap8 => wrapAdr 5 bus.adr
  | .wrap16 => wrapAdr 6 bus.adr

/-! ## Registers and inputs -/

/-- The registers clocked by `wb_clk`. -/
structure WbSide (bw : Nat) where
  wbAdr : BitVec 32
  wbDat : BitVec 32
  wbSel : BitVec 4
  wbReadAck : Bool
  wbWriteAck : Bool
  wbWriteBufram : Bool
  readReqWb : Bool
  firstReq : Bool
  wbState : Phase
  bufAdr : BitVec (30 - bw)
  readDoneR : Bool
  readDoneWb : Bool
  bufCleanR : BitVec (2 ^ bw)
  bufCleanWb : BitVec (2 ^ bw)

/-- The registers clocked by `sdram_clk`. -/
structure SdramSide (bw : Nat) where
  readReq : Bool
  readReqSdram : Bool
  sdramState : Phase
  accO : Bool
  weO : Bool
  ackCount : BitVec 32
  readDone : Bool
  bufClean : BitVec (2 ^ bw)
  sdramWriteBufram : Bool
  datR : BitVec 32
  adrIR : BitVec 32
  adrOR : BitVec 32

/-- The inputs sampled at an edge of `wb_clk`. -/
structure WbPins where
  wbRst : Bool
  bus : Bus
  bufwAdrI : BitVec 32
  bufwDatI : BitVec 32
  bufwSelI : BitVec 4
  bufwWeI : Bool

/-- The inputs sampled at an edge of `sdram_clk`. -/
structure SdramPins where
  sdramRst : Bool
  adrI : BitVec 32
  datI : BitVec 32
  ackI : Bool

/-! ## The Wishbone side -/

namespace WbSide

/-- `buf_clean_wb[adr[BUF_WIDTH+1:2]]`. -/
def clean (s : WbSide bw) (adr : BitVec 32) : Bool := s.bufCleanWb.getLsbD (wordOf bw adr).toNat

/-- `bufhit`, and `next_bufhit` at the next address. -/
def bufhit (s : WbSide bw) (adr : BitVec 32) : Bool :=
  s.bufAdr == lineOf bw adr && s.clean adr

/-- `bufw_hit`. -/
def bufwHit (s : WbSide bw) (pins : WbPins) : Bool := lineOf bw pins.bufwAdrI == s.bufAdr

/-- `wrfifo_wrreq`. -/
def wrfifoWrreq (s : WbSide bw) (full : Bool) : Bool := s.wbWriteAck && !full

/-- `wb_ack_o`. -/
def wbAckO (s : WbSide bw) (full : Bool) : Bool := s.wbReadAck || s.wrfifoWrreq full

/-- A presented write may be accepted in `IDLE`: the buffer does not hold the
line, or holds all of it. -/
def acceptsWrite (s : WbSide bw) (bus : Bus) : Bool :=
  s.bufhit bus.adr && s.bufCleanWb == BitVec.allOnes _ || s.firstReq ||
    s.bufAdr != lineOf bw bus.adr

/-- The `IDLE` branch, with the ack and buffer strobes cleared before it. -/
def idleBranch (s : WbSide bw) (bus : Bus) (full : Bool) : WbSide bw :=
  let s' := { s with
    wbReadAck := false, wbWriteAck := false, wbWriteBufram := false
    wbSel := bus.sel, wbDat := bus.dat, wbAdr := bus.adr }
  if bus.reads then
    if s.bufhit bus.adr && !s.firstReq then
      { s' with
        wbReadAck := true
        wbState := if bus.cti == .classic || s.readDoneWb then .readDone else .read }
    else if (s.clean bus.adr || s.firstReq) && !s.readDoneWb then
      { s' with firstReq := false, readReqWb := true, wbState := .refill }
    else s'
  else if bus.writes && s.acceptsWrite bus then
    { s' with
      wbWriteAck := !full
      wbWriteBufram := s.bufhit bus.adr
      wbState := if s.readDoneWb then .idle else .write }
  else s'

/-- The `READ` branch. -/
def readBranch (s : WbSide bw) (bus : Bus) : WbSide bw :=
  let s' := { s with wbReadAck := false, wbWriteAck := false, wbWriteBufram := false }
  if bus.reads && bus.cti == .incBurst && s.bufhit (nextWbAdr bus) then
    { s' with wbReadAck := true }
  else { s' with wbState := .idle }

/-- The `REFILL` branch. -/
def refillBranch (s : WbSide bw) : WbSide bw :=
  let s' := { s with
    wbReadAck := false, wbWriteAck := false, wbWriteBufram := false
    bufAdr := lineOf bw s.wbAdr }
  if s.readDoneWb then { s' with readReqWb := false, wbState := .idle } else s'

/-- The `WRITE` branch.  The two tests at its end override the ack. -/
def writeBranch (s : WbSide bw) (bus : Bus) (full : Bool) : WbSide bw :=
  let s' := { s with wbReadAck := false, wbWriteAck := false, wbWriteBufram := false }
  let s' := if bus.writes then { s' with wbWriteAck := !full } else s'
  let s' :=
    if bus.writes && s.bufhit bus.adr then
      { s' with wbSel := bus.sel, wbDat := bus.dat, wbAdr := bus.adr, wbWriteBufram := true }
    else s'
  let s' :=
    if bus.cti == .endBurst && s.wbAckO full then
      { s' with wbState := .writeLast, wbWriteAck := false }
    else s'
  if bus.cti == .classic && s.wbAckO full then
    { s' with wbState := .idle, wbWriteAck := false }
  else s'

/-- The Wishbone state machine. -/
def machine (s : WbSide bw) (bus : Bus) (full : Bool) : WbSide bw :=
  let s' := { s with wbReadAck := false, wbWriteAck := false, wbWriteBufram := false }
  match s.wbState with
  | .idle => s.idleBranch bus full
  | .read => s.readBranch bus
  | .refill => s.refillBranch
  | .write => s.writeBranch bus full
  | .writeLast => { s' with wbState := .idle }
  | .readDone => { s' with wbState := .idle }
  | .waitLatency => s'

/-- The machine under `wb_rst`. -/
def resetMachine (s : WbSide bw) : WbSide bw :=
  { s with
    wbReadAck := false, wbWriteAck := false, wbWriteBufram := false, readReqWb := false
    firstReq := true, wbAdr := 0, wbDat := 0, wbSel := 0, wbState := .idle, bufAdr := 0 }

/-- An edge of `wb_clk`.  `full`, `readDone` and `bufClean` are what it samples of
the FIFO and of the SDRAM side. -/
def edge (s : WbSide bw) (pins : WbPins) (full readDone : Bool) (bufClean : BitVec (2 ^ bw)) :
    WbSide bw :=
  { if pins.wbRst then s.resetMachine else s.machine pins.bus full with
    readDoneR := !pins.wbRst && readDone
    readDoneWb := !pins.wbRst && s.readDoneR
    bufCleanR := bufClean
    bufCleanWb := s.bufCleanR }

/-! ### The buffer RAM's port on this side -/

/-- A snooped write that hits the buffer has the RAM port before the port's own
write. -/
def snoops (s : WbSide bw) (pins : WbPins) : Bool := pins.bufwWeI && s.bufwHit pins

/-- `wb_bufram_we`. -/
def wbBuframWe (s : WbSide bw) (pins : WbPins) : BitVec 4 :=
  if s.snoops pins then pins.bufwSelI else if s.wbWriteBufram then s.wbSel else 0

/-- `wb_bufram_addr`. -/
def wbBuframAddr (s : WbSide bw) (pins : WbPins) (full : Bool) : BitVec bw :=
  if s.snoops pins then wordOf bw pins.bufwAdrI
  else if s.wbWriteBufram then wordOf bw s.wbAdr
  else if pins.bus.cti == .incBurst && s.wbAckO full then wordOf bw (nextWbAdr pins.bus)
  else wordOf bw pins.bus.adr

/-- `wb_bufram_di`. -/
def wbBuframDi (s : WbSide bw) (pins : WbPins) : BitVec 32 :=
  if s.snoops pins then pins.bufwDatI else s.wbDat

end WbSide

/-! ## The SDRAM side -/

namespace SdramSide

/-- `wrfifo_rdreq`. -/
def wrfifoRdreq (s : SdramSide bw) (empty : Bool) : Bool := s.sdramState == .idle && !empty

/-- The machine starts the burst of a requested line. -/
def startsRead (s : SdramSide bw) (empty : Bool) : Bool :=
  s.sdramState == .idle && empty && s.readReqSdram

/-- The `IDLE` branch. -/
def idleBranch (s : SdramSide bw) (pins : SdramPins) (empty : Bool) (wbAdr : BitVec 32) :
    SdramSide bw :=
  let s' := { s with
    sdramWriteBufram := false, datR := pins.datI, adrIR := pins.adrI
    weO := false, ackCount := 0 }
  if !empty then { s' with sdramState := .write, accO := true, weO := true }
  else if s.readReqSdram then
    { s' with
      bufClean := 0, sdramState := .read, accO := true
      adrOR := wbAdr.extractLsb' 2 30 ++ 0#2 }
  else s'

/-- The registers every other branch starts from. -/
def sampled (s : SdramSide bw) (pins : SdramPins) : SdramSide bw :=
  { s with
    sdramWriteBufram := false, datR := pins.datI, adrIR := pins.adrI
    ackCount := if pins.ackI then s.ackCount + 1 else s.ackCount }

/-- The `READ` branch. -/
def readBranch (s : SdramSide bw) (pins : SdramPins) : SdramSide bw :=
  let s' := s.sampled pins
  let s' :=
    if pins.ackI then
      { s' with
        sdramWriteBufram := true
        bufClean := s.bufClean ||| BitVec.twoPow _ (wordOf bw pins.adrI).toNat }
    else s'
  if s.ackCount == BitVec.ofNat 32 (2 ^ bw - 1) && pins.ackI then
    { s' with accO := false, readDone := true, sdramState := .waitLatency }
  else s'

/-- The SDRAM state machine. -/
def machine (s : SdramSide bw) (pins : SdramPins) (empty : Bool) (wbAdr : BitVec 32) :
    SdramSide bw :=
  match s.sdramState with
  | .idle => s.idleBranch pins empty wbAdr
  | .read => s.readBranch pins
  | .write =>
      if pins.ackI then { s.sampled pins with accO := false, sdramState := .idle }
      else s.sampled pins
  | .waitLatency =>
      if !s.readReqSdram then { s.sampled pins with readDone := false, sdramState := .idle }
      else s.sampled pins
  | _ => { s.sampled pins with sdramState := .idle }

/-- The machine under `sdram_rst`. -/
def resetMachine (s : SdramSide bw) : SdramSide bw :=
  { s with
    sdramState := .idle, accO := false, weO := false, ackCount := 0, readDone := false
    bufClean := 0, sdramWriteBufram := false }

/-- An edge of `sdram_clk`.  `empty`, `readReqWb` and `wbAdr` are what it samples of
the FIFO and of the Wishbone side. -/
def edge (s : SdramSide bw) (pins : SdramPins) (empty readReqWb : Bool) (wbAdr : BitVec 32) :
    SdramSide bw :=
  { if pins.sdramRst then s.resetMachine else s.machine pins empty wbAdr with
    readReq := readReqWb
    readReqSdram := s.readReq }

end SdramSide

/-! ## The port -/

/-- A port with its write FIFO and its buffer RAM.  `wbDatX` marks the bytes of
`wbDatO` that the RAM drives as X. -/
structure Port (bw : Nat) where
  wb : WbSide bw
  sdram : SdramSide bw
  wrfifo : DualClockFifo.State 3 72
  bufram : BitVec bw → BitVec 32
  wbDatO : BitVec 32
  wbDatX : BitVec 4

/-- One instant of a run: the clocks that have an edge. -/
structure Instant where
  wb : Option WbPins
  sdram : Option SdramPins

/-- `{6'b0, wb_adr_i[31:2], wb_dat_i, wb_sel_i}`. -/
def fifoWord (bus : Bus) : BitVec 72 := 0#6 ++ bus.adr.extractLsb' 2 30 ++ bus.dat ++ bus.sel

namespace Port

/-- `wrfifo_full` and `wrfifo_empty`. -/
def full (p : Port bw) : Bool := p.wrfifo.wr.fullO

def empty (p : Port bw) : Bool := p.wrfifo.rd.emptyO

/-- What the two clocks do to the write FIFO. -/
def fifoInstant (p : Port bw) (e : Instant) : DualClockFifo.Instant 3 72 where
  wr := e.wb.map fun pins =>
    { wrRstI := pins.wbRst, wrEnI := p.wb.wrfifoWrreq p.full, wrDataI := fifoWord pins.bus }
  rd := e.sdram.map fun pins =>
    { rdRstI := pins.sdramRst, rdEnI := p.sdram.wrfifoRdreq p.empty }

/-- The buffer RAM after an edge of `wb_clk`. -/
def buframWb (p : Port bw) (pins : WbPins) (ram : BitVec bw → BitVec 32) : BitVec bw → BitVec 32 :=
  let adr := p.wb.wbBuframAddr pins p.full
  Function.update ram adr (merge (p.wb.wbBuframWe pins) (p.wb.wbBuframDi pins) (ram adr))

/-- The buffer RAM after an edge of `sdram_clk`. -/
def buframSdram (p : Port bw) (ram : BitVec bw → BitVec 32) : BitVec bw → BitVec 32 :=
  if p.sdram.sdramWriteBufram then Function.update ram (wordOf bw p.sdram.adrIR) p.sdram.datR
  else ram

/-- The other side stores into this word of the buffer RAM at this instant. -/
def refills (p : Port bw) (e : Instant) (word : BitVec bw) : Bool :=
  e.sdram.isSome && p.sdram.sdramWriteBufram && wordOf bw p.sdram.adrIR == word

/-- The bytes of the word read that the RAM leaves open.  A read through a port that
writes (`wren_a` is `|we_a`) shows the enabled bytes only, `NEW_DATA_NO_NBE_READ`
being the default that `dpram_altera.v` keeps; a read of a word that the other side
writes at the same instant shows none. -/
def openBytes (p : Port bw) (e : Instant) (pins : WbPins) : BitVec 4 :=
  if p.refills e (p.wb.wbBuframAddr pins p.full) then BitVec.allOnes 4
  else if p.wb.wbBuframWe pins == 0 then 0
  else ~~~p.wb.wbBuframWe pins

/-- One instant: every register is computed from the registers before it.  When
both sides write the same word of the buffer RAM at one instant the RAM leaves the
result open; the refill's data is taken. -/
def step (p : Port bw) (e : Instant) : Port bw where
  wb := match e.wb with
    | none => p.wb
    | some pins => p.wb.edge pins p.full p.sdram.readDone p.sdram.bufClean
  sdram := match e.sdram with
    | none => p.sdram
    | some pins => p.sdram.edge pins p.empty p.wb.readReqWb p.wb.wbAdr
  wrfifo := DualClockFifo.step p.wrfifo (p.fifoInstant e)
  bufram :=
    let ram := match e.wb with
      | none => p.bufram
      | some pins => p.buframWb pins p.bufram
    if e.sdram.isSome then p.buframSdram ram else ram
  wbDatO := match e.wb with
    | none => p.wbDatO
    | some pins => p.buframWb pins p.bufram (p.wb.wbBuframAddr pins p.full)
  wbDatX := match e.wb with
    | none => p.wbDatX
    | some pins => p.openBytes e pins

end Port

/-! ## Reset -/

/-- The registers once both resets have been held until the synchronisers, which
have no reset of their own, have settled. -/
structure Settled (p : Port bw) : Prop where
  wrfifo : DualClockFifo.Settled p.wrfifo
  wbReadAck : p.wb.wbReadAck = false
  wbWriteAck : p.wb.wbWriteAck = false
  wbWriteBufram : p.wb.wbWriteBufram = false
  readReqWb : p.wb.readReqWb = false
  firstReq : p.wb.firstReq = true
  wbState : p.wb.wbState = .idle
  readDoneR : p.wb.readDoneR = false
  readDoneWb : p.wb.readDoneWb = false
  bufCleanR : p.wb.bufCleanR = 0
  bufCleanWb : p.wb.bufCleanWb = 0
  readReq : p.sdram.readReq = false
  readReqSdram : p.sdram.readReqSdram = false
  sdramState : p.sdram.sdramState = .idle
  readDone : p.sdram.readDone = false
  bufClean : p.sdram.bufClean = 0
  sdramWriteBufram : p.sdram.sdramWriteBufram = false

/-- Both clocks have an edge, and both resets are asserted. -/
def UnderReset (e : Instant) : Prop :=
  (∃ pins, e.wb = some pins ∧ pins.wbRst = true) ∧
    ∃ pins, e.sdram = some pins ∧ pins.sdramRst = true

/-- From any power-up contents, three edges of each clock under reset settle the
port. -/
theorem settled_of_reset (p : Port bw) {e₁ e₂ e₃ : Instant} (first : UnderReset e₁)
    (second : UnderReset e₂) (third : UnderReset e₃) :
    Settled (Trace.after Port.step p [e₁, e₂, e₃]) := by
  obtain ⟨⟨wb₁, edge₁, rst₁⟩, sdram₁, edge₁', rst₁'⟩ := first
  obtain ⟨⟨wb₂, edge₂, rst₂⟩, sdram₂, edge₂', rst₂'⟩ := second
  obtain ⟨⟨wb₃, edge₃, rst₃⟩, sdram₃, edge₃', rst₃'⟩ := third
  constructor
  case wrfifo =>
      constructor <;>
        simp [Trace.after, Port.step, Port.fifoInstant, DualClockFifo.step,
          DualClockFifo.WrSide.edge, DualClockFifo.RdSide.edge,
          DualClockFifo.WrSide.nextAddrGray, DualClockFifo.RdSide.nextAddrGray,
          DualClockFifo.State.rdGrayAfter, DualClockFifo.State.wrGrayAfter,
          edge₁, edge₂, edge₃, edge₁', edge₂', edge₃', rst₁, rst₂, rst₃, rst₁', rst₂', rst₃']
  all_goals
    simp [Trace.after, Port.step, WbSide.edge, WbSide.resetMachine, SdramSide.edge,
      SdramSide.resetMachine, edge₁, edge₂, edge₃, edge₁', edge₂', edge₃', rst₁, rst₂, rst₃,
      rst₁', rst₂', rst₃']

/-- Edges of both clocks under both resets. -/
def resetInstant : Instant where
  wb := some ⟨true, Pins.idle, 0, 0, 0, false⟩
  sdram := some ⟨true, 0, 0, false⟩

theorem underReset_resetInstant : UnderReset resetInstant :=
  ⟨⟨_, rfl, rfl⟩, _, rfl, rfl⟩

/-- A port with eight-word lines at power-up. -/
def powerUp : Port 3 where
  wb := ⟨0, 0, 0, false, true, false, true, false, .read, 5, true, true, 3, 1⟩
  sdram := ⟨true, true, .write, false, false, 0, true, 7, false, 0, 0, 0⟩
  wrfifo := ⟨⟨1, 2, 3, 4, true, fun _ => 0⟩, ⟨4, 3, 2, 1, false, 0⟩⟩
  bufram := fun _ => 0
  wbDatO := 0
  wbDatX := 0

/-- The port once its resets have been held for three edges of both clocks. -/
def afterReset : Port 3 :=
  Trace.after Port.step powerUp [resetInstant, resetInstant, resetInstant]

theorem settled_afterReset : Settled afterReset :=
  settled_of_reset powerUp underReset_resetInstant underReset_resetInstant underReset_resetInstant

/-- Neither reset is asserted at this instant. -/
def Running (e : Instant) : Prop :=
  (∀ pins ∈ e.wb, pins.wbRst = false) ∧ ∀ pins ∈ e.sdram, pins.sdramRst = false

instance (e : Instant) : Decidable (Running e) := inferInstanceAs (Decidable (_ ∧ _))

end OrpsocCores.WbPort
