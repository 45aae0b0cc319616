import OrpsocCores.Foundation.GrayCode
import OrpsocCores.Foundation.Trace
import Mathlib.Logic.Function.Basic

/-!
# The dual-clock FIFO

`dual_clock_fifo.v` is written in two clock domains.  The registers clocked by
`wr_clk_i` are `WrSide`, those clocked by `rd_clk_i` are `RdSide`, and an edge of
one clock computes the next registers of its domain from the domain's own
registers and from what it samples of the other one: the foreign Gray pointer,
and for a read the memory.

A run is a list of instants.  At an instant either clock has an edge, or both
have, and then each domain is computed from the registers before the instant.
The register that samples a foreign pointer at such an instant may catch each
changing bit as its old or its new value; `wrCatch` and `rdCatch` say which.  All
zero is the reading of the nonblocking assignments.
-/

set_option autoImplicit false

namespace OrpsocCores.DualClockFifo

open GrayCode

variable {aw dw : Nat}

/-- `gray_conv`: the top bit, and below it every bit against the bit above. -/
def grayConv (x : BitVec aw) : BitVec aw :=
  (x.extractLsb' (aw - 1) 1 ++ (x.extractLsb' 0 (aw - 1) ^^^ x.extractLsb' 1 (aw - 1))).setWidth aw

/-- The registers clocked by `wr_clk_i`. -/
structure WrSide (aw dw : Nat) where
  wrAddr : BitVec aw
  wrAddrGray : BitVec aw
  rdAddrGrayWr : BitVec aw
  rdAddrGrayWrR : BitVec aw
  fullO : Bool
  mem : BitVec aw → BitVec dw

/-- The registers clocked by `rd_clk_i`. -/
structure RdSide (aw dw : Nat) where
  rdAddr : BitVec aw
  rdAddrGray : BitVec aw
  wrAddrGrayRd : BitVec aw
  wrAddrGrayRdR : BitVec aw
  emptyO : Bool
  rdDataO : BitVec dw

structure State (aw dw : Nat) where
  wr : WrSide aw dw
  rd : RdSide aw dw

/-- The inputs sampled at an edge of `wr_clk_i`. -/
structure WrPins (dw : Nat) where
  wrRstI : Bool
  wrEnI : Bool
  wrDataI : BitVec dw

/-- The inputs sampled at an edge of `rd_clk_i`. -/
structure RdPins where
  rdRstI : Bool
  rdEnI : Bool

/-- The write pointer's code after an edge of `wr_clk_i`. -/
def WrSide.nextAddrGray (s : WrSide aw dw) (pins : WrPins dw) : BitVec aw :=
  if pins.wrRstI then 0 else if pins.wrEnI then grayConv (s.wrAddr + 1) else s.wrAddrGray

/-- The read pointer's code after an edge of `rd_clk_i`. -/
def RdSide.nextAddrGray (s : RdSide aw dw) (pins : RdPins) : BitVec aw :=
  if pins.rdRstI then 0 else if pins.rdEnI then grayConv (s.rdAddr + 1) else s.rdAddrGray

/-- An edge of `wr_clk_i` that samples `rdAddrGray` of the read domain. -/
def WrSide.edge (s : WrSide aw dw) (pins : WrPins dw) (rdAddrGray : BitVec aw) : WrSide aw dw where
  wrAddr := if pins.wrRstI then 0 else if pins.wrEnI then s.wrAddr + 1 else s.wrAddr
  wrAddrGray := s.nextAddrGray pins
  rdAddrGrayWr := rdAddrGray
  rdAddrGrayWrR := s.rdAddrGrayWr
  fullO :=
    if pins.wrRstI then false
    else if pins.wrEnI then grayConv (s.wrAddr + 2) == s.rdAddrGrayWrR
    else s.fullO && grayConv (s.wrAddr + 1) == s.rdAddrGrayWrR
  mem := if pins.wrEnI then Function.update s.mem s.wrAddr pins.wrDataI else s.mem

/-- An edge of `rd_clk_i` that samples `wrAddrGray` and the memory. -/
def RdSide.edge (s : RdSide aw dw) (pins : RdPins) (wrAddrGray : BitVec aw)
    (mem : BitVec aw → BitVec dw) : RdSide aw dw where
  rdAddr := if pins.rdRstI then 0 else if pins.rdEnI then s.rdAddr + 1 else s.rdAddr
  rdAddrGray := s.nextAddrGray pins
  wrAddrGrayRd := wrAddrGray
  wrAddrGrayRdR := s.wrAddrGrayRd
  emptyO :=
    if pins.rdRstI then true
    else if pins.rdEnI then grayConv (s.rdAddr + 1) == s.wrAddrGrayRdR
    else s.emptyO && grayConv s.rdAddr == s.wrAddrGrayRdR
  rdDataO := if pins.rdEnI then mem s.rdAddr else s.rdDataO

/-- One instant of a run: the clocks that have an edge, and the changing bits a
coinciding edge catches new. -/
structure Instant (aw dw : Nat) where
  wr : Option (WrPins dw)
  rd : Option RdPins
  wrCatch : BitVec aw := 0
  rdCatch : BitVec aw := 0

/-- The write pointer's code after an instant. -/
def State.wrGrayAfter (s : State aw dw) (e : Instant aw dw) : BitVec aw :=
  match e.wr with
  | none => s.wr.wrAddrGray
  | some pins => s.wr.nextAddrGray pins

/-- The read pointer's code after an instant. -/
def State.rdGrayAfter (s : State aw dw) (e : Instant aw dw) : BitVec aw :=
  match e.rd with
  | none => s.rd.rdAddrGray
  | some pins => s.rd.nextAddrGray pins

/-- One instant: both domains are computed from the registers before it. -/
def step (s : State aw dw) (e : Instant aw dw) : State aw dw where
  wr := match e.wr with
    | none => s.wr
    | some pins => s.wr.edge pins (capture e.wrCatch s.rd.rdAddrGray (s.rdGrayAfter e))
  rd := match e.rd with
    | none => s.rd
    | some pins => s.rd.edge pins (capture e.rdCatch s.wr.wrAddrGray (s.wrGrayAfter e)) s.wr.mem

/-- A word is written at this instant. -/
def Instant.pushes (e : Instant aw dw) : Bool := (e.wr.map WrPins.wrEnI).getD false

/-- A word is read at this instant. -/
def Instant.pops (e : Instant aw dw) : Bool := (e.rd.map RdPins.rdEnI).getD false

/-- The words written and the words delivered so far. -/
structure Log (dw : Nat) where
  written : List (BitVec dw)
  delivered : List (BitVec dw)

/-- Every asserted `wr_en_i` edge writes `wr_data_i`; every asserted `rd_en_i`
edge delivers what it puts on `rd_data_o`. -/
def record (s : State aw dw) (e : Instant aw dw) (log : Log dw) : Log dw where
  written := log.written ++ (e.wr.toList.filter WrPins.wrEnI).map WrPins.wrDataI
  delivered := log.delivered ++ if e.pops then [(step s e).rd.rdDataO] else []

/-- Neither reset is asserted, no word is written while `full_o` and none is read
while `empty_o`. -/
def Permitted (s : State aw dw) (e : Instant aw dw) : Prop :=
  (∀ pins ∈ e.wr, pins.wrRstI = false ∧ (pins.wrEnI = true → s.wr.fullO = false)) ∧
    ∀ pins ∈ e.rd, pins.rdRstI = false ∧ (pins.rdEnI = true → s.rd.emptyO = false)

instance (s : State aw dw) (e : Instant aw dw) : Decidable (Permitted s e) :=
  inferInstanceAs (Decidable (_ ∧ _))

/-- The registers once both resets have been held until the synchronisers, which
have no reset of their own, have settled.  The memory and the output register
are whatever they were. -/
structure Settled (s : State aw dw) : Prop where
  wrAddr : s.wr.wrAddr = 0
  wrAddrGray : s.wr.wrAddrGray = 0
  rdAddrGrayWr : s.wr.rdAddrGrayWr = 0
  rdAddrGrayWrR : s.wr.rdAddrGrayWrR = 0
  fullO : s.wr.fullO = false
  rdAddr : s.rd.rdAddr = 0
  rdAddrGray : s.rd.rdAddrGray = 0
  wrAddrGrayRd : s.rd.wrAddrGrayRd = 0
  wrAddrGrayRdR : s.rd.wrAddrGrayRdR = 0
  emptyO : s.rd.emptyO = true

/-- Edges of both clocks under both resets. -/
def resetInstant : Instant aw dw where
  wr := some { wrRstI := true, wrEnI := false, wrDataI := 0 }
  rd := some { rdRstI := true, rdEnI := false }

/-- From any power-up contents, three edges of each clock under reset settle the
pointers and their copies. -/
theorem settled_of_reset (s : State aw dw) :
    Settled (Trace.after step s [resetInstant, resetInstant, resetInstant]) := by
  constructor <;> simp [Trace.after, step, resetInstant, WrSide.edge, RdSide.edge,
    WrSide.nextAddrGray, RdSide.nextAddrGray, State.rdGrayAfter, State.wrGrayAfter]

end OrpsocCores.DualClockFifo
