/-!
# The JTAG server of the Verilator test benches

`VerilatorJtagServer` receives commands from a debugger and drives the JTAG pins of the
simulated design.  The test bench calls `doJTAG` once in each half period of its clock.
A command takes many calls: `gen_clk` divides the calls into clock phases of
`tck_period`, and each task keeps its progress in static variables until it is done.

The static variables of the functions, the members of the class and the pins are the
registers of one state.  The time and the period counter are natural numbers; the
counter stays below five times the period.
-/

set_option autoImplicit false

namespace OrpsocCores.JtagServer

abbrev Byte := BitVec 8

/-- `XFERT_MAX_SIZE`. -/
def xfertMaxSize : Nat := 512

/-- `struct jtag_cmd`.  A length beyond the arrays would make the tasks run over their
ends. -/
structure JtagCmd where
  cmd : Int
  bufferOut : Vector Byte xfertMaxSize
  bufferIn : Vector Byte xfertMaxSize
  length : Int
  nbBits : Int
  fits : length ≤ xfertMaxSize

/-! ## Commands -/

def cmdReset : Int := 0
def cmdTmsSeq : Int := 1
def cmdScanChain : Int := 2
def cmdScanChainFlipTms : Int := 3

/-- The states of the dispatcher. -/
inductive JtagState
  | checkCmd
  | tapReset
  | gotoIdle
  | doTmsSeq
  | scanChain
  | finished
  deriving DecidableEq, Repr

/-- What a task returns. -/
inductive Status
  | done
  | inProgress
  deriving DecidableEq, Repr

/-! ## The state -/

/-- The static variables of `gen_clk`. -/
structure ClockGen where
  genClkBegin : Bool
  tckLow : Bool
  time : Nat
  curPeriod : Nat
  captureDone : Bool
  deriving DecidableEq, Repr

/-- The static variables of `do_tms_seq`. -/
structure TmsSeq where
  i : Nat
  j : Nat
  data : Byte
  start : Bool
  deriving DecidableEq, Repr

/-- The static variables of `do_scan_chain`. -/
structure ScanChain where
  i : Nat
  j : Nat
  start : Bool
  data : Byte
  capturedTdo : Byte
  deriving DecidableEq, Repr

/-- The pins that the server drives. -/
structure Pins where
  tms : Bool
  tdi : Bool
  tck : Bool
  deriving DecidableEq, Repr

structure Server where
  clk : ClockGen
  seq : TmsSeq
  chain : ScanChain
  pins : Pins
  packet : JtagCmd
  jtagState : JtagState
  cmdInProgress : Bool
  tmsFlip : Bool
  /-- What has been sent to the debugger. -/
  sent : List JtagCmd

/-! ## The clock -/

/-- What a call of `gen_clk` returns and leaves behind its pointers. -/
structure Tick where
  status : Status
  clk : ClockGen
  tck : Bool
  capturedTdo : Byte

/-- `gen_clk`, not as a restart. -/
def genClk (tckPeriod t nbPeriod : Nat) (tck : Bool) (tdo capturedTdo : Byte) (getTdo : Bool)
    (clk : ClockGen) : Tick :=
  let clk := if clk.genClkBegin then { clk with genClkBegin := false, time := t } else clk
  if clk.curPeriod < nbPeriod * tckPeriod then
    if clk.tckLow then
      let clk := { clk with captureDone := false }
      let clk := if tckPeriod < t - clk.time then { clk with time := t, tckLow := false } else clk
      ⟨.inProgress, clk, false, capturedTdo⟩
    else
      let captures := getTdo && !clk.captureDone
      let capturedTdo := if captures then tdo else capturedTdo
      let clk := { clk with captureDone := clk.captureDone || captures }
      let clk := if tckPeriod < t - clk.time then { clk with time := t, tckLow := true } else clk
      ⟨.inProgress, { clk with curPeriod := clk.curPeriod + 1 }, true, capturedTdo⟩
  else ⟨.done, { clk with captureDone := false, genClkBegin := true }, tck, capturedTdo⟩

/-- `gen_clk_restart`. -/
def genClkRestart (clk : ClockGen) : ClockGen :=
  { clk with curPeriod := 0, genClkBegin := true, tckLow := true }

namespace Server

section Tasks

variable (tckPeriod t : Nat) (s : Server)

/-! ## The tasks -/

/-- `reset_tap`. -/
def resetTap : Status × Server :=
  let s := { s with pins := { s.pins with tms := true } }
  let tick := genClk tckPeriod t 5 s.pins.tck 0xff 0 false s.clk
  match tick.status with
  | .done =>
      (.done, { s with
        clk := genClkRestart tick.clk
        pins := { s.pins with tck := tick.tck, tms := false } })
  | .inProgress =>
      (.inProgress, { s with clk := tick.clk, pins := { s.pins with tck := tick.tck } })

/-- `goto_run_test_idle`. -/
def gotoRunTestIdle : Status × Server :=
  let s := { s with pins := { s.pins with tms := false } }
  let tick := genClk tckPeriod t 1 s.pins.tck 0xff 0 false s.clk
  match tick.status with
  | .done =>
      (.done, { s with
        clk := genClkRestart tick.clk
        pins := { s.pins with tck := tick.tck } })
  | .inProgress =>
      (.inProgress, { s with clk := tick.clk, pins := { s.pins with tck := tick.tck } })

/-- The number of bits of a byte that `do_tms_seq` sends. -/
def tmsBitsInByte (length nbBits : Int) (i : Nat) : Int :=
  if (i : Int) = length - 1 then nbBits.tmod 8 else 8

/-- `do_tms_seq`. -/
def doTmsSeq (length nbBits : Int) (buffer : Vector Byte xfertMaxSize) : Status × Server :=
  if (s.seq.i : Int) < length then
    let seq :=
      if s.seq.start then { s.seq with data := buffer.getD s.seq.i 0, start := false } else s.seq
    if (seq.j : Int) < tmsBitsInByte length nbBits seq.i then
      let pins := { s.pins with tms := decide (seq.data &&& 1 = 1) }
      let tick := genClk tckPeriod t 1 pins.tck 0 0 false s.clk
      let pins := { pins with tck := tick.tck }
      match tick.status with
      | .done =>
          (.inProgress, { s with
            seq := { seq with j := seq.j + 1, data := seq.data >>> 1 }
            clk := genClkRestart tick.clk
            pins := pins })
      | .inProgress => (.inProgress, { s with seq := seq, clk := tick.clk, pins := pins })
    else (.inProgress, { s with seq := { seq with j := 0, i := seq.i + 1, start := true } })
  else
    (.done, { s with
      pins := { s.pins with tms := false }
      seq := { s.seq with i := 0, j := 0, start := true } })

/-- The number of bits of a byte that `do_scan_chain` shifts. -/
def scanBitsInByte (length nbBits : Int) (i : Nat) : Int :=
  if (i : Int) = length - 1 then if nbBits.tmod 8 = 0 then 8 else nbBits.tmod 8 else 8

/-- `do_scan_chain`, with the array of the packet for the result. -/
def doScanChain (length nbBits : Int) (bufferOut : Vector Byte xfertMaxSize) (tdo : Byte)
    (flipTms : Bool) : Status × Server :=
  if (s.chain.i : Int) < length then
    let (chain, bufferIn) :=
      if s.chain.start then
        ({ s.chain with data := bufferOut.getD s.chain.i 0, start := false },
          s.packet.bufferIn.setIfInBounds s.chain.i 0)
      else (s.chain, s.packet.bufferIn)
    let bits := scanBitsInByte length nbBits chain.i
    if (chain.j : Int) < bits then
      let last := decide ((chain.j : Int) = bits - 1 ∧ (chain.i : Int) = length - 1)
      let pins := { s.pins with
        tdi := decide (chain.data &&& 1 = 1)
        tms := if last && flipTms then true else s.pins.tms }
      let tick := genClk tckPeriod t 1 pins.tck tdo chain.capturedTdo true s.clk
      let pins := { pins with tck := tick.tck }
      let chain := { chain with capturedTdo := tick.capturedTdo }
      match tick.status with
      | .done =>
          let byte := bufferIn.getD chain.i 0
          let bit : Byte := 1 <<< chain.j
          let byte := if chain.capturedTdo ≠ 0 then byte ||| bit else byte &&& ~~~bit
          (.inProgress, { s with
            chain := { chain with j := chain.j + 1, data := chain.data >>> 1 }
            packet := { s.packet with bufferIn := bufferIn.setIfInBounds chain.i byte }
            clk := genClkRestart tick.clk
            pins := pins })
      | .inProgress =>
          (.inProgress, { s with
            chain := chain
            packet := { s.packet with bufferIn := bufferIn }
            clk := tick.clk
            pins := pins })
    else
      (.inProgress, { s with
        chain := { chain with j := 0, i := chain.i + 1, start := true }
        packet := { s.packet with bufferIn := bufferIn } })
  else
    (.done, { s with
      pins := { s.pins with tdi := false, tms := false }
      chain := { s.chain with i := 0, j := 0, start := true } })

/-! ## The dispatcher -/

/-- `check_for_command`, with what `read` finds. -/
def checkForCommand (arrival : Option JtagCmd) : Server :=
  { s with packet := arrival.getD { s.packet with cmd := -1 } }

/-- The switch over the command. -/
def dispatch : Server :=
  if s.packet.cmd = cmdReset then { s with cmdInProgress := true, jtagState := .tapReset }
  else if s.packet.cmd = cmdTmsSeq then { s with cmdInProgress := true, jtagState := .doTmsSeq }
  else if s.packet.cmd = cmdScanChain then
    { s with cmdInProgress := true, tmsFlip := false, jtagState := .scanChain }
  else if s.packet.cmd = cmdScanChainFlipTms then
    { s with cmdInProgress := true, tmsFlip := true, jtagState := .scanChain }
  else s

/-- The branch of `TAP_RESET`. -/
def tapReset : Server :=
  match s.resetTap tckPeriod t with
  | (.done, s) => { s with jtagState := .gotoIdle }
  | (.inProgress, s) => s

/-- `doJTAG`.  The branch of `CHECK_CMD` runs into the one of `TAP_RESET`. -/
def doJTAG (arrival : Option JtagCmd) (tdo : Byte) : Server :=
  let s := if s.cmdInProgress then s else s.checkForCommand arrival
  match s.jtagState with
  | .checkCmd => s.dispatch.tapReset tckPeriod t
  | .tapReset => s.tapReset tckPeriod t
  | .gotoIdle =>
      match s.gotoRunTestIdle tckPeriod t with
      | (.done, s) => { s with cmdInProgress := false, jtagState := .checkCmd }
      | (.inProgress, s) => s
  | .doTmsSeq =>
      match s.doTmsSeq tckPeriod t s.packet.length s.packet.nbBits s.packet.bufferOut with
      | (.done, s) => { s with cmdInProgress := false, jtagState := .checkCmd }
      | (.inProgress, s) => s
  | .scanChain =>
      let s := { s with pins := { s.pins with tms := false } }
      match s.doScanChain tckPeriod t s.packet.length s.packet.nbBits s.packet.bufferOut tdo
          s.tmsFlip with
      | (.done, s) =>
          { s with cmdInProgress := false, sent := s.sent ++ [s.packet], jtagState := .checkCmd }
      | (.inProgress, s) => s
  | .finished => s

end Tasks

/-- The server as the constructor leaves it, with the pins of the simulated design at
zero.  The packet and `tms_flip` are not initialised. -/
def constructed (packet : JtagCmd) (tmsFlip : Bool) : Server where
  clk := ⟨true, true, 0, 0, false⟩
  seq := ⟨0, 0, 0, true⟩
  chain := ⟨0, 0, true, 0, 0⟩
  pins := ⟨false, false, false⟩
  packet := packet
  jtagState := .checkCmd
  cmdInProgress := false
  tmsFlip := tmsFlip
  sent := []

end Server

end OrpsocCores.JtagServer
