import OrpsocCores.Foundation.TapController
import OrpsocCores.JpVpi.Bridge
import OrpsocCores.VpiDebugModule.Crc

/-!
# The debug module of the simulator

The tasks of `vpi_debug_module.v` drive the pins of a JTAG port: they set `tms` and
`tdi`, let `gen_clk` make clock periods, and read `tdo`.  A task is a function on the
registers of the module and the array `data_storage`; the rising edges of `tck` that it
makes, with what the pins have there, are kept beside the registers.  The tasks are the
ones that the command loop of the bridge is given (`tasks`).

What `tdo` does is a parameter, and so are the words that the simulator gives for an
index outside the array.  Messages, and the stops that go with them, are left out, and so
are the two test tasks that nothing calls.
-/

set_option autoImplicit false

namespace OrpsocCores.VpiDebugModule

open JpVpi TapController

/-! ## Constants

The lengths of status, check, access type, address and length are the same on both chains,
4, 32, 4, 32 and 16 bits. -/

def IR_LENGTH : Nat := 4

def DBG_TOP_MODULE_ID_LENGTH : Nat := 4

def DBG_WB_CMD_LEN : Nat := 4
def DBG_WB_GO : BitVec 4 := 0x0
def DBG_WB_WR_COMM : BitVec 4 := 0x2
def DBG_WB_WRITE8 : BitVec 4 := 0x0
def DBG_WB_WRITE16 : BitVec 4 := 0x1
def DBG_WB_WRITE32 : BitVec 4 := 0x2
def DBG_WB_READ8 : BitVec 4 := 0x4
def DBG_WB_READ16 : BitVec 4 := 0x5
def DBG_WB_READ32 : BitVec 4 := 0x6

def DBG_CPU_CMD_LEN : Nat := 4
def DBG_CPU_DR_LEN : Nat := 52
def DBG_CPU_CTRL_LEN : Nat := 2
def DBG_CPU_GO : BitVec 4 := 0x0
def DBG_CPU_WR_COMM : BitVec 4 := 0x2
def DBG_CPU_RD_CTRL : BitVec 4 := 0x3
def DBG_CPU_WR_CTRL : BitVec 4 := 0x4
def DBG_CPU_WRITE : BitVec 4 := 0x2
def DBG_CPU_READ : BitVec 4 := 0x6

/-! ## The pins -/

/-- What the module meets: `tdo` at the rising edges of `tck` and after each period, and
the words outside the array.  A wait for `tdo` to go low comes to an end. -/
structure Surroundings where
  rise : Nat → Bool
  level : Nat → Bool
  outside : Nat → Word
  ready : ∀ periods, ∃ polls, level (periods + polls) = false

/-- How often `tdo` is found high by a wait that begins after so many periods. -/
def Surroundings.polls (env : Surroundings) (periods : Nat) : Nat := Nat.find (env.ready periods)

/-- The registers of the module, and the rising edges of `tck` so far; a pin that is not
driven has no value. -/
structure Link where
  tms : Bool
  tdi : Option Bool
  crcOut : Word
  crcIn : Word
  inDataBe : Word
  inDataLe : Word
  incomingWord : Word
  status : BitVec 4
  statusWb : BitVec 4
  statusCpu : BitVec 4
  lastWbCmd : BitVec 4
  lastCpuCmd : BitVec 4
  lengthGlobal : BitVec 19
  edges : List (Edge (Option Bool))

variable (env : Surroundings)

/-- A period of `tck`, with the registers that follow its rising edge. -/
def Link.clock (l : Link) : Link :=
  let tdo := env.rise l.edges.length
  { l with
    edges := l.edges ++ [⟨l.tms, l.tdi⟩]
    crcIn := VpiDebugModule.crcIn l.crcIn tdo
    inDataBe := (l.inDataBe <<< 1) ||| (BitVec.ofBool tdo).setWidth 32
    inDataLe := (l.inDataLe >>> 1) ||| ((BitVec.ofBool tdo).setWidth 32 <<< 31) }

/-- `gen_clk`. -/
def genClk (number : Nat) (l : Link) : Link := (Link.clock env)^[number] l

/-- `tdo`, as it is read between two periods. -/
def Link.tdo (l : Link) : Bool := env.level l.edges.length

/-- `for(i=0; i<n; i=i+1)`. -/
def forUp {α : Type} (n : Nat) (body : Nat → α → α) (a : α) : α :=
  (List.range n).foldl (fun a i => body i a) a

/-- `for(i=n-1; i>=0; i=i-1)`. -/
def forDown {α : Type} (n : Nat) (body : Nat → α → α) (a : α) : α :=
  (List.range n).reverse.foldl (fun a i => body i a) a

/-- Drive a bit, take it into the check, and make a period. -/
def shiftBit (bit : Bool) (l : Link) : Link :=
  genClk env 1 { l with tdi := some bit, crcOut := calculateCrc l.crcOut bit }

/-- From run-test/idle to shift-DR. -/
def enterShiftDr (l : Link) : Link :=
  let l := genClk env 1 { l with tms := true }
  genClk env 2 { l with tms := false }

/-- The loop over the bits of the outgoing check. -/
def sendCrc (genCrcErr : Bool) (l : Link) : Link :=
  forDown 32 (fun i l =>
    genClk env 1 { l with
      tdi := some (if genCrcErr && i == 0 then !l.crcOut.getLsbD i else l.crcOut.getLsbD i) }) l

/-- A register with one bit replaced. -/
def putBit {w : Nat} (x : BitVec w) (i : Nat) (bit : Bool) : BitVec w :=
  if bit then x ||| BitVec.twoPow w i else x &&& ~~~BitVec.twoPow w i

/-- The loop that reads the status. -/
def readStatus (status : BitVec 4) (l : Link) : BitVec 4 × Link :=
  forDown 4 (fun i x =>
    let l := genClk env 1 x.2
    (putBit x.1 i (l.tdo env), l)) (status, l)

/-- The incoming check, and back to run-test/idle. -/
def receiveCrc (l : Link) : Link :=
  let l := forUp (32 - 1) (fun _ l => genClk env 1 l) l
  let l := genClk env 1 { l with tms := true }
  let l := genClk env 1 { l with tms := true }
  genClk env 1 { l with tms := false }

/-! ## The state of the port -/

/-- `reset_tap`. -/
def resetTap (l : Link) : Link := genClk env 5 { l with tms := true }

/-- `goto_run_test_idle`. -/
def gotoRunTestIdle (l : Link) : Link := genClk env 1 { l with tms := false }

/-- `set_instruction`. -/
def setInstruction (instr : BitVec 4) (l : Link) : Link :=
  let l := genClk env 2 { l with tms := true }
  let l := genClk env 2 { l with tms := false }
  let l := forUp (IR_LENGTH - 1) (fun i l => genClk env 1 { l with tdi := some (instr.getLsbD i) }) l
  let l := genClk env 1 { l with tdi := some (instr.getLsbD (IR_LENGTH - 1)), tms := true }
  let l := genClk env 1 { l with tdi := none }
  genClk env 1 { l with tms := false }

/-- `read_id_code`. -/
def readIdCode (l : Link) : Word × Link :=
  let l := enterShiftDr env l
  let l := genClk env 31 { l with tdi := some false }
  let l := genClk env 1 { l with tms := true }
  let code := l.inDataLe
  let l := genClk env 1 { l with tdi := none }
  (code, genClk env 1 { l with tms := false })

/-- `module_select`. -/
def moduleSelect (data : BitVec 4) (genCrcErr : Bool) (l : Link) : Link :=
  let l := enterShiftDr env l
  let l := { l with status := 0, crcOut := BitVec.allOnes 32 }
  let l := shiftBit env true l
  let l := forDown DBG_TOP_MODULE_ID_LENGTH (fun i l => shiftBit env (data.getLsbD i) l) l
  let l := sendCrc env genCrcErr l
  let l := { l with tdi := none, crcIn := BitVec.allOnes 32 }
  let read := readStatus env l.status l
  receiveCrc env { read.2 with status := read.1 }

/-- The frame of a command, up to the outgoing check. -/
def sendCommand (command accType : BitVec 4) (addr : Word) (length : BitVec 16)
    (genCrcErr : Bool) (l : Link) : Link :=
  let l := enterShiftDr env l
  let l := { l with crcOut := BitVec.allOnes 32 }
  let l := shiftBit env false l
  let l := forDown 4 (fun i l => shiftBit env (command.getLsbD i) l) l
  let l := forDown 4 (fun i l => shiftBit env (accType.getLsbD i) l) l
  let l := forDown 32 (fun i l => shiftBit env (addr.getLsbD i) l) l
  let l := forDown 16 (fun i l => shiftBit env (length.getLsbD i) l) l
  let l := sendCrc env genCrcErr l
  { l with tdi := none, crcIn := BitVec.allOnes 32 }

/-! ## The Wishbone chain -/

/-- `debug_wishbone_wr_comm`. -/
def debugWishboneWrComm (accType : BitVec 4) (addr : Word) (length : BitVec 16)
    (genCrcErr : Bool) (l : Link) : Link :=
  let l := sendCommand env DBG_WB_WR_COMM accType addr length genCrcErr l
  let read := readStatus env l.statusWb l
  receiveCrc env { read.2 with statusWb := read.1 }

/-- A word of `data_storage`. -/
def fetch (storage : Storage) (index : Nat) : Word :=
  if inside : index < 4096 then storage ⟨index, inside⟩ else env.outside index

/-- A word into `data_storage`; an index outside the array changes nothing. -/
def store (storage : Storage) (index : Nat) (data : Word) : Storage :=
  if inside : index < 4096 then Function.update storage ⟨index, inside⟩ data else storage

/-- Out of shift-DR, and back to it when `tdo` is low in pause-DR. -/
def waitReady (l : Link) : Link :=
  let l := genClk env 1 { l with tms := true }
  let l := genClk env 1 { l with tms := false }
  let l := genClk env (env.polls l.edges.length) l
  let l := genClk env 1 { l with tms := true }
  genClk env 1 { l with tms := false }

/-- The outgoing check of a `go`: its last bit may be followed by a wait. -/
def endCrc (waitForReady genCrcErr : Bool) (l : Link) : Link :=
  let l := forDown (32 - 1) (fun i l =>
    genClk env 1 { l with tdi := some (l.crcOut.getLsbD (i + 1)) }) l
  let l := { l with tdi := some (if genCrcErr then !l.crcOut.getLsbD 0 else l.crcOut.getLsbD 0) }
  if waitForReady then waitReady env l else genClk env 1 l

/-- The write loop of `debug_wishbone_go`, with the word pointer. -/
def wishboneWriteBit (storage : Storage) (i : Nat) (x : Nat × Link) : Nat × Link :=
  let wordPointer := if i % 32 = 0 ∧ 0 < i then x.1 + 1 else x.1
  let tmpData := fetch env storage wordPointer
  let bitPointer := 31 - i % 32
  (wordPointer, shiftBit env (tmpData.getLsbD bitPointer) x.2)

/-- The read loop of `debug_wishbone_go`, with the word pointer. -/
def wishboneReadBit (i : Nat) (x : Nat × Machine Link) : Nat × Machine Link :=
  let l := genClk env 1 x.2.1
  let l := if i % 8 = 7 then
      { l with incomingWord := l.incomingWord.setWidth 24 ++ l.inDataBe.setWidth 8 }
    else l
  if i % 32 = 31 then (x.1 + 1, l, store x.2.2 x.1 l.incomingWord) else (x.1, l, x.2.2)

/-- `last_wb_cmd` is one of the write commands. -/
def Link.wbWrites (l : Link) : Bool :=
  l.lastWbCmd == DBG_WB_WRITE8 || l.lastWbCmd == DBG_WB_WRITE16 || l.lastWbCmd == DBG_WB_WRITE32

/-- `last_wb_cmd` is one of the read commands. -/
def Link.wbReads (l : Link) : Bool :=
  l.lastWbCmd == DBG_WB_READ8 || l.lastWbCmd == DBG_WB_READ16 || l.lastWbCmd == DBG_WB_READ32

/-- The write part of `debug_wishbone_go`. -/
def wishboneWrite (storage : Storage) (l : Link) : Link :=
  (forUp (l.lengthGlobal.toNat * 8) (wishboneWriteBit env storage) (0, l)).2

/-- The read part of `debug_wishbone_go`; a last word that is not complete is stored
behind the loop. -/
def wishboneRead (m : Machine Link) : Machine Link :=
  let x := forUp (m.1.lengthGlobal.toNat * 8) (wishboneReadBit env) (0, m)
  if x.2.1.lengthGlobal.setWidth 2 ≠ 0 then (x.2.1, store x.2.2 x.1 x.2.1.incomingWord)
  else x.2

/-- `debug_wishbone_go`. -/
def debugWishboneGo (waitForWbReady genCrcErr : Bool) (m : Machine Link) : Machine Link :=
  let command := DBG_WB_GO
  let l := enterShiftDr env m.1
  let l := { l with crcOut := BitVec.allOnes 32 }
  let l := shiftBit env false l
  let l := forDown DBG_WB_CMD_LEN (fun i l => shiftBit env (command.getLsbD i) l) l
  let l := if l.wbWrites then wishboneWrite env m.2 l else l
  let l := endCrc env waitForWbReady genCrcErr l
  let l := { l with tdi := none, crcIn := BitVec.allOnes 32 }
  let m := if l.wbReads then wishboneRead env (l, m.2) else (l, m.2)
  let read := readStatus env m.1.statusWb m.1
  (receiveCrc env { read.2 with statusWb := read.1 }, m.2)

/-- A command and its `go`, with `last_wb_cmd` and `length_global` set between the two. -/
def wbTransfer (accType : BitVec 4) (addr : Word) (length : BitVec 16) (lengthGlobal : BitVec 19)
    (waitForWbReady : Bool) (m : Machine Link) : Machine Link :=
  let l := debugWishboneWrComm env accType addr length false m.1
  debugWishboneGo env waitForWbReady false
    ({ l with lastWbCmd := accType, lengthGlobal := lengthGlobal }, m.2)

/-- `wb_write_32`. -/
def wbWrite32 (data addr : Word) (length : BitVec 16) (m : Machine Link) : Machine Link :=
  wbTransfer env DBG_WB_WRITE32 addr length (length.setWidth 19 + 1) false
    (m.1, store m.2 0 data)

/-- `wb_block_write_32`. -/
def wbBlockWrite32 (addr : Word) (length : BitVec 16) (m : Machine Link) : Machine Link :=
  wbTransfer env DBG_WB_WRITE32 addr (length - 1) (length.setWidth 19) false m

/-- `wb_read_32`. -/
def wbRead32 (addr : Word) (length : BitVec 16) (m : Machine Link) : Word × Machine Link :=
  let m := wbTransfer env DBG_WB_READ32 addr length (length.setWidth 19 + 1) true m
  (fetch env m.2 0, m)

/-- `wb_read_8`. -/
def wbRead8 (addr : Word) (length : BitVec 16) (m : Machine Link) : Word × Machine Link :=
  let m := wbTransfer env DBG_WB_READ8 addr length (length.setWidth 19 + 1) true m
  (fetch env m.2 0, m)

/-- `wb_block_read_32`. -/
def wbBlockRead32 (addr : Word) (length : BitVec 16) (m : Machine Link) : Machine Link :=
  wbTransfer env DBG_WB_READ32 addr (length - 1) (length.setWidth 19) true m

/-- `wb_write_16`. -/
def wbWrite16 (data : BitVec 16) (addr : Word) (length : BitVec 16) (m : Machine Link) :
    Machine Link :=
  wbTransfer env DBG_WB_WRITE16 addr length (length.setWidth 19 + 1) false
    (m.1, store m.2 0 (data ++ 0#16))

/-- `wb_write_8`. -/
def wbWrite8 (data : BitVec 8) (addr : Word) (length : BitVec 16) (m : Machine Link) :
    Machine Link :=
  wbTransfer env DBG_WB_WRITE8 addr length (length.setWidth 19 + 1) false
    (m.1, store m.2 0 (data ++ 0#24))

/-! ## The processor chain -/

/-- `debug_cpu_wr_ctrl`. -/
def debugCpuWrCtrl (data : BitVec 52) (l : Link) : Link :=
  let command := DBG_CPU_WR_CTRL
  let l := enterShiftDr env l
  let l := { l with crcOut := BitVec.allOnes 32 }
  let l := shiftBit env false l
  let l := forDown DBG_CPU_CMD_LEN (fun i l => shiftBit env (command.getLsbD i) l) l
  let l := forDown DBG_CPU_CTRL_LEN (fun i l => shiftBit env (data.getLsbD i) l) l
  let l := forDown (DBG_CPU_DR_LEN - DBG_CPU_CTRL_LEN) (fun _ l => shiftBit env false l) l
  let l := sendCrc env false l
  let l := { l with tdi := none, crcIn := BitVec.allOnes 32 }
  let read := readStatus env l.statusCpu l
  receiveCrc env { read.2 with statusCpu := read.1 }

/-- `debug_cpu_rd_ctrl`, with the two bits that its caller keeps. -/
def debugCpuRdCtrl (l : Link) : BitVec 2 × Link :=
  let command := DBG_CPU_RD_CTRL
  let l := enterShiftDr env l
  let l := { l with crcOut := BitVec.allOnes 32 }
  let l := shiftBit env false l
  let l := forDown DBG_CPU_CMD_LEN (fun i l => shiftBit env (command.getLsbD i) l) l
  let l := sendCrc env false l
  let l := { l with tdi := none, crcIn := BitVec.allOnes 32 }
  let l := genClk env 1 l
  let data := putBit 0#2 0 (l.tdo env)
  let l := genClk env 1 l
  let data := putBit data 1 (l.tdo env)
  let l := forDown (DBG_CPU_DR_LEN - DBG_CPU_CTRL_LEN) (fun _ l => genClk env 1 l) l
  let read := readStatus env l.statusCpu l
  (data, receiveCrc env { read.2 with statusCpu := read.1 })

/-- `debug_cpu_wr_comm`. -/
def debugCpuWrComm (accType : BitVec 4) (addr : Word) (length : BitVec 16)
    (genCrcErr : Bool) (l : Link) : Link :=
  let l := sendCommand env DBG_CPU_WR_COMM accType addr length genCrcErr l
  let read := readStatus env l.statusCpu l
  receiveCrc env { read.2 with statusCpu := read.1 }

/-- The write loop of `debug_cpu_go`, with the word pointer: the word is fetched before
the pointer is advanced. -/
def cpuWriteBit (storage : Storage) (i : Nat) (x : Nat × Link) : Nat × Link :=
  let tmpData := fetch env storage x.1
  let wordPointer := if i % 32 = 0 ∧ 0 < i then x.1 + 1 else x.1
  let bitPointer := 31 - i % 32
  (wordPointer, shiftBit env (tmpData.getLsbD bitPointer) x.2)

/-- The read loop of `debug_cpu_go`, with the word pointer. -/
def cpuReadBit (i : Nat) (x : Nat × Machine Link) : Nat × Machine Link :=
  let l := genClk env 1 x.2.1
  if i % 32 = 31 then (x.1 + 1, l, store x.2.2 x.1 l.inDataBe) else (x.1, l, x.2.2)

/-- The write part of `debug_cpu_go`. -/
def cpuWrite (storage : Storage) (l : Link) : Link :=
  (forUp (l.lengthGlobal.toNat * 8) (cpuWriteBit env storage) (0, l)).2

/-- The read part of `debug_cpu_go`. -/
def cpuRead (m : Machine Link) : Machine Link :=
  (forUp (m.1.lengthGlobal.toNat * 8) (cpuReadBit env) (0, m)).2

/-- `debug_cpu_go`. -/
def debugCpuGo (waitForCpuReady genCrcErr : Bool) (m : Machine Link) : Machine Link :=
  let command := DBG_CPU_GO
  let l := enterShiftDr env m.1
  let l := { l with crcOut := BitVec.allOnes 32 }
  let l := shiftBit env false l
  let l := forDown DBG_CPU_CMD_LEN (fun i l => shiftBit env (command.getLsbD i) l) l
  let l := if l.lastCpuCmd = DBG_CPU_WRITE then cpuWrite env m.2 l else l
  let l := endCrc env waitForCpuReady genCrcErr l
  let l := { l with tdi := none, crcIn := BitVec.allOnes 32 }
  let m := if l.lastCpuCmd = DBG_CPU_READ then cpuRead env (l, m.2) else (l, m.2)
  let read := readStatus env m.1.statusCpu m.1
  (receiveCrc env { read.2 with statusCpu := read.1 }, m.2)

/-- A command and its `go`, with `last_cpu_cmd` and `length_global` set between the two. -/
def cpuTransfer (accType : BitVec 4) (addr : Word) (length : BitVec 16)
    (lengthGlobal : BitVec 19) (m : Machine Link) : Machine Link :=
  let l := debugCpuWrComm env accType addr length false m.1
  debugCpuGo env false false
    ({ l with lastCpuCmd := accType, lengthGlobal := lengthGlobal }, m.2)

/-- `cpu_read_32`. -/
def cpuRead32 (addr : Word) (length : BitVec 16) (m : Machine Link) : Word × Machine Link :=
  let m := cpuTransfer env DBG_CPU_READ addr length (length.setWidth 19 + 1) m
  (fetch env m.2 0, m)

/-- `cpu_read_block`. -/
def cpuReadBlock (addr : Word) (length : BitVec 16) (m : Machine Link) : Machine Link :=
  cpuTransfer env DBG_CPU_READ addr (length - 1) (length.setWidth 19) m

/-- `cpu_write_32`. -/
def cpuWrite32 (data addr : Word) (length : BitVec 16) (m : Machine Link) : Machine Link :=
  cpuTransfer env DBG_CPU_WRITE addr length (length.setWidth 19 + 1) (m.1, store m.2 0 data)

/-- `cpu_write_block`. -/
def cpuWriteBlock (addr : Word) (length : BitVec 16) (m : Machine Link) : Machine Link :=
  cpuTransfer env DBG_CPU_WRITE addr (length - 1) (length.setWidth 19) m

/-! ## The commands -/

/-- The tasks as the command loop calls them; an argument is cut to the width of the
task's input. -/
def tasks : Tasks Link where
  resetTap m := (gotoRunTestIdle env (resetTap env m.1), m.2)
  setInstruction jtagInstnVal m := (setInstruction env (jtagInstnVal.setWidth 4) m.1, m.2)
  moduleSelect setChainVal m := (moduleSelect env (setChainVal.setWidth 4) false m.1, m.2)
  debugCpuWrCtrl cpuCtrlVal m := (debugCpuWrCtrl env (cpuCtrlVal.setWidth 52) m.1, m.2)
  debugCpuRdCtrl m := ((debugCpuRdCtrl env m.1).1, (debugCpuRdCtrl env m.1).2, m.2)
  cpuWriteBlock cmdAdr blockCmdLength := cpuWriteBlock env cmdAdr (blockCmdLength.setWidth 16)
  cpuWrite32 cmdData cmdAdr := cpuWrite32 env cmdData cmdAdr 0x3
  cpuReadBlock cmdAdr blockCmdLength := cpuReadBlock env cmdAdr (blockCmdLength.setWidth 16)
  cpuRead32 cmdAdr m := (cpuRead32 env cmdAdr 0x3 m).2
  wbWrite32 cmdData cmdAdr := wbWrite32 env cmdData cmdAdr 0x3
  wbWrite16 cmdData cmdAdr := wbWrite16 env cmdData cmdAdr 0x1
  wbWrite8 cmdData cmdAdr := wbWrite8 env cmdData cmdAdr 0x0
  wbRead32 cmdAdr := wbRead32 env cmdAdr 0x3
  wbRead8 cmdAdr := wbRead8 env cmdAdr 0x0
  wbBlockWrite32 cmdAdr blockCmdLength := wbBlockWrite32 env cmdAdr (blockCmdLength.setWidth 16)
  wbBlockRead32 cmdAdr blockCmdLength := wbBlockRead32 env cmdAdr (blockCmdLength.setWidth 16)
  readIdCode m := ((readIdCode env m.1).1, (readIdCode env m.1).2, m.2)

/-- The registers when `main` comes to its loop. -/
def start (l : Link) : Link := gotoRunTestIdle env (resetTap env l)

end OrpsocCores.VpiDebugModule
