import OrpsocCores.Foundation.ByteStore
import OrpsocCores.Foundation.Network

/-!
# The debug bridge between the server and the simulator

The debug server runs in a process of its own and talks to the simulator over
three pipes: it writes commands to one and the rest of its requests to another,
and reads everything the simulator has to say from the third.  The first part of
this module follows the `dbg_` functions of `rsp-rtl_sim.c`, the second one the
loop `main` of `vpi_debug_module.v` with the system tasks of `jp_vpi.c` that it
calls.  Neither side sees more of the other than bytes.

A word is sent as its bytes in memory, which on the little-endian host are the
least significant one first.  A block is a run of words; cutting its transfer
into words only adds schedulings.  What the tasks of the simulator do to the
hardware is a parameter, `Tasks`.
-/

set_option autoImplicit false

namespace OrpsocCores.JpVpi

open Network

abbrev Byte := BitVec 8

abbrev Word := BitVec 32

/-! ## The pipes -/

/-- The pipes the server writes to. -/
inductive Up where
  | command
  | rspToVpi
  deriving DecidableEq

/-- The pipe the simulator writes to. -/
inductive Down where
  | vpiToRsp
  deriving DecidableEq

/-- What the bytes in the pipes stand for. -/
inductive Kind where
  | command
  | ack
  | address
  | length
  | data
  | blockWord
  | response
  deriving DecidableEq

/-- The bytes of a word in memory. -/
def wordBytes (w : Word) : List Byte := lanes w

/-- The word whose bytes have been read. -/
def wordOf : List Byte → Word
  | [b₀, b₁, b₂, b₃] => b₃ ++ b₂ ++ b₁ ++ b₀
  | _ => 0

/-- The commands, with the values of `rsp-vpi.h`. -/
inductive Command where
  | jtagSetIr
  | setDebugChain
  | cpuCtrlWr
  | cpuCtrlRd
  | cpuWrReg
  | cpuRdReg
  | wbWr
  | wbRd32
  | wbBlockWr32
  | wbBlockRd32
  | reset
  | readJtagId
  | gdbDetach
  | wbRd8
  deriving DecidableEq

def Command.code : Command → Byte
  | .jtagSetIr => 0x1
  | .setDebugChain => 0x2
  | .cpuCtrlWr => 0x3
  | .cpuCtrlRd => 0x4
  | .cpuWrReg => 0x5
  | .cpuRdReg => 0x6
  | .wbWr => 0x7
  | .wbRd32 => 0x8
  | .wbBlockWr32 => 0x9
  | .wbBlockRd32 => 0xa
  | .reset => 0xb
  | .readJtagId => 0xc
  | .gdbDetach => 0xd
  | .wbRd8 => 0xe

/-- The command of a value, by the constants of `vpi_debug_module.v`. -/
def Command.decode (cmd : Byte) : Option Command :=
  if cmd = 0xb then some .reset
  else if cmd = 0x1 then some .jtagSetIr
  else if cmd = 0x2 then some .setDebugChain
  else if cmd = 0x3 then some .cpuCtrlWr
  else if cmd = 0x4 then some .cpuCtrlRd
  else if cmd = 0x5 then some .cpuWrReg
  else if cmd = 0x6 then some .cpuRdReg
  else if cmd = 0x7 then some .wbWr
  else if cmd = 0x8 then some .wbRd32
  else if cmd = 0xe then some .wbRd8
  else if cmd = 0x9 then some .wbBlockWr32
  else if cmd = 0xa then some .wbBlockRd32
  else if cmd = 0xc then some .readJtagId
  else if cmd = 0xd then some .gdbDetach
  else none

/-! ## The server's side -/

/-- A program of the debug server. -/
abbrev Server (α : Type) := Proc Up Down Kind Byte α

/-- Send a command and wait for the simulator to return it. -/
def sendCommandToVpi (cmd : Command) : Server Unit :=
  .write .command ⟨.command, [cmd.code]⟩
    (.read .vpiToRsp .ack 1 fun resp => if resp = [cmd.code] then .ret () else .halt)

/-- `send_address_to_vpi` and `send_data_to_vpi`: four bytes, for an item of this
kind. -/
def sendDataToVpi (kind : Kind) (data : Word) : Server Unit :=
  .write .rspToVpi ⟨kind, wordBytes data⟩ (.ret ())

def sendBlockDataToVpi : List Word → Server Unit
  | [] => .ret ()
  | data :: rest => .write .rspToVpi ⟨.blockWord, wordBytes data⟩ (sendBlockDataToVpi rest)

def getByteFromVpi : Server Byte :=
  .read .vpiToRsp .data 1 fun incData => .ret (incData.headD 0)

def getWordFromVpi : Server Word :=
  .read .vpiToRsp .data 4 fun incData => .ret (wordOf incData)

/-- A block of this many words. -/
def getBlockDataFromVpi : Nat → Server (List Word)
  | 0 => .ret []
  | words + 1 => .read .vpiToRsp .blockWord 4 fun incData =>
      (getBlockDataFromVpi words).bind fun rest => .ret (wordOf incData :: rest)

def getResponseFromVpi : Server Unit :=
  .read .vpiToRsp .response 1 fun _ => .ret ()

/-- The scan chain selected last, and the one that should be selected. -/
structure Chains where
  currentChain : Word
  dbgChain : Word
  deriving DecidableEq

/-- The value `-1` of a chain that has not been selected. -/
def noChain : Word := -1

def dcWishbone : Word := 0

def dcCpu0 : Word := 1

def jiIdcode : Word := 2

def jiDebug : Word := 8

/-- Set the scan chain. -/
def dbgSetChain (chain : Word) (v : Chains) : Server Chains :=
  if v.currentChain = chain then return v
  else do
    sendCommandToVpi .setDebugChain
    sendDataToVpi .data chain
    getResponseFromVpi
    return ⟨chain, chain⟩

/-- Reset the interface and put it into debug mode; the identification is
printed. -/
def dbgReset (v : Chains) : Server (Word × Chains) := do
  sendCommandToVpi .reset
  getResponseFromVpi
  sendCommandToVpi .jtagSetIr
  sendDataToVpi .data jiIdcode
  getResponseFromVpi
  sendCommandToVpi .readJtagId
  let id ← getWordFromVpi
  getResponseFromVpi
  sendCommandToVpi .jtagSetIr
  sendDataToVpi .data jiDebug
  getResponseFromVpi
  return (id, { v with currentChain := noChain })

/-- Write the control register. -/
def dbgCtrl (reset stall : Word) (v : Chains) : Server Chains := do
  let v ← dbgSetChain v.dbgChain v
  sendCommandToVpi .cpuCtrlWr
  sendDataToVpi .data ((stall &&& 1) ||| ((reset &&& 1) <<< 1))
  getResponseFromVpi
  return v

/-- Read the control register: the reset and the stall bit. -/
def dbgCtrlRead (v : Chains) : Server ((Word × Word) × Chains) := do
  let v ← dbgSetChain v.dbgChain v
  let v ← dbgSetChain v.dbgChain v
  sendCommandToVpi .cpuCtrlRd
  let resp ← getWordFromVpi
  getResponseFromVpi
  return ((resp &&& 1, (resp >>> 1) &&& 1), v)

def dbgWbRead32 (adr : Word) (v : Chains) : Server (Word × Chains) := do
  let v ← dbgSetChain dcWishbone v
  sendCommandToVpi .wbRd32
  sendDataToVpi .address adr
  let data ← getWordFromVpi
  getResponseFromVpi
  return (data, v)

def dbgWbRead8 (adr : Word) (v : Chains) : Server (Byte × Chains) := do
  let v ← dbgSetChain dcWishbone v
  sendCommandToVpi .wbRd8
  sendDataToVpi .address adr
  let data ← getByteFromVpi
  getResponseFromVpi
  return (data, v)

/-- The writes of a word, a half word and a byte: the address, the size and the
data. -/
def dbgWbWrite (size : Word) (adr data : Word) (v : Chains) : Server Chains := do
  let v ← dbgSetChain dcWishbone v
  sendCommandToVpi .wbWr
  sendDataToVpi .address adr
  sendDataToVpi .length size
  sendDataToVpi .data data
  getResponseFromVpi
  return v

def dbgWbWrite32 (adr data : Word) : Chains → Server Chains := dbgWbWrite 4 adr data

def dbgWbWrite16 (adr : Word) (data : BitVec 16) : Chains → Server Chains :=
  dbgWbWrite 2 adr (data.setWidth 32)

def dbgWbWrite8 (adr : Word) (data : Byte) : Chains → Server Chains :=
  dbgWbWrite 1 adr (data.setWidth 32)

/-- Read a block on a chain: the address, the length in bytes and the words. -/
def readBlock (chain : Word) (cmd : Command) (adr : Word) (len : Nat) (v : Chains) :
    Server (List Word × Chains) := do
  let v ← dbgSetChain chain v
  sendCommandToVpi cmd
  sendDataToVpi .address adr
  sendDataToVpi .length (BitVec.ofNat 32 len)
  let data ← getBlockDataFromVpi (len / 4)
  getResponseFromVpi
  return (data, v)

/-- Write a block on a chain. -/
def writeBlock (chain : Word) (cmd : Command) (adr : Word) (data : List Word) (v : Chains) :
    Server Chains := do
  let v ← dbgSetChain chain v
  sendCommandToVpi cmd
  sendDataToVpi .address adr
  sendDataToVpi .length (BitVec.ofNat 32 (4 * data.length))
  sendBlockDataToVpi data
  getResponseFromVpi
  return v

def dbgWbReadBlock32 : Word → Nat → Chains → Server (List Word × Chains) :=
  readBlock dcWishbone .wbBlockRd32

def dbgWbWriteBlock32 : Word → List Word → Chains → Server Chains :=
  writeBlock dcWishbone .wbBlockWr32

/-- Read registers of the processor. -/
def dbgCpu0Read : Word → Nat → Chains → Server (List Word × Chains) := readBlock dcCpu0 .cpuRdReg

def dbgCpu0Write : Word → List Word → Chains → Server Chains := writeBlock dcCpu0 .cpuWrReg

def dbgCpu0WriteCtrl (data : Byte) (v : Chains) : Server Chains := do
  let v ← dbgSetChain dcCpu0 v
  dbgCtrl ((data &&& 2).setWidth 32) ((data &&& 1).setWidth 32) v

def dbgCpu0ReadCtrl (v : Chains) : Server (Byte × Chains) := do
  let v ← dbgSetChain dcCpu0 v
  let ((r, s), v) ← dbgCtrlRead v
  return (((r <<< 1) ||| s).setWidth 8, v)

/-- A call of one of the functions. -/
inductive Call where
  | reset
  | setChain (chain : Word)
  | ctrl (reset stall : Word)
  | ctrlRead
  | wbRead32 (adr : Word)
  | wbRead8 (adr : Word)
  | wbWrite32 (adr data : Word)
  | wbWrite16 (adr : Word) (data : BitVec 16)
  | wbWrite8 (adr : Word) (data : Byte)
  | wbReadBlock32 (adr : Word) (len : Nat)
  | wbWriteBlock32 (adr : Word) (data : List Word)
  | cpu0Read (adr : Word) (length : Nat)
  | cpu0Write (adr : Word) (data : List Word)
  | cpu0WriteCtrl (data : Byte)
  | cpu0ReadCtrl

/-- What a call gives its caller. -/
inductive Result where
  | none
  | word (data : Word)
  | byte (data : Byte)
  | words (data : List Word)
  | ctrl (reset stall : Word)
  deriving DecidableEq

def Call.program (v : Chains) : Call → Server (Result × Chains)
  | .reset => do
      let (id, v) ← dbgReset v
      return (.word id, v)
  | .setChain chain => do
      let v ← dbgSetChain chain v
      return (.none, v)
  | .ctrl r s => do
      let v ← dbgCtrl r s v
      return (.none, v)
  | .ctrlRead => do
      let ((r, s), v) ← dbgCtrlRead v
      return (.ctrl r s, v)
  | .wbRead32 adr => do
      let (data, v) ← dbgWbRead32 adr v
      return (.word data, v)
  | .wbRead8 adr => do
      let (data, v) ← dbgWbRead8 adr v
      return (.byte data, v)
  | .wbWrite32 adr data => do
      let v ← dbgWbWrite32 adr data v
      return (.none, v)
  | .wbWrite16 adr data => do
      let v ← dbgWbWrite16 adr data v
      return (.none, v)
  | .wbWrite8 adr data => do
      let v ← dbgWbWrite8 adr data v
      return (.none, v)
  | .wbReadBlock32 adr len => do
      let (data, v) ← dbgWbReadBlock32 adr len v
      return (.words data, v)
  | .wbWriteBlock32 adr data => do
      let v ← dbgWbWriteBlock32 adr data v
      return (.none, v)
  | .cpu0Read adr length => do
      let (data, v) ← dbgCpu0Read adr length v
      return (.words data, v)
  | .cpu0Write adr data => do
      let v ← dbgCpu0Write adr data v
      return (.none, v)
  | .cpu0WriteCtrl data => do
      let v ← dbgCpu0WriteCtrl data v
      return (.none, v)
  | .cpu0ReadCtrl => do
      let (data, v) ← dbgCpu0ReadCtrl v
      return (.byte data, v)

/-- A length of a block: a positive number of words that fit into the storage of
the simulator. -/
def BlockLength (len : Nat) : Prop := 0 < len ∧ len % 4 = 0 ∧ len ≤ 16384

instance (len : Nat) : Decidable (BlockLength len) := inferInstanceAs (Decidable (_ ∧ _))

/-- The lengths of a call are lengths of blocks. -/
def Call.Valid : Call → Prop
  | .wbReadBlock32 _ len => BlockLength len
  | .wbWriteBlock32 _ data => BlockLength (4 * data.length)
  | .cpu0Read _ length => BlockLength length
  | .cpu0Write _ data => BlockLength (4 * data.length)
  | _ => True

/-! ## The simulator's side -/

/-- The words of the array `data_storage`. -/
abbrev Storage := Fin 4096 → Word

instance storage_neZero : NeZero 4096 := ⟨by decide⟩

/-- The word of the storage at an index. -/
def slot (index : Nat) : Fin 4096 := Fin.ofNat 4096 index

/-- The hardware behind the debug interface, together with `data_storage`. -/
abbrev Machine (σ : Type) := σ × Storage

/-- The tasks of the debug module that shift something through the interface. -/
structure Tasks (σ : Type) where
  resetTap : Machine σ → Machine σ
  setInstruction : Word → Machine σ → Machine σ
  moduleSelect : Word → Machine σ → Machine σ
  debugCpuWrCtrl : BitVec 2 → Machine σ → Machine σ
  debugCpuRdCtrl : Machine σ → BitVec 2 × Machine σ
  cpuWriteBlock : Word → Word → Machine σ → Machine σ
  cpuWrite32 : Word → Word → Machine σ → Machine σ
  cpuReadBlock : Word → Word → Machine σ → Machine σ
  cpuRead32 : Word → Machine σ → Machine σ
  wbWrite32 : Word → Word → Machine σ → Machine σ
  wbWrite16 : BitVec 16 → Word → Machine σ → Machine σ
  wbWrite8 : Byte → Word → Machine σ → Machine σ
  wbRead32 : Word → Machine σ → Word × Machine σ
  wbRead8 : Word → Machine σ → Word × Machine σ
  wbBlockWrite32 : Word → Word → Machine σ → Machine σ
  wbBlockRead32 : Word → Word → Machine σ → Machine σ
  readIdCode : Machine σ → Word × Machine σ

/-- The simulator between two commands: the machine and the chain it was last
asked to select, which a reset of the interface takes back. -/
structure Sim (σ : Type) where
  machine : Machine σ
  selected : Option Word

variable {σ : Type}

/-- A program of the simulator. -/
abbrev Simulator (α : Type) := Proc Down Up Kind Byte α

/-- `$get_command_address` and `$get_command_data`, for an item of this kind. -/
def getCommandData (kind : Kind) : Simulator Word :=
  .read .rspToVpi kind 4 fun recvBuf => .ret (wordOf recvBuf)

/-- The words of a block, one by one into the storage. -/
def loadWords : Nat → Nat → Storage → Simulator Storage
  | 0, _, storage => .ret storage
  | words + 1, loadedWords, storage =>
      .read .rspToVpi .blockWord 4 fun recvBuf =>
        loadWords words (loadedWords + 1)
          (Function.update storage (slot loadedWords) (wordOf recvBuf))

/-- `$get_command_block_data`; a block that does not fit is not read. -/
def getCommandBlockData (length : Word) (storage : Storage) : Simulator Storage :=
  if 4096 < length.toNat / 4 then .ret storage else loadWords (length.toNat / 4) 0 storage

/-- `$return_command_data`: the first bytes of a value. -/
def returnCommandData (length : Nat) (data : Word) : Simulator Unit :=
  .write .vpiToRsp ⟨.data, (wordBytes data).take length⟩ (.ret ())

def sendWords : List Word → Simulator Unit
  | [] => .ret ()
  | data :: rest => .write .vpiToRsp ⟨.blockWord, wordBytes data⟩ (sendWords rest)

/-- The first words of the storage. -/
def firstWords (storage : Storage) (words : Nat) : List Word :=
  (List.range words).map fun i => storage (slot i)

/-- `$return_command_block_data`. -/
def returnCommandBlockData (length : Word) (storage : Storage) : Simulator Unit :=
  sendWords (firstWords storage (length.toNat / 4))

/-- The case of a command in `main`. -/
def serve (T : Tasks σ) (s : Sim σ) : Command → Simulator (Sim σ)
  | .reset => return ⟨T.resetTap s.machine, none⟩
  | .jtagSetIr => do
      let jtagInstnVal ← getCommandData .data
      return { s with machine := T.setInstruction jtagInstnVal s.machine }
  | .setDebugChain => do
      let setChainVal ← getCommandData .data
      return ⟨T.moduleSelect setChainVal s.machine, some setChainVal⟩
  | .cpuCtrlWr => do
      let cpuCtrlVal ← getCommandData .data
      return { s with machine := T.debugCpuWrCtrl (cpuCtrlVal.setWidth 2) s.machine }
  | .cpuCtrlRd => do
      let (cpuCtrlVal, machine) := T.debugCpuRdCtrl s.machine
      returnCommandData 4 (cpuCtrlVal.setWidth 32)
      return { s with machine := machine }
  | .cpuWrReg => do
      let cmdAdr ← getCommandData .address
      let blockCmdLength ← getCommandData .length
      let storage ← getCommandBlockData blockCmdLength s.machine.2
      if 4 < blockCmdLength.toInt then
        return { s with machine := T.cpuWriteBlock cmdAdr blockCmdLength (s.machine.1, storage) }
      else
        return { s with machine := T.cpuWrite32 (storage (slot 0)) cmdAdr (s.machine.1, storage) }
  | .cpuRdReg => do
      let cmdAdr ← getCommandData .address
      let blockCmdLength ← getCommandData .length
      let machine :=
        if 4 < blockCmdLength.toInt then T.cpuReadBlock cmdAdr blockCmdLength s.machine
        else T.cpuRead32 cmdAdr s.machine
      returnCommandBlockData blockCmdLength machine.2
      return { s with machine := machine }
  | .wbWr => do
      let cmdAdr ← getCommandData .address
      let cmdSize ← getCommandData .length
      let cmdData ← getCommandData .data
      if cmdSize = 4 then
        return { s with machine := T.wbWrite32 cmdData cmdAdr s.machine }
      else if cmdSize = 2 then
        return { s with machine := T.wbWrite16 (cmdData.setWidth 16) cmdAdr s.machine }
      else if cmdSize = 1 then
        return { s with machine := T.wbWrite8 (cmdData.setWidth 8) cmdAdr s.machine }
      else return s
  | .wbRd32 => do
      let cmdAdr ← getCommandData .address
      let (cmdData, machine) := T.wbRead32 cmdAdr s.machine
      returnCommandData 4 cmdData
      return { s with machine := machine }
  | .wbRd8 => do
      let cmdAdr ← getCommandData .address
      let (cmdData, machine) := T.wbRead8 cmdAdr s.machine
      returnCommandData 1 cmdData
      return { s with machine := machine }
  | .wbBlockWr32 => do
      let cmdAdr ← getCommandData .address
      let blockCmdLength ← getCommandData .length
      let storage ← getCommandBlockData blockCmdLength s.machine.2
      return { s with machine := T.wbBlockWrite32 cmdAdr blockCmdLength (s.machine.1, storage) }
  | .wbBlockRd32 => do
      let cmdAdr ← getCommandData .address
      let blockCmdLength ← getCommandData .length
      let machine := T.wbBlockRead32 cmdAdr blockCmdLength s.machine
      returnCommandBlockData blockCmdLength machine.2
      return { s with machine := machine }
  | .readJtagId => do
      let (id, machine) := T.readIdCode s.machine
      returnCommandData 4 id
      return { s with machine := machine }
  | .gdbDetach => .halt

/-- `$return_response`, and back to the head of the loop. -/
def respond (s : Sim σ) : Simulator (Sim σ) := .write .vpiToRsp ⟨.response, [0]⟩ (.ret s)

/-- A round of `main`: wait for a command, return it to the server, execute it and
respond. -/
def main (T : Tasks σ) (s : Sim σ) : Simulator (Sim σ) :=
  .read .command .command 1 fun data =>
    .write .vpiToRsp ⟨.ack, data⟩
      (Proc.bind respond
        (match Command.decode (data.headD 0) with
        | some cmd => serve T s cmd
        | none => .halt))

end OrpsocCores.JpVpi
