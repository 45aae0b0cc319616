import OrpsocCores.Gdb.RspServer

/-!
# The requests of the client

The handlers of `rsp_client_request`, one for each first character of a packet.
A packet is the buffer that `get_packet` returns: the characters up to the
terminator are what `sscanf` and the string comparisons see, but the cells
behind it hold what earlier packets left there, and the memory requests search
the whole array for the colon in front of the data.
-/

set_option autoImplicit false

namespace OrpsocCores.Gdb

open Scanf

/-- The characters in front of the terminator. -/
def RspBuf.cText (buf : RspBuf) : List Byte := cString buf.data.toList

/-- The array, from its first cell on. -/
def RspBuf.chars (buf : RspBuf) : Chars := fun i => buf.data.toList.getD i 0

/-- `strncmp` with the length of the constant. -/
def RspBuf.startsWith (buf : RspBuf) (text : String) : Bool := (str text).isPrefixOf buf.cText

theorem RspBuf.startsWith_iff (buf : RspBuf) (text : String) :
    buf.startsWith text = true ↔ str text <+: buf.cText := List.isPrefixOf_iff_prefix

/-- No text starts with two constants of which neither starts with the other. -/
theorem RspBuf.not_startsWith {buf : RspBuf} {text other : String}
    (starts : buf.startsWith text = true)
    (apart : ¬ (str text <+: str other ∨ str other <+: str text)) :
    buf.startsWith other = false := by
  rw [Bool.eq_false_iff, ne_eq, startsWith_iff]
  intro starts'
  exact apart (List.prefix_or_prefix_of_prefix ((startsWith_iff buf text).mp starts) starts')

/-- No constant is a text that starts with another one it does not start with. -/
theorem RspBuf.ne_of_startsWith {buf : RspBuf} {text other : String}
    (starts : buf.startsWith text = true) (apart : ¬ str text <+: str other) :
    buf.cText ≠ str other := by
  intro same
  rw [startsWith_iff, same] at starts
  exact apart starts

/-- The first colon of the array. -/
def RspBuf.colon (buf : RspBuf) : Option Nat := buf.data.toList.findIdx? (· = chr ':')

def literals (text : String) : List Directive := (str text).map .literal

/-- The format of the memory requests, as in `m%x,%x:`. -/
def memFormat (request : Char) : List Directive :=
  [.literal (chr request), .hexadecimal none, .literal (chr ','), .hexadecimal none,
    .literal (chr ':')]

/-- The format of the matchpoint requests, as in `Z%1d,%x,%1d`. -/
def matchpointFormat (request : Char) : List Directive :=
  [.literal (chr request), .decimal (some 1), .literal (chr ','), .hexadecimal none,
    .literal (chr ','), .decimal (some 1)]

def readRegFormat : List Directive := [.literal (chr 'p'), .hexadecimal none]

/-- The format `P%x=%8s`. -/
def writeRegFormat : List Directive :=
  [.literal (chr 'P'), .hexadecimal none, .literal (chr '='), .string 8]

/-- The format `readspr %4x`. -/
def readsprFormat : List Directive := literals "readspr" ++ [.space, .hexadecimal (some 4)]

/-- The format `writespr %4x %8x`. -/
def writesprFormat : List Directive :=
  literals "writespr" ++ [.space, .hexadecimal (some 4), .space, .hexadecimal (some 8)]

/-- The format of a resume request with an address, as in `c%x`. -/
def resumeFormat (request : Char) : List Directive := [.literal (chr request), .hexadecimal none]

/-- The register numbers of the client behind the general purpose registers. -/
def ppcRegnum : Nat := maxGprs
def npcRegnum : Nat := maxGprs + 1
def srRegnum : Nat := maxGprs + 2

/-- The number of special purpose registers, `MAX_SPRS`. -/
def maxSprs : Nat := 0x10000

/-! ## Blocks of memory -/

section Blocks

variable (host : Host)

/-- Read bytes until one cannot be read. -/
def readBytes (t : Target) (addr : BitVec 32) : Nat → Result (List Byte)
  | 0 => ⟨t, .errNone, []⟩
  | n + 1 =>
      let first := gdbReadByte host t addr
      if first.err ≠ .errNone then ⟨first.target, first.err, []⟩
      else
        let rest := readBytes first.target (addr + 1) n
        ⟨rest.target, rest.err, first.data :: rest.data⟩

/-- The number of bytes in front of the first word boundary, at most `n`. -/
def bytesToAlign (addr : BitVec 32) (n : Nat) : Nat :=
  if addr.toNat % 4 = 0 then 0 else min (4 - addr.toNat % 4) n

/-- The accesses of `rsp_read_mem`: bytes up to a word boundary, whole words,
bytes again.  The words arrive in the byte order of the host, the least
significant byte first. -/
def readMemory (t : Target) (addr : BitVec 32) (n : Nat) : Result (List Byte) :=
  let before := bytesToAlign addr n
  let head := readBytes host t addr before
  if head.err ≠ .errNone then head
  else
    let words := (n - before) / 4
    let addr := addr + BitVec.ofNat 32 before
    let block := if words = 0 then ⟨head.target, .errNone, fun _ => 0⟩
      else gdbReadWords host head.target addr
    if block.err ≠ .errNone then ⟨block.target, block.err, []⟩
    else
      let tail := readBytes host block.target (addr + BitVec.ofNat 32 (4 * words))
        ((n - before) % 4)
      ⟨tail.target, tail.err,
        head.data ++ (List.range words).flatMap (fun i => lanes (block.data i)) ++ tail.data⟩

/-- The loop of `rsp_write_mem`: every eighth digit completes a word. -/
def writeNibbles (t : Target) (addr val : BitVec 32) (nibc : Nat) : List Byte → Result Unit
  | [] => ⟨t, .errNone, ()⟩
  | ch :: rest =>
      let val := val ||| (0xf &&& BitVec.ofInt 32 (hex ch))
      if nibc % 8 = 7 then
        let written := gdbWriteWords host t addr (fun _ => val) 1
        if written.err ≠ .errNone then written
        else writeNibbles written.target (addr + 4) 0 (nibc + 1) rest
      else writeNibbles t addr (val <<< 4) (nibc + 1) rest

/-- Write bytes; the code is that of the last one. -/
def writeBytes (t : Target) (addr : BitVec 32) (data : Chars) (n : Nat) : Result Unit :=
  (List.range n).foldl
    (fun written i => gdbWriteByte host written.target (addr + BitVec.ofNat 32 i) (data i))
    ⟨t, .errNone, ()⟩

/-- The word that four bytes are on the host. -/
def hostWord (data : Chars) (i : Nat) : BitVec 32 :=
  data (4 * i + 3) ++ data (4 * i + 2) ++ data (4 * i + 1) ++ data (4 * i)

/-- The accesses of `rsp_write_mem_bin`. -/
def writeMemory (t : Target) (addr : BitVec 32) (data : Chars) (n : Nat) : Result Unit :=
  let before := bytesToAlign addr n
  let head := writeBytes host t addr data before
  let addr := addr + BitVec.ofNat 32 before
  let words := (n - before) / 4
  let block :=
    if 3 < n - before ∧ head.err = .errNone then
      gdbWriteWords host head.target addr (hostWord fun i => data (before + i)) words
    else head
  if (n - before) % 4 ≠ 0 ∧ block.err = .errNone then
    writeBytes host block.target (addr + BitVec.ofNat 32 (4 * words))
      (fun i => data (before + 4 * words + i)) ((n - before) % 4)
  else block

end Blocks

/-- Turn four bytes around. -/
def swapWord (data : Chars) (n : Nat) : Chars := fun i =>
  if i = n then data (n + 3)
  else if i = n + 3 then data n
  else if i = n + 1 then data (n + 2)
  else if i = n + 2 then data (n + 1)
  else data i

/-- `swap_buf`. -/
def swapBuf (data : Chars) (len : Nat) : Chars :=
  if 2 < len then
    (List.range ((len + 3) / 4)).foldl (fun data k => swapWord data (4 * k)) data
  else data

namespace RspServer

section Handlers

variable (host : Host) (s : RspServer) (buf : RspBuf)

/-! ## Registers -/

/-- `rsp_read_all_regs`.  The registers are written into the buffer out of order,
each with a terminator. -/
def rspReadAllRegs : RspServer :=
  let gprs := gdbReadRegs host s.target gprCpuRegAdd
  let gprRegs := fun i => if i < maxGprs then gprs.data i else s.gprRegs i
  let pcsAndSr := gdbReadRegs host gprs.target npcCpuRegAdd
  let buffer := (List.range maxGprs).foldl
    (fun buffer r => storeString buffer (r * 8) (reg2hex (gprRegs r))) host.uninit
  let buffer := storeString buffer (npcRegnum * 8) (reg2hex (pcsAndSr.data 0))
  let buffer := storeString buffer (srRegnum * 8) (reg2hex (pcsAndSr.data 1))
  let buffer := storeString buffer (ppcRegnum * 8) (reg2hex (pcsAndSr.data 2))
  { s with target := pcsAndSr.target, gprRegs := gprRegs }.put
    ((List.range (numRegs * 8)).map buffer)

/-- The register with this number in a `G` packet. -/
def packetReg (buf : RspBuf) (regnum : Nat) : BitVec 32 :=
  hex2reg fun n => buf.chars (regnum * 8 + 1 + n)

/-- The number of bytes that `rsp_write_all_regs` writes from `gpr_regs`, in
words. -/
def gprBlockWords : Nat := maxGprs * 32 / 4

/-- `rsp_write_all_regs`. -/
def rspWriteAllRegs : RspServer :=
  let gprRegs := fun i => if i < maxGprs then packetReg buf i else s.gprRegs i
  let gprs := gdbWriteRegs host s.target gprCpuRegAdd gprRegs gprBlockWords
  let s := { s with target := gprs.target, gprRegs := gprRegs }.touch
    ((List.range gprBlockWords).map .gprWord)
  let pcsAndSr := fun i => if i = 0 then packetReg buf srRegnum else packetReg buf ppcRegnum
  let s : RspServer :=
    { s with target := (gdbWriteRegs host s.target srCpuRegAdd pcsAndSr 2).target }
  (s.setNpc host (packetReg buf npcRegnum)).put (str "OK")

/-- A register that the processor has under this address. -/
def readCpuReg (adr : BitVec 32) : RspServer :=
  let reg := gdbReadReg host s.target adr
  let s : RspServer := { s with target := reg.target }
  if 0 < reg.err.code then s.put (str "E01") else s.put (reg2hex reg.data)

/-- `rsp_read_reg`. -/
def rspReadReg : RspServer :=
  match one (sscanf readRegFormat buf.cText) with
  | some regnum =>
      if regnum.toNat < maxGprs then s.readCpuReg host (gprCpuRegAdd + regnum)
      else if regnum.toNat = ppcRegnum then s.readCpuReg host ppcCpuRegAdd
      else if regnum.toNat = npcRegnum then
        let npc := s.getNpc host
        npc.1.put (reg2hex npc.2)
      else if regnum.toNat = srRegnum then s.readCpuReg host srCpuRegAdd
      else s.put (str "E01")
  | none => s.put (str "E01")

/-- Write a register that the processor has under this address. -/
def writeCpuReg (adr val : BitVec 32) : RspServer :=
  let reg := gdbWriteReg host s.target adr val
  let s : RspServer := { s with target := reg.target }
  if 0 < reg.err.code then s.put (str "E01") else s.put (str "OK")

/-- `rsp_write_reg`.  Behind a value with fewer than eight digits `hex2reg` reads
its terminator and what the array held before. -/
def rspWriteReg : RspServer :=
  match numberAndWord (sscanf writeRegFormat buf.cText) with
  | some (regnum, valstr) =>
      let val := hex2reg (storeString host.uninit 0 valstr)
      if regnum.toNat < maxGprs then s.writeCpuReg host (gprCpuRegAdd + regnum) val
      else if regnum.toNat = ppcRegnum then s.writeCpuReg host ppcCpuRegAdd val
      else if regnum.toNat = npcRegnum then (s.setNpc host val).put (str "OK")
      else if regnum.toNat = srRegnum then s.writeCpuReg host srCpuRegAdd val
      else s.put (str "E01")
  | none => s.put (str "E01")

/-! ## Memory -/

/-- The number of bytes that `rsp_read_mem` takes a request to be for. -/
def readLength (len : BitVec 32) : Int :=
  if 2 * (gdbBufMax : Int) ≤ (len * 2).toInt then ((gdbBufMax - 1) / 2 : Nat) else len.toInt

/-- The digits of this many bytes can be written behind the start of the packet
buffer, with their terminator, and into the array of `put_packet`, with the start
character, the end character and the checksum. -/
def ReplyFits (host : Host) (len : Nat) : Prop :=
  2 * len + 1 ≤ host.room ∧ 2 * len + 4 ≤ 2 * gdbBufMax

instance (host : Host) (len : Nat) : Decidable (ReplyFits host len) :=
  inferInstanceAs (Decidable (_ ∧ _))

/-- `rsp_read_mem`. -/
def rspReadMem : RspServer :=
  match two (sscanf (memFormat 'm') buf.cText) with
  | some (addr, len) =>
      let len := readLength len
      if host.mallocs len then
        let read := readMemory host s.target addr len.toNat
        let s : RspServer := { s with target := read.target }
        if read.err ≠ .errNone then s.put (str "E01")
        else if ReplyFits host len.toNat then s.put (ascii2hex read.data)
        else s.crash
      else s.put (str "E01")
  | none => s.put (str "E01")

/-- Where `rsp_write_mem` takes the data to be, counted from the packet buffer.
Without a colon `memchr` returns `NULL`, and the data is one cell behind that. -/
def symdat : Int :=
  match buf.colon with
  | some i => i + 1
  | none => 1 - host.bufAddress

/-- The number of digits `rsp_write_mem` takes the data to have. -/
def datlen : Int := (BitVec.ofInt 32 (buf.len - symdat host buf)).toInt

/-- `rsp_write_mem`. -/
def rspWriteMem : RspServer :=
  match two (sscanf (memFormat 'M') buf.cText) with
  | some (addr, len) =>
      if (len * 2).toInt ≠ datlen host buf then s.put (str "E01")
      else if buf.colon = none ∧ 0 < datlen host buf then s.crash
      else
        let written := writeNibbles host s.target addr 0 0
          ((buf.data.toList.drop (symdat host buf).toNat).take (datlen host buf).toNat)
        let s : RspServer := { s with target := written.target }
        if written.err ≠ .errNone then s.put (str "E01") else s.put (str "OK")
  | none => s.put (str "E01")

/-- `rsp_write_mem_bin`. -/
def rspWriteMemBin : RspServer :=
  match two (sscanf (memFormat 'X') buf.cText) with
  | some (addr, len) =>
      match buf.colon with
      | none => s.put (str "E01")
      | some i =>
          let off := i + 1
          if gdbBufMax ≤ off then s.put (str "E01")
          else
            match rspUnescape (buf.data.drop off) (buf.len - off) with
            | .error _ => s.crash
            | .ok (data, newlen) =>
                let len : Int := min len.toInt newlen
                if len = 0 then s.put (str "OK")
                else
                  let bindat := swapBuf (fun i => data.toList.getD i (host.uninit i)) len.toNat
                  let written := writeMemory host s.target addr bindat len.toNat
                  let s : RspServer := { s with target := written.target }
                  if written.err ≠ .errNone then s.put (str "E01") else s.put (str "OK")
  | none => s.put (str "E01")

/-! ## Special purpose registers -/

/-- The register belongs to the debug group. -/
def inDebugGroup (regno : BitVec 32) : Bool := (regno >>> 11) &&& 0xff = 6

/-- The word of the cached debug registers that stands for a register. -/
def cacheWord (regno : BitVec 32) : Nat := (regno &&& 0xff).toNat

/-- The `readspr` branch of `rsp_command`, for a register number in range. -/
def readspr (regno : BitVec 32) : RspServer :=
  let reply (s : RspServer) (val : BitVec 32) := s.put (ascii2hex (sprintf8x val))
  if regno = npcCpuRegAdd then
    let npc := s.getNpc host
    reply npc.1 npc.2
  else if inDebugGroup regno then
    let s := (s.getDebugRegisters host).touch [.cacheWord (cacheWord regno)]
    reply { s with dbgRegsCacheDirty := 0 } (s.dbgRegs (cacheWord regno))
  else
    let reg := gdbReadReg host s.target regno
    reply { s with target := reg.target } reg.data

/-- The `writespr` branch of `rsp_command`, for a register number in range. -/
def writespr (regno val : BitVec 32) : RspServer :=
  if regno = npcCpuRegAdd then (s.setNpc host val).put (str "OK")
  else if inDebugGroup regno then
    let s := (s.getDebugRegisters host).touch [.cacheWord (cacheWord regno)]
    { s with
      dbgRegs := Function.update s.dbgRegs (cacheWord regno) val
      dbgRegsCacheDirty := 1 }.put (str "OK")
  else s.writeCpuReg host regno val

/-- The command of a `qRcmd` request. -/
def command (buf : RspBuf) : List Byte := cString (hex2ascii (buf.cText.drop 6))

/-- `rsp_command`. -/
def rspCommand : RspServer :=
  let cmd := command buf
  if (str "readspr").isPrefixOf cmd then
    match one (sscanf readsprFormat cmd) with
    | some regno =>
        if maxSprs < regno.toNat then s.put (str "E01") else s.readspr host regno
    | none => s.put (str "E01")
  else if (str "writespr").isPrefixOf cmd then
    match two (sscanf writesprFormat cmd) with
    | some (regno, val) =>
        if maxSprs < regno.toNat then s.put (str "E01") else s.writespr host regno val
    | none => s.put (str "E01")
  else s

/-! ## Queries -/

/-- `rsp_query`. -/
def rspQuery : RspServer :=
  if buf.cText = str "qAttached" then s.put (str "1")
  else if buf.cText = str "qC" then s.put []
  else if buf.startsWith "qCRC" then s.put (str "E01")
  else if buf.cText = str "qfThreadInfo" then s.put (str "m-1")
  else if buf.cText = str "qsThreadInfo" then s.put (str "l")
  else if buf.startsWith "qGetTLSAddr:" then s.put []
  else if buf.startsWith "qL" then s.put (str "qM001")
  else if buf.cText = str "qOffsets" then s.put (str "Text=0;Data=0;Bss=0")
  else if buf.startsWith "qP" then s.put []
  else if buf.startsWith "qRcmd," then s.rspCommand host buf
  else if buf.startsWith "qSupported" then (s.setupOr32 host).put (str "PacketSize=119")
  else if buf.startsWith "qSymbol:" then s.put (str "OK")
  else if buf.startsWith "qThreadExtraInfo," then s.put (str "52756e6e61626c6500")
  else if buf.startsWith "qTStatus" then s.put []
  else if buf.startsWith "qXfer:" then s.put []
  else s

/-- `rsp_set`. -/
def rspSet : RspServer :=
  if buf.startsWith "QPassSignals:" then s.put []
  else if buf.startsWith "QTDP" ∨ buf.startsWith "QFrame" ∨ buf.cText = str "QTStart" ∨
      buf.cText = str "QTStop" ∨ buf.cText = str "QTinit" ∨ buf.startsWith "QTro" then
    s.put []
  else s

/-- The branch for commands is reached by every request that starts like one. -/
theorem rspQuery_command {host : Host} {s : RspServer} {buf : RspBuf}
    (starts : buf.startsWith "qRcmd," = true) : s.rspQuery host buf = s.rspCommand host buf := by
  have ne {other : String} (apart : ¬ str "qRcmd," <+: str other) :=
    RspBuf.ne_of_startsWith starts apart
  have not {other : String} (apart : ¬ (str "qRcmd," <+: str other ∨ str other <+: str "qRcmd,")) :=
    RspBuf.not_startsWith starts apart
  rw [rspQuery, if_neg (ne (by decide)), if_neg (ne (by decide)), not (by decide),
    if_neg (ne (by decide)), if_neg (ne (by decide)), not (by decide), not (by decide),
    if_neg (ne (by decide)), not (by decide), starts]
  rfl

/-- The branch that sets up the processor is reached by every request that starts
like one. -/
theorem rspQuery_supported {host : Host} {s : RspServer} {buf : RspBuf}
    (starts : buf.startsWith "qSupported" = true) :
    s.rspQuery host buf = (s.setupOr32 host).put (str "PacketSize=119") := by
  have ne {other : String} (apart : ¬ str "qSupported" <+: str other) :=
    RspBuf.ne_of_startsWith starts apart
  have not {other : String}
      (apart : ¬ (str "qSupported" <+: str other ∨ str other <+: str "qSupported")) :=
    RspBuf.not_startsWith starts apart
  rw [rspQuery, if_neg (ne (by decide)), if_neg (ne (by decide)), not (by decide),
    if_neg (ne (by decide)), if_neg (ne (by decide)), not (by decide), not (by decide),
    if_neg (ne (by decide)), not (by decide), not (by decide), starts]
  rfl

/-! ## Running -/

/-- The address a `c` or `s` request resumes from. -/
def resumeAddr (request : Char) : RspServer × BitVec 32 :=
  if buf.cText = [chr request] then s.getNpc host
  else
    match one (sscanf (resumeFormat request) buf.cText) with
    | some addr => (s, addr)
    | none => s.getNpc host

/-- `rsp_continue`. -/
def rspContinue : RspServer :=
  let resume := s.resumeAddr host buf 'c'
  resume.1.rspContinueGeneric host resume.2

/-- `rsp_step`. -/
def rspStep : RspServer :=
  let resume := s.resumeAddr host buf 's'
  resume.1.rspStepGeneric host resume.2

/-- `rsp_restart`. -/
def rspRestart : RspServer := s.setNpc host s.startAddr

/-- `rsp_vpkt`. -/
def rspVpkt : RspServer :=
  if buf.startsWith "vAttach;" then s.put (str "S05")
  else if buf.cText = str "vCont?" then s.put []
  else if buf.startsWith "vCont" then s
  else if buf.startsWith "vFile:" then s.put []
  else if buf.startsWith "vFlashErase:" then s.put (str "E01")
  else if buf.startsWith "vFlashWrite:" then s.put (str "E01")
  else if buf.cText = str "vFlashDone" then s.put (str "E01")
  else if buf.startsWith "vRun;" then (s.rspRestart host).put (str "S05")
  else s.put (str "E01")

end Handlers

end RspServer

end OrpsocCores.Gdb
