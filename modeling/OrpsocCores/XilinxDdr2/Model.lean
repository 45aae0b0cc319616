import OrpsocCores.Foundation.ByteStore
import OrpsocCores.Foundation.Trace
import OrpsocCores.Wishbone.Bus

/-!
# The Wishbone interface of the DDR2 controller

`xilinx_ddr2_if.v`: five instances of `wb_to_userport`, each with a line of the memory
in a buffer, in front of the user ports of the memory controller.  A port keeps its line
until it is marked dirty; the marks come from the requests of all ports, compared with
the address of the line.

The memory controller is not part of the source.  It is modelled as what the interface
relies on: the commands of the ports are executed in the order of the cycles they are
given in, and read data comes back in order.  Which command of one cycle goes first, how
full the FIFOs are and when read data arrives is up to the environment.

Only ports 0 and 1 have a user port for both directions.  Port 2 has one that only reads and
one that only writes; the user ports of ports 3 and 4 only read, and the data of a write there
is connected to nothing, although the write is acknowledged.

The registers that nothing reads (`read_done`, `wb_bursting`, `wb_burst_addr`) and the
trace outputs are left out.
-/

set_option autoImplicit false

namespace OrpsocCores.XilinxDdr2

open Wishbone

abbrev Word := BitVec 32

abbrev Bus := Pins 32 32 4

/-- The parameters of the five ports: `BURST_ADDR_WIDTH`, in the range in which the part
selects of the source are legal, and whether `WB_BURSTING` is `"TRUE"`. -/
structure Params where
  width : Fin 5 → Nat
  wbBursting : Fin 5 → Bool
  positive : ∀ i, 0 < width i
  legal : ∀ i, width i ≤ 27

/-- `BURST_ADDR_ALIGN`. -/
def Params.align (p : Params) (i : Fin 5) : Nat := p.width i + 2

/-- The alignment at which the marks of a port compare addresses: that of the port,
except for port 4, which has the one of port 3. -/
def Params.dirtyAlign (p : Params) (i : Fin 5) : Nat := p.align (if i = 4 then 3 else i)

/-- `adr[31:align]`. -/
def upper (align : Nat) (adr : BitVec 32) : Nat := adr.toNat / 2 ^ align

/-! ## A port -/

/-- The registers of `wb_to_userport`. -/
structure Userport (w : Nat) where
  burstDataBuf : BitVec w → Word
  burstAddr : Nat
  burstCnt : BitVec w
  bursting : Bool
  burstStart : Bool
  addrDirtyR : Bool
  wbAckRead : Bool
  wbReqR : Bool
  wbAckWrite : Bool

/-- The inputs of `wb_to_userport`. -/
structure PortPins where
  wbRst : Bool
  bus : Bus
  addrDirty : Bool
  cmdFull : Bool
  wrFull : Bool
  rdEmpty : Bool
  rdData : Word
  calibDone : Bool

/-- A command for the memory controller. -/
structure Command where
  read : Bool
  byteAddr : Nat
  bl : Nat

namespace Userport

variable {w : Nat}

/-- `wb_req`. -/
def wbReq (pins : PortPins) : Bool :=
  pins.bus.stb && pins.bus.cyc && pins.calibDone && !pins.cmdFull && (!pins.bus.we || !pins.wrFull)

/-- `wb_req_new`. -/
def wbReqNew (u : Userport w) (pins : PortPins) : Bool := wbReq pins && !u.wbReqR

/-- `wb_read_req`, for this value of `WB_BURSTING == "TRUE"`. -/
def wbReadReq (u : Userport w) (wbBursting : Bool) (pins : PortPins) : Bool :=
  wbReq pins && !pins.bus.we && (!u.wbAckRead || (pins.bus.cti == .incBurst && wbBursting))

/-- `addr_match`. -/
def addrMatch (u : Userport w) (bus : Bus) : Bool :=
  u.burstAddr == upper (w + 2) bus.adr && !u.addrDirtyR

/-- `wb_ack_o`. -/
def wbAckO (u : Userport w) : Bool := u.wbAckWrite || u.wbAckRead

/-- `wb_dat_o`. -/
def wbDatO (u : Userport w) (bus : Bus) : Word := u.burstDataBuf (BitVec.ofNat w (bus.adr.toNat / 4))

/-- `ddr2_px_wr_en`. -/
def wrEn (u : Userport w) (pins : PortPins) : Bool := if pins.bus.we then u.wbReqNew pins else false

/-- `ddr2_px_cmd_en` with the address, the instruction and the six bits of the length. -/
def command (u : Userport w) (bus : Bus) : Option Command :=
  if u.wbAckWrite || u.burstStart then
    some
      { read := !u.wbAckWrite
        byteAddr :=
          if u.wbAckWrite then bus.adr.toNat % 2 ^ 30 / 4 * 4
          else bus.adr.toNat % 2 ^ 30 / 2 ^ (w + 2) * 2 ^ (w + 2)
        bl := if u.wbAckWrite then 0 else (2 ^ w - 1) % 64 }
  else none

/-- Read data from the memory into the buffer. -/
def refill (u : Userport w) (pins : PortPins) : Userport w :=
  if pins.wbRst then { u with burstCnt := 0, bursting := false, burstAddr := 0 }
  else if u.burstStart && !u.bursting then
    { u with burstCnt := 0, bursting := true, burstAddr := upper (w + 2) pins.bus.adr }
  else if !pins.rdEmpty then
    { u with
      burstDataBuf := Function.update u.burstDataBuf u.burstCnt pins.rdData
      burstCnt := u.burstCnt + 1
      bursting := u.bursting && u.burstCnt != BitVec.allOnes w }
  else u

section

variable {u : Userport w} {pins : PortPins} (running : pins.wbRst = false)

include running

theorem refill_of_start (starts : u.burstStart = true) (idle : u.bursting = false) :
    u.refill pins =
      { u with burstCnt := 0, bursting := true, burstAddr := upper (w + 2) pins.bus.adr } := by
  simp [refill, running, starts, idle]

theorem refill_of_word (silent : u.burstStart = false) (delivered : pins.rdEmpty = false) :
    u.refill pins =
      { u with
        burstDataBuf := Function.update u.burstDataBuf u.burstCnt pins.rdData
        burstCnt := u.burstCnt + 1
        bursting := u.bursting && u.burstCnt != BitVec.allOnes w } := by
  simp [refill, running, silent, delivered]

theorem refill_of_none (silent : u.burstStart = false) (nothing : pins.rdEmpty = true) :
    u.refill pins = u := by
  simp [refill, running, silent, nothing]

end

/-- The address is in the buffer, and the buffer is not being refilled. -/
def served (u : Userport w) (bus : Bus) : Bool := u.addrMatch bus && !u.bursting && !u.burstStart

/-- An edge of `wb_clk`. -/
def edge (u : Userport w) (wbBursting : Bool) (pins : PortPins) : Userport w :=
  { u.refill pins with
    wbReqR := wbReq pins && !u.wbAckO
    addrDirtyR := pins.wbRst || pins.addrDirty || (!u.burstStart && u.addrDirtyR)
    wbAckRead := u.wbReadReq wbBursting pins && u.served pins.bus
    burstStart :=
      u.wbReadReq wbBursting pins && !u.served pins.bus && (!u.bursting && !u.burstStart)
    wbAckWrite := u.wrEn pins }

end Userport

/-! ## The memory controller -/

/-- The memory, by the number of the word, and the FIFOs of the user ports.  A byte
whose mask bit is set is not written. -/
structure Mig where
  mem : Nat → Word
  wrFifo : Fin 5 → List (Word × BitVec 4)
  rdFifo : Fin 5 → List Word

namespace Mig

/-- A write command takes one word from the port's FIFO. -/
def write (m : Mig) (command : Fin 5 → Option Command) (mem : Nat → Word) (j : Fin 5) :
    Nat → Word :=
  match command j, m.wrFifo j with
  | some ⟨false, byteAddr, _⟩, (dat, mask) :: _ =>
      Function.update mem (byteAddr / 4) (merge (~~~mask) dat (mem (byteAddr / 4)))
  | _, _ => mem

/-- The memory after the commands of these ports. -/
def memAfter (m : Mig) (command : Fin 5 → Option Command) (ports : List (Fin 5)) : Nat → Word :=
  ports.foldl (m.write command) m.mem

/-- The words a read command asks for, as they are when its turn comes. -/
def fetched (m : Mig) (command : Fin 5 → Option Command) (order : List (Fin 5)) (i : Fin 5) :
    List Word :=
  match command i with
  | some ⟨true, byteAddr, bl⟩ =>
      (List.range (bl + 1)).map fun k =>
        m.memAfter command (order.takeWhile fun j => j ≠ i) (byteAddr / 4 + k)
  | _ => []

/-- The FIFO of a port without the word its write command takes. -/
def unwritten (m : Mig) (command : Fin 5 → Option Command) (j : Fin 5) :
    List (Word × BitVec 4) :=
  match command j with
  | some ⟨false, _, _⟩ => (m.wrFifo j).tail
  | _ => m.wrFifo j

/-- A cycle of `wb_clk`. -/
def step (m : Mig) (command : Fin 5 → Option Command) (pushed : Fin 5 → Option (Word × BitVec 4))
    (rdEmpty : Fin 5 → Bool) (order : List (Fin 5)) : Mig where
  mem := m.memAfter command order
  wrFifo j := m.unwritten command j ++ (pushed j).toList
  rdFifo i :=
    (if rdEmpty i then m.rdFifo i else (m.rdFifo i).tail) ++ m.fetched command order i

end Mig

/-! ## The user ports -/

/-- A port has a user port that takes write data. -/
def writable (i : Fin 5) : Bool := i.val < 3

/-- A command of a port gets to a user port of its direction.  The two user ports of port 2
are told apart by `wb2_we_i`. -/
def directed (i : Fin 5) (we read : Bool) : Bool :=
  if i.val < 2 then true else if i.val = 2 then read != we else read

theorem directed_write {i : Fin 5} (writes : writable i = true) : directed i true false = true := by
  revert i
  decide

/-! ## The whole -/

/-- The inputs of a cycle: those of the five Wishbone ports, the flags of the user ports,
and the order in which the memory controller executes the commands of this cycle.  The flag
`wrFull` of ports 3 and 4 is a wire that nothing drives. -/
structure Cycle where
  wbRst : Bool
  calibDone : Bool
  bus : Fin 5 → Bus
  cmdFull : Fin 5 → Bool
  wrFull : Fin 5 → Bool
  rdEmpty : Fin 5 → Bool
  order : List (Fin 5)

/-- `xilinx_ddr2_if` with the memory controller. -/
structure State (p : Params) where
  ports : ∀ i, Userport (p.width i)
  wbPxReqR : Fin 5 → Bool
  calibDoneR : BitVec 2
  mig : Mig

namespace State

variable {p : Params}

/-- `wb_px_req`. -/
def wbPxReq (s : State p) (e : Cycle) (i : Fin 5) : Bool :=
  (e.bus i).stb && (e.bus i).cyc && s.calibDoneR.getLsbD 0

/-- `wb_px_wr_req`. -/
def wbPxWrReq (s : State p) (e : Cycle) (i : Fin 5) : Bool :=
  s.wbPxReq e i && !s.wbPxReqR i && (e.bus i).we

/-- `px_cache_addr`. -/
def pxCacheAddr (s : State p) (i : Fin 5) : Nat := (s.ports i).burstAddr * 2 ^ p.align i

/-- `px_addr_dirty`. -/
def pxAddrDirty (s : State p) (e : Cycle) (i : Fin 5) : Bool :=
  (List.finRange 5).any fun j =>
    upper (p.dirtyAlign i) (e.bus j).adr == s.pxCacheAddr i / 2 ^ p.dirtyAlign i && s.wbPxWrReq e j

/-- The inputs of the instance of a port. -/
def pins (s : State p) (e : Cycle) (i : Fin 5) : PortPins where
  wbRst := e.wbRst
  bus := e.bus i
  addrDirty := s.pxAddrDirty e i
  cmdFull := e.cmdFull i
  wrFull := e.wrFull i
  rdEmpty := e.rdEmpty i
  rdData := (s.mig.rdFifo i).headD 0
  calibDone := e.calibDone

/-- The command of a port, if it gets to a user port that executes it. -/
def command (s : State p) (e : Cycle) (i : Fin 5) : Option Command :=
  ((s.ports i).command (e.bus i)).filter fun c => directed i (e.bus i).we c.read

/-- `ddr2_px_wr_en` of a port. -/
def wrEn (s : State p) (e : Cycle) (i : Fin 5) : Bool := (s.ports i).wrEn (s.pins e i)

/-- The data and the mask a port pushes. -/
def pushed (s : State p) (e : Cycle) (i : Fin 5) : Option (Word × BitVec 4) :=
  if writable i && s.wrEn e i then some ((e.bus i).dat, ~~~(e.bus i).sel) else none

/-- `wb_ack_o` of a port. -/
def wbAckO (s : State p) (i : Fin 5) : Bool := (s.ports i).wbAckO

/-- `wb_dat_o` of a port. -/
def wbDatO (s : State p) (e : Cycle) (i : Fin 5) : Word := (s.ports i).wbDatO (e.bus i)

/-- An edge of `wb_clk`. -/
def step (s : State p) (e : Cycle) : State p where
  ports i := (s.ports i).edge (p.wbBursting i) (s.pins e i)
  wbPxReqR i := s.wbPxReq e i && !s.wbAckO i
  calibDoneR := BitVec.ofBool e.calibDone ++ s.calibDoneR.extractLsb' 1 1
  mig := s.mig.step (s.command e) (s.pushed e) e.rdEmpty e.order

end State

/-- After a reset without requests; the buffers and the memory are arbitrary. -/
structure Settled {p : Params} (s : State p) : Prop where
  clear : ∀ i, (s.ports i).bursting = false ∧ (s.ports i).burstStart = false ∧
    (s.ports i).wbAckRead = false ∧ (s.ports i).wbAckWrite = false
  dirty : ∀ i, (s.ports i).addrDirtyR = true
  empty : ∀ i, s.mig.wrFifo i = [] ∧ s.mig.rdFifo i = []

end OrpsocCores.XilinxDdr2
