import OrpsocCores.WbIntercon.Config
import OrpsocCores.WbIntercon.Ident

/-!
# The module that the generator writes

`VerilogWriter` collects module ports, wires and instances; every `_gen` method adds
some of each.  Here each method returns what it adds, and `write` puts the parts
together in the order of the source.  A connection is the list of the identifiers in
its braces, a bare identifier a list of one.  The texts of the concatenations go through
`str.format` in the source and are those of these identifiers for names without braces.
The template file, which only instantiates the module, and the values of `MATCH_ADDR` and
`MATCH_MASK` are left out.

The headers of the five cores give the pins their widths.
-/

set_option autoImplicit false

namespace OrpsocCores.WbIntercon

/-! ## Cores and their headers -/

/-- A pin of a core. -/
inductive Pin where
  | clk
  | rst
  | wbm (p : WbSignal) (dir : PinDirection)
  | wbs (p : WbSignal) (dir : PinDirection)
  | wb (p : WbSignal) (dir : PinDirection)
  | av (side : AvSide) (p : AvSignal) (dir : PinDirection)
  deriving DecidableEq, Repr

/-- The suffix of a pin is its direction in every header. -/
def Pin.direction : Pin → PinDirection
  | clk => .input
  | rst => .input
  | wbm _ dir => dir
  | wbs _ dir => dir
  | wb _ dir => dir
  | av _ _ dir => dir

/-- A core with the parameters that decide the widths of its pins. -/
inductive Core where
  | wbMux (numSlaves : Nat)
  | wbArbiter (numMasters : Nat)
  | wbDataResize (sdw : Int)
  | avalonToWbBridge (dw : Int)
  | wbToAvalonBridge (dw : Int)
  deriving DecidableEq, Repr

/-- The number of bits of `[n-1:0]`. -/
def vector (n : Int) : Nat := (n - 1).natAbs + 1

/-- The bits of a Wishbone signal with the given widths of data and select. -/
def wbBits (dw sel : Int) : WbSignal → Int
  | .adr => 32
  | .dat => dw
  | .sel => sel
  | .cti => 3
  | .bte => 2
  | _ => 1

/-- The bits of an Avalon signal of a bridge. -/
def avBits (dw : Int) : AvSignal → Int
  | .address => 32
  | .byteenable => dw.tdiv 8
  | .burstcount => 8
  | .writedata => dw
  | .readdata => dw
  | _ => 1

/-- The pins of a core and their widths. -/
def Core.header : Core → List (Pin × Nat)
  | wbMux numSlaves => [(.clk, 1), (.rst, 1)] ++
      (wbMasterPorts.map fun p => (.wbm p .input, vector (wbBits 32 4 p))) ++
      (wbSlavePorts.map fun p => (.wbm p .output, vector (wbBits 32 4 p))) ++
      (wbMasterPorts.map fun p => (.wbs p .output, vector (numSlaves * wbBits 32 4 p))) ++
      wbSlavePorts.map fun p => (.wbs p .input, vector (numSlaves * wbBits 32 4 p))
  | wbArbiter numMasters => [(.clk, 1), (.rst, 1)] ++
      (wbMasterPorts.map fun p => (.wbm p .input, vector (numMasters * wbBits 32 4 p))) ++
      (wbSlavePorts.map fun p => (.wbm p .output, vector (numMasters * wbBits 32 4 p))) ++
      (wbMasterPorts.map fun p => (.wbs p .output, vector (wbBits 32 4 p))) ++
      wbSlavePorts.map fun p => (.wbs p .input, vector (wbBits 32 4 p))
  | wbDataResize sdw =>
      (wbMasterPorts.map fun p => (.wbm p .input, vector (wbBits 32 4 p))) ++
      (wbSlavePorts.map fun p => (.wbm p .output, vector (wbBits 32 4 p))) ++
      ((wbMasterPorts.filter (· ≠ .sel)).map fun p => (.wbs p .output, vector (wbBits sdw 4 p))) ++
      wbSlavePorts.map fun p => (.wbs p .input, vector (wbBits sdw 4 p))
  | avalonToWbBridge dw => [(.clk, 1), (.rst, 1)] ++
      (avalonMasterPorts.map fun p => (.av .s p .input, vector (avBits dw p))) ++
      (avalonSlavePorts.map fun p => (.av .s p .output, vector (avBits dw p))) ++
      (wbMasterPorts.map fun p => (.wbm p .output, vector (wbBits dw (dw.tdiv 8) p))) ++
      wbSlavePorts.map fun p => (.wbm p .input, vector (wbBits dw (dw.tdiv 8) p))
  | wbToAvalonBridge dw => [(.clk, 1), (.rst, 1)] ++
      (wbMasterPorts.map fun p => (.wb p .input, vector (wbBits dw (dw.tdiv 8) p))) ++
      (wbSlavePorts.map fun p => (.wb p .output, vector (wbBits dw (dw.tdiv 8) p))) ++
      (avalonMasterPorts.map fun p => (.av .m p .output, vector (avBits dw p))) ++
      avalonSlavePorts.map fun p => (.av .m p .input, vector (avBits dw p))

/-! ## The writer -/

/-- `Wire`. -/
structure Wire where
  ident : Ident
  width : Int

/-- `ModulePort`. -/
structure ModulePort where
  ident : Ident
  dir : PinDirection
  width : Int := 0

/-- `Instance`, with its connections in order. -/
structure Instance where
  core : Core
  name : String
  ports : List (Pin × List Ident)

/-- `VerilogWriter`. -/
structure VerilogWriter where
  ports : List ModulePort := []
  wires : List Wire := []
  instances : List Instance := []

namespace VerilogWriter

/-- What two calls add, one after the other. -/
def append (first second : VerilogWriter) : VerilogWriter where
  ports := first.ports ++ second.ports
  wires := first.wires ++ second.wires
  instances := first.instances ++ second.instances

instance : Append VerilogWriter := ⟨append⟩

/-- What the rounds of a loop add. -/
def join {α : Type} (rounds : List α) (body : α → VerilogWriter) : VerilogWriter where
  ports := rounds.flatMap fun a => (body a).ports
  wires := rounds.flatMap fun a => (body a).wires
  instances := rounds.flatMap fun a => (body a).instances

/-- What is added when a condition holds. -/
def guarded (condition : Bool) (writer : VerilogWriter) : VerilogWriter :=
  if condition then writer else {}

end VerilogWriter

/-! ## The methods of the generator -/

/-- `int(WB_DATA_WIDTH[p.name] * datawidth) or p.width`. -/
def dataWidth (datawidth : Int) (p : WbSignal) : Int :=
  if p = .dat ∧ datawidth ≠ 0 then datawidth else p.width

/-- The port direction of a slave's signals. -/
def Flow.slaveDirection : Flow → PinDirection
  | .m2s => .output
  | .s2m => .input

/-- The port direction of a master's signals. -/
def Flow.masterDirection : Flow → PinDirection
  | .m2s => .input
  | .s2m => .output

/-- `input_format` and `output_format` of `_gen_mux`. -/
def masterIdent (master : Master) (flow : Flow) (p : WbSignal) : Ident :=
  match master.busType with
  | .wishbone => .port master.name p flow.masterDirection
  | .avalon => .wire flow master.name p

/-- `input_format` and `output_format` of `_gen_arbiter` and `_gen_resize`. -/
def slaveIdent (slave : Slave) (flow : Flow) (p : WbSignal) : Ident :=
  match slave.busType with
  | .wishbone => .port slave.name p flow.slaveDirection
  | .avalon => .wire flow slave.name p

def resizeIdent (slave : Slave) (flow : Flow) (p : WbSignal) : Ident :=
  .wire flow ("resize_" ++ slave.name) p

/-- An entry of `name_list` in `_gen_arbiter` with its fields filled in, and the wire that
`write` declares for it. -/
def connectionIdent (master : Master) (slave : Slave) (flow : Flow) (p : WbSignal) : Ident :=
  .wire flow (master.name ++ "_" ++ slave.name) p

variable (intercon : WbIntercon)

/-- An entry of `name_list` in `_gen_mux` with its fields filled in. -/
def muxSlaveIdent (master : Master) (slave : Slave) (flow : Flow) (p : WbSignal) : Ident :=
  if (intercon.mastersOf slave).length = 1 ∧ slave.datawidth = 32 then
    .port slave.name p flow.slaveDirection
  else if (intercon.mastersOf slave).length = 1 ∧ slave.datawidth < 32 then
    resizeIdent slave flow p
  else connectionIdent master slave flow p

/-- The instance of `_gen_mux`. -/
def muxInstance (master : Master) : Instance where
  core := .wbMux (intercon.slavesOf master).length
  name := "wb_mux_" ++ master.name
  ports := [(.clk, [.clk]), (.rst, [.rst])] ++
    (wbMasterPorts.map fun p => (.wbm p .input, [masterIdent master .m2s p])) ++
    (wbSlavePorts.map fun p => (.wbm p .output, [masterIdent master .s2m p])) ++
    (wbMasterPorts.map fun p => (.wbs p .output,
      (intercon.slavesOf master).map fun s => muxSlaveIdent intercon master s .m2s p)) ++
    wbSlavePorts.map fun p => (.wbs p .input,
      (intercon.slavesOf master).map fun s => muxSlaveIdent intercon master s .s2m p)

/-- The slave side of `_gen_arbiter`. -/
def arbiterSlaveIdent (slave : Slave) (flow : Flow) (p : WbSignal) : Ident :=
  if slave.datawidth = 32 then slaveIdent slave flow p else resizeIdent slave flow p

/-- The instance of `_gen_arbiter`. -/
def arbiterInstance (slave : Slave) : Instance where
  core := .wbArbiter (intercon.mastersOf slave).length
  name := "wb_arbiter_" ++ slave.name
  ports := [(.clk, [.clk]), (.rst, [.rst])] ++
    (wbMasterPorts.map fun p => (.wbm p .input,
      (intercon.mastersOf slave).map fun m => connectionIdent m slave .m2s p)) ++
    (wbSlavePorts.map fun p => (.wbm p .output,
      (intercon.mastersOf slave).map fun m => connectionIdent m slave .s2m p)) ++
    (wbMasterPorts.map fun p => (.wbs p .output, [arbiterSlaveIdent slave .m2s p])) ++
    wbSlavePorts.map fun p => (.wbs p .input, [arbiterSlaveIdent slave .s2m p])

/-- The instance of `_gen_resize`. -/
def resizeInstance (slave : Slave) : Instance where
  core := .wbDataResize slave.datawidth
  name := "wb_data_resize_" ++ slave.name
  ports := (wbMasterPorts.map fun p => (.wbm p .input, [resizeIdent slave .m2s p])) ++
    (wbSlavePorts.map fun p => (.wbm p .output, [resizeIdent slave .s2m p])) ++
    ((wbMasterPorts.filter (· ≠ .sel)).map fun p => (.wbs p .output, [slaveIdent slave .m2s p])) ++
    wbSlavePorts.map fun p => (.wbs p .input, [slaveIdent slave .s2m p])

/-- The wires of both directions with the widths of the signals. -/
def bundleWires (ident : Flow → WbSignal → Ident) (width : WbSignal → Int) : List Wire :=
  (wbMasterPorts.map fun p => ⟨ident .m2s p, width p⟩) ++
    wbSlavePorts.map fun p => ⟨ident .s2m p, width p⟩

def genMux (master : Master) : VerilogWriter := { instances := [muxInstance intercon master] }

def genArbiter (slave : Slave) : VerilogWriter :=
  { instances := [arbiterInstance intercon slave] }

def genResize (slave : Slave) : VerilogWriter where
  instances := [resizeInstance slave]
  wires := bundleWires (resizeIdent slave) WbSignal.width

def genWishboneMasterPort (master : Master) : VerilogWriter where
  ports := (wbMasterPorts.map fun p => ⟨.port master.name p .input, .input, p.width⟩) ++
    wbSlavePorts.map fun p => ⟨.port master.name p .output, .output, p.width⟩

def genWishbonePort (slave : Slave) : VerilogWriter where
  ports := (wbMasterPorts.map fun p =>
      ⟨.port slave.name p .output, .output, dataWidth slave.datawidth p⟩) ++
    wbSlavePorts.map fun p => ⟨.port slave.name p .input, .input, dataWidth slave.datawidth p⟩

/-- The directions of the Wishbone pins of a bridge: the bridge of a master drives what
goes to the slaves. -/
def bridgeDirection (isMaster : Bool) (flow : Flow) : PinDirection :=
  if flow = (if isMaster then .m2s else .s2m) then .output else .input

/-- The directions of the Avalon pins of a bridge. -/
def avalonDirection (isMaster : Bool) (flow : Flow) : PinDirection :=
  if flow ≠ (if isMaster then .m2s else .s2m) then .output else .input

def avalonSide (isMaster : Bool) : AvSide := if isMaster then .s else .m

/-- The Wishbone pins of a bridge. -/
def bridgePin (isMaster : Bool) (flow : Flow) (p : WbSignal) : Pin :=
  if isMaster then .wbm p (bridgeDirection isMaster flow) else .wb p (bridgeDirection isMaster flow)

def avalonIdent (isMaster : Bool) (name : String) (flow : Flow) (p : AvSignal) : Ident :=
  .avPort (avalonSide isMaster) name p (avalonDirection isMaster flow)

/-- `converter_ports` of `_gen_bus_converter`. -/
def converterPorts (name : String) (isMaster : Bool) : List (Pin × List Ident) :=
  [(.clk, [.clk]), (.rst, [.rst])] ++
    (wbMasterPorts.map fun p => (bridgePin isMaster .m2s p, [.wire .m2s name p])) ++
    (wbSlavePorts.map fun p => (bridgePin isMaster .s2m p, [.wire .s2m name p])) ++
    (avalonMasterPorts.map fun p => (.av (avalonSide isMaster) p (avalonDirection isMaster .m2s),
      [avalonIdent isMaster name .m2s p])) ++
    avalonSlavePorts.map fun p => (.av (avalonSide isMaster) p (avalonDirection isMaster .s2m),
      [avalonIdent isMaster name .s2m p])

/-- `_gen_avalon_port` with the declarations of `_gen_bus_converter`. -/
def genAvalonPort (name : String) (isMaster : Bool) (datawidth : Int) : VerilogWriter where
  wires := bundleWires (fun flow p => .wire flow name p) (dataWidth datawidth)
  ports := (avalonMasterPorts.map fun p =>
      ⟨avalonIdent isMaster name .m2s p, avalonDirection isMaster .m2s, p.width⟩) ++
    avalonSlavePorts.map fun p =>
      ⟨avalonIdent isMaster name .s2m p, avalonDirection isMaster .s2m, p.width⟩
  instances := [{
    core := if isMaster then .avalonToWbBridge datawidth else .wbToAvalonBridge datawidth
    name := (if isMaster then "avalon_to_wb_bridge_" else "wb_to_avalon_bridge_") ++ name
    ports := converterPorts name isMaster }]

/-- The round of `write` that declares the wires between a mux and an arbiter. -/
def connectionWires (master : Master) (slave : Slave) : VerilogWriter :=
  .guarded (1 < (intercon.mastersOf slave).length)
    { wires := bundleWires (connectionIdent master slave) WbSignal.width }

/-- The round of `write` for a master. -/
def writeMaster (master : Master) : VerilogWriter :=
  genMux intercon master ++
    match master.busType with
    | .wishbone => genWishboneMasterPort master
    | .avalon => genAvalonPort master.name true master.datawidth

/-- The round of `write` for a slave. -/
def writeSlave (slave : Slave) : VerilogWriter :=
  .guarded (1 < (intercon.mastersOf slave).length) (genArbiter intercon slave) ++
    .guarded (slave.datawidth < 32) (genResize slave) ++
      match slave.busType with
      | .wishbone => genWishbonePort slave
      | .avalon => genAvalonPort slave.name false slave.datawidth

/-- `write`. -/
def write : VerilogWriter :=
  .join intercon.masters.values (fun master =>
      .join (intercon.slavesOf master) (connectionWires intercon master)) ++
    ({ ports := [⟨.clk, .input, 0⟩, ⟨.rst, .input, 0⟩] } : VerilogWriter) ++
    .join intercon.masters.values (writeMaster intercon) ++
    .join intercon.slaves.values (writeSlave intercon)

end OrpsocCores.WbIntercon
