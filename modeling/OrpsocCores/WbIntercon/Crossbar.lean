import OrpsocCores.WbIntercon.Declarations
import OrpsocCores.WbIntercon.Decode
import OrpsocCores.WbIntercon.Passage

/-!
# The generated netlist is the configured crossbar

A bus signal goes through a core from the pins of one side to the pins of the other, if
the core passes it at the positions where it enters and leaves (`Core.Passes`).  `Route`
follows one signal through the instances of a netlist and records these positions; it
knows nothing of the configuration.

For a configuration of 32-bit Wishbone masters and slaves the routes between the ports
of a master and those of a slave are then determined (`route_request_iff`,
`route_response_iff`): the positions of the two in each other's lists are the only way,
and there is none for a slave that is not listed.  The way is open for every pair that
is listed exactly when no mux and no arbiter has more than 32 entries, and the identifiers
are those of the text when no name in a concatenation has a brace (`write_crossbar_iff`).
-/

set_option autoImplicit false

namespace OrpsocCores.WbIntercon

/-! ## Routes through a netlist -/

/-- Position `i` on one side of a core and `j` on the other pass signal `p`.  The first
entry of a concatenation has the highest index.  No other core stands between Wishbone
masters and slaves of 32 bits. -/
def Core.Passes : Core → Flow → WbSignal → Nat → Nat → Prop
  | .wbMux n, .m2s, p, _, j => Mux.PassesRequest n p (n - 1 - j)
  | .wbMux n, .s2m, p, i, _ => Mux.PassesResponse n p (n - 1 - i)
  | .wbArbiter n, .m2s, p, i, _ => ArbiterCore.PassesRequest n p (n - 1 - i)
  | .wbArbiter n, .s2m, p, _, j => ArbiterCore.PassesResponse n p (n - 1 - j)
  | _, _, _, _, _ => False

/-- Signal `p` goes through an instance from `a`, at position `i` of its concatenation,
to `b` at position `j`. -/
def Instance.Passes (inst : Instance) (p : WbSignal) (a : Ident) (i : Nat) (b : Ident) (j : Nat) :
    Prop :=
  ∃ sources targets,
    ((Pin.wbm p .input, sources) ∈ inst.ports ∧ (Pin.wbs p .output, targets) ∈ inst.ports ∧
        inst.core.Passes .m2s p i j ∨
      (Pin.wbs p .input, sources) ∈ inst.ports ∧ (Pin.wbm p .output, targets) ∈ inst.ports ∧
        inst.core.Passes .s2m p i j) ∧
    sources[i]? = some a ∧ targets[j]? = some b

/-- A passage through an instance, with the positions of entry and exit. -/
structure Hop where
  name : String
  entry : Nat
  exit : Nat
  deriving DecidableEq

/-- The passages lead signal `p` from one identifier to another. -/
def VerilogWriter.Route (net : VerilogWriter) (p : WbSignal) : Ident → List Hop → Ident → Prop
  | a, [], c => a = c
  | a, hop :: hops, c =>
      ∃ inst ∈ net.instances, inst.name = hop.name ∧
        ∃ b, inst.Passes p a hop.entry b hop.exit ∧ net.Route p b hops c

/-! ## What the configuration asks for -/

/-- A configuration of 32-bit Wishbone masters and slaves. -/
structure Plain (intercon : WbIntercon) : Prop where
  master_wishbone : ∀ m ∈ intercon.masters.values, m.busType = .wishbone
  slave_wishbone : ∀ s ∈ intercon.slaves.values, s.busType = .wishbone
  datawidth : ∀ s ∈ intercon.slaves.values, s.datawidth = 32

/-- Master and slave know each other at these positions. -/
def ConnectedAt (intercon : WbIntercon) (master : Master) (slave : Slave) (i j : Nat) : Prop :=
  (intercon.slavesOf master)[i]? = some slave ∧ (intercon.mastersOf slave)[j]? = some master

/-- The way of a request: position `i` of the mux, and position `j` of the arbiter if
the slave has several masters. -/
def requestPath (intercon : WbIntercon) (master : Master) (slave : Slave) (i j : Nat) : List Hop :=
  if 1 < (intercon.mastersOf slave).length then
    [⟨"wb_mux_" ++ master.name, 0, i⟩, ⟨"wb_arbiter_" ++ slave.name, j, 0⟩]
  else [⟨"wb_mux_" ++ master.name, 0, i⟩]

/-- The way of a response. -/
def responsePath (intercon : WbIntercon) (master : Master) (slave : Slave) (i j : Nat) : List Hop :=
  if 1 < (intercon.mastersOf slave).length then
    [⟨"wb_arbiter_" ++ slave.name, 0, j⟩, ⟨"wb_mux_" ++ master.name, i, 0⟩]
  else [⟨"wb_mux_" ++ master.name, i, 0⟩]

/-- The cores on the way of a request pass it at these positions. -/
def PassesRequest (intercon : WbIntercon) (master : Master) (slave : Slave) (p : WbSignal)
    (i j : Nat) : Prop :=
  (Core.wbMux (intercon.slavesOf master).length).Passes .m2s p 0 i ∧
    (1 < (intercon.mastersOf slave).length →
      (Core.wbArbiter (intercon.mastersOf slave).length).Passes .m2s p j 0)

/-- The cores on the way of a response pass it. -/
def PassesResponse (intercon : WbIntercon) (master : Master) (slave : Slave) (p : WbSignal)
    (i j : Nat) : Prop :=
  (1 < (intercon.mastersOf slave).length →
      (Core.wbArbiter (intercon.mastersOf slave).length).Passes .s2m p 0 j) ∧
    (Core.wbMux (intercon.slavesOf master).length).Passes .s2m p i 0

variable {intercon : WbIntercon} {master : Master} {slave : Slave} {p : WbSignal}

/-! ## One passage -/

/-- The connections of a core with both Wishbone sides. -/
def twoSided (wbmI wbmO wbsO wbsI : WbSignal → List Ident) : List (Pin × List Ident) :=
  [(.clk, [.clk]), (.rst, [.rst])] ++ (wbMasterPorts.map fun p => (.wbm p .input, wbmI p)) ++
    (wbSlavePorts.map fun p => (.wbm p .output, wbmO p)) ++
    (wbMasterPorts.map fun p => (.wbs p .output, wbsO p)) ++
    wbSlavePorts.map fun p => (.wbs p .input, wbsI p)

/-- Through such a core the requests go from `wbm` to `wbs`, the responses back. -/
theorem passes_twoSided {inst : Instance} {core : Core} (kind : inst.core = core)
    {wbmI wbmO wbsO wbsI : WbSignal → List Ident}
    (ports : inst.ports = twoSided wbmI wbmO wbsO wbsI) {a b : Ident} {i j : Nat} :
    inst.Passes p a i b j ↔
      p ∈ wbMasterPorts ∧ core.Passes .m2s p i j ∧
          (wbmI p)[i]? = some a ∧ (wbsO p)[j]? = some b ∨
        p ∈ wbSlavePorts ∧ core.Passes .s2m p i j ∧
          (wbsI p)[i]? = some a ∧ (wbmO p)[j]? = some b := by
  have wbm_input : ∀ l, (Pin.wbm p .input, l) ∈ inst.ports ↔ p ∈ wbMasterPorts ∧ l = wbmI p := by
    intro l
    simp [ports, twoSided, eq_comm (a := l)]
  have wbm_output : ∀ l, (Pin.wbm p .output, l) ∈ inst.ports ↔ p ∈ wbSlavePorts ∧ l = wbmO p := by
    intro l
    simp [ports, twoSided, eq_comm (a := l)]
  have wbs_output : ∀ l, (Pin.wbs p .output, l) ∈ inst.ports ↔ p ∈ wbMasterPorts ∧ l = wbsO p := by
    intro l
    simp [ports, twoSided, eq_comm (a := l)]
  have wbs_input : ∀ l, (Pin.wbs p .input, l) ∈ inst.ports ↔ p ∈ wbSlavePorts ∧ l = wbsI p := by
    intro l
    simp [ports, twoSided, eq_comm (a := l)]
  simp only [Instance.Passes, kind, wbm_input, wbm_output, wbs_output, wbs_input]
  constructor
  · rintro ⟨sources, targets,
      ⟨⟨signal, rfl⟩, ⟨-, rfl⟩, through⟩ | ⟨⟨signal, rfl⟩, ⟨-, rfl⟩, through⟩, enters, leaves⟩
    · exact Or.inl ⟨signal, through, enters, leaves⟩
    · exact Or.inr ⟨signal, through, enters, leaves⟩
  · rintro (⟨signal, through, enters, leaves⟩ | ⟨signal, through, enters, leaves⟩)
    · exact ⟨_, _, Or.inl ⟨⟨signal, rfl⟩, ⟨signal, rfl⟩, through⟩, enters, leaves⟩
    · exact ⟨_, _, Or.inr ⟨⟨signal, rfl⟩, ⟨signal, rfl⟩, through⟩, enters, leaves⟩

theorem getElem?_map_eq_some {α β : Type} {l : List α} {f : α → β} {i : Nat} {b : β} :
    (l.map f)[i]? = some b ↔ ∃ a, l[i]? = some a ∧ f a = b := by
  rw [List.getElem?_map, Option.map_eq_some_iff]

theorem getElem?_singleton_eq_some {α : Type} {a b : α} {i : Nat} :
    [a][i]? = some b ↔ i = 0 ∧ a = b := by
  cases i <;> simp

/-- The passages through a mux. -/
theorem passes_muxInstance {a b : Ident} {i j : Nat} :
    (muxInstance intercon master).Passes p a i b j ↔
      p ∈ wbMasterPorts ∧ (Core.wbMux (intercon.slavesOf master).length).Passes .m2s p i j ∧
          (i = 0 ∧ masterIdent master .m2s p = a) ∧
          (∃ s, (intercon.slavesOf master)[j]? = some s ∧
            muxSlaveIdent intercon master s .m2s p = b) ∨
        p ∈ wbSlavePorts ∧ (Core.wbMux (intercon.slavesOf master).length).Passes .s2m p i j ∧
          (∃ s, (intercon.slavesOf master)[i]? = some s ∧
            muxSlaveIdent intercon master s .s2m p = a) ∧
          (j = 0 ∧ masterIdent master .s2m p = b) := by
  have core : (muxInstance intercon master).core =
      .wbMux (intercon.slavesOf master).length := rfl
  rw [passes_twoSided core rfl]
  simp only [getElem?_map_eq_some, getElem?_singleton_eq_some]

/-- The passages through an arbiter. -/
theorem passes_arbiterInstance {a b : Ident} {i j : Nat} :
    (arbiterInstance intercon slave).Passes p a i b j ↔
      p ∈ wbMasterPorts ∧ (Core.wbArbiter (intercon.mastersOf slave).length).Passes .m2s p i j ∧
          (∃ m, (intercon.mastersOf slave)[i]? = some m ∧ connectionIdent m slave .m2s p = a) ∧
          (j = 0 ∧ arbiterSlaveIdent slave .m2s p = b) ∨
        p ∈ wbSlavePorts ∧ (Core.wbArbiter (intercon.mastersOf slave).length).Passes .s2m p i j ∧
          (i = 0 ∧ arbiterSlaveIdent slave .s2m p = a) ∧
          (∃ m, (intercon.mastersOf slave)[j]? = some m ∧ connectionIdent m slave .s2m p = b) := by
  have core : (arbiterInstance intercon slave).core =
      .wbArbiter (intercon.mastersOf slave).length := rfl
  rw [passes_twoSided core rfl]
  simp only [getElem?_map_eq_some, getElem?_singleton_eq_some]

/-! ## The instances and their names -/

/-- The instances of a plain configuration: a mux for every master, an arbiter for every
slave with several masters. -/
theorem mem_instances (plain : Plain intercon) {inst : Instance} :
    inst ∈ (write intercon).instances ↔
      (∃ m ∈ intercon.masters.values, inst = muxInstance intercon m) ∨
        ∃ s ∈ intercon.slaves.values, 1 < (intercon.mastersOf s).length ∧
          inst = arbiterInstance intercon s := by
  have connections : ∀ m s, (connectionWires intercon m s).instances = [] := by
    intro m s
    rw [connectionWires]
    cases decide (1 < (intercon.mastersOf s).length) <;> rfl
  have masters : ∀ m ∈ intercon.masters.values,
      (writeMaster intercon m).instances = [muxInstance intercon m] := by
    intro m member
    rw [writeMaster, plain.master_wishbone m member]
    rfl
  have slaves : ∀ s ∈ intercon.slaves.values, (writeSlave intercon s).instances =
      if 1 < (intercon.mastersOf s).length then [arbiterInstance intercon s] else [] := by
    intro s member
    have wide : ¬s.datawidth < 32 := by rw [plain.datawidth s member]; decide
    rw [writeSlave, plain.slave_wishbone s member, decide_eq_false wide]
    by_cases several : 1 < (intercon.mastersOf s).length
    · rw [decide_eq_true several, if_pos several]
      rfl
    · rw [decide_eq_false several, if_neg several]
      rfl
  simp only [write, VerilogWriter.instances_append, VerilogWriter.instances_join, List.mem_append,
    List.mem_flatMap, connections, List.not_mem_nil, and_false, exists_false, or_false, false_or]
  refine or_congr (exists_congr fun m => and_congr_right fun member => ?_)
    (exists_congr fun s => and_congr_right fun member => ?_)
  · rw [masters m member, List.mem_singleton]
  · rw [slaves s member]
    split
    case isTrue several => simp [several]
    case isFalse several => simp [several]

/-- What distinct names give: no master is called as a slave, and the wires between
muxes and arbiters belong to one connection each. -/
structure Named (intercon : WbIntercon) : Prop where
  names_differ : ∀ m ∈ intercon.masters.values, ∀ s ∈ intercon.slaves.values, m.name ≠ s.name
  connection_inj : ∀ m ∈ intercon.masters.values, ∀ m' ∈ intercon.masters.values,
    ∀ s ∈ intercon.slavesOf m, ∀ s' ∈ intercon.slavesOf m',
      1 < (intercon.mastersOf s).length → 1 < (intercon.mastersOf s').length →
        m.name ++ "_" ++ s.name = m'.name ++ "_" ++ s'.name → m = m' ∧ s = s'

/-- In a list without repetitions two members that give a common element are equal. -/
theorem eq_of_mem_flatMap {α β : Type} {l : List α} {f : α → List β} (nodup : (l.flatMap f).Nodup)
    {a b : α} (left : a ∈ l) (right : b ∈ l) {x : β} (inA : x ∈ f a) (inB : x ∈ f b) : a = b := by
  by_contra differ
  have disjoint := (List.nodup_flatMap.mp nodup).2
  have : Std.Symm fun c d => List.Disjoint (f c) (f d) := ⟨fun c d apart => apart.symm⟩
  exact disjoint.forall left right differ inA inB

theorem named_of_nodup (plain : Plain intercon) (nodup : (write intercon).names.Nodup) :
    Named intercon := by
  rw [names_eq] at nodup
  have declared := nodup.of_map
  rw [VerilogWriter.declarations, List.map_append, List.map_map, List.map_map] at declared
  have ports : ((write intercon).ports.map ModulePort.ident).Nodup := (List.nodup_append.mp declared).1
  have wires : ((write intercon).wires.map Wire.ident).Nodup :=
    (List.nodup_append.mp declared).2.1
  rw [ports_write, List.append_assoc] at ports
  rw [wires_write, wireNames, List.flatMap_append, List.flatMap_append, List.append_assoc] at wires
  have connections := (List.nodup_append.mp wires).1
  simp only [List.flatMap_assoc] at connections
  constructor
  case names_differ =>
      intro m master s slave same
      -- both would have an output `dat`
      have apart := (List.nodup_append.mp (List.nodup_append.mp ports).2.1).2.2
      refine apart (.port m.name .dat .output) ?_ (.port s.name .dat .output) ?_ (by rw [same])
      · refine List.mem_flatMap.mpr ⟨m, master, ?_⟩
        rw [masterPorts, plain.master_wishbone m master]
        simp [wbSlavePorts]
      · refine List.mem_flatMap.mpr ⟨s, slave, ?_⟩
        rw [slavePorts, plain.slave_wishbone s slave]
        simp [wbMasterPorts]
  case connection_inj =>
      intro m left m' right s listed s' listed' several several' same
      have wire : ∀ {s : Slave} {m : Master} {name : String}, 1 < (intercon.mastersOf s).length →
          name = m.name ++ "_" ++ s.name → Ident.wire .m2s name .adr ∈
            (if 1 < (intercon.mastersOf s).length then [m.name ++ "_" ++ s.name] else []).flatMap
              bundle := by
        rintro s m name several rfl
        rw [if_pos several]
        simp [bundle, toSlave, wbMasterPorts]
      have here := wire (m := m) several rfl
      have there := wire several' same
      obtain rfl : m = m' := eq_of_mem_flatMap connections left right
        (List.mem_flatMap.mpr ⟨s, listed, here⟩) (List.mem_flatMap.mpr ⟨s', listed', there⟩)
      have own := (List.nodup_flatMap.mp connections).1 m left
      exact ⟨rfl, eq_of_mem_flatMap own listed listed' here there⟩

/-- Two connections with an arbiter share a wire only if they are the same. -/
theorem Named.connection_unique (named : Named intercon) {m m' : Master} {s s' : Slave}
    (left : m ∈ intercon.mastersOf s) (right : m' ∈ intercon.mastersOf s')
    (known : s ∈ intercon.slaves.values)
    (known' : s' ∈ intercon.slaves.values) (several : 1 < (intercon.mastersOf s).length)
    (several' : 1 < (intercon.mastersOf s').length) {flow flow' : Flow}
    (same : connectionIdent m s flow p = connectionIdent m' s' flow' p) : m = m' ∧ s = s' := by
  obtain ⟨member, listed⟩ := mem_mastersOf.mp left
  obtain ⟨member', listed'⟩ := mem_mastersOf.mp right
  exact named.connection_inj m member m' member' s (mem_slavesOf.mpr ⟨known, listed⟩) s'
    (mem_slavesOf.mpr ⟨known', listed'⟩) several several' (Ident.wire.inj same).2.1

/-! ## The identifiers of a plain configuration -/

section

variable (plain : Plain intercon)

include plain

theorem masterIdent_plain (member : master ∈ intercon.masters.values) (flow : Flow) :
    masterIdent master flow p = .port master.name p flow.masterDirection := by
  rw [masterIdent, plain.master_wishbone master member]

theorem arbiterSlaveIdent_plain (member : slave ∈ intercon.slaves.values) (flow : Flow) :
    arbiterSlaveIdent slave flow p = .port slave.name p flow.slaveDirection := by
  rw [arbiterSlaveIdent, if_pos (plain.datawidth slave member), slaveIdent,
    plain.slave_wishbone slave member]

theorem muxSlaveIdent_plain (member : slave ∈ intercon.slaves.values)
    (listed : intercon.mastersOf slave ≠ []) (flow : Flow) :
    muxSlaveIdent intercon master slave flow p =
      if 1 < (intercon.mastersOf slave).length then connectionIdent master slave flow p
      else .port slave.name p flow.slaveDirection := by
  have some := List.length_pos_iff.mpr listed
  have full := plain.datawidth slave member
  rw [muxSlaveIdent]
  by_cases several : 1 < (intercon.mastersOf slave).length
  · rw [if_pos several, if_neg (by omega), if_neg (by omega)]
  · rw [if_neg several, if_pos ⟨by omega, full⟩]

/-- What the mux of a master connects for a slave of its list. -/
theorem muxSlaveIdent_listed (member : master ∈ intercon.masters.values) {i : Nat}
    (listed : (intercon.slavesOf master)[i]? = some slave) (flow : Flow) :
    muxSlaveIdent intercon master slave flow p =
      if 1 < (intercon.mastersOf slave).length then connectionIdent master slave flow p
      else .port slave.name p flow.slaveDirection := by
  have known := mem_slavesOf.mp (List.mem_of_getElem? listed)
  have some : master ∈ intercon.mastersOf slave := mem_mastersOf.mpr ⟨member, known.2⟩
  exact muxSlaveIdent_plain plain known.1 (List.ne_nil_of_mem some) flow

/-! ## Where a signal can go -/

/-- An output of the module is no input of an instance. -/
theorem not_passes_output {inst : Instance} (added : inst ∈ (write intercon).instances)
    {name : String} {b : Ident} {i j : Nat} : ¬inst.Passes p (.port name p .output) i b j := by
  intro passes
  rcases (mem_instances plain).mp added with ⟨m, member, rfl⟩ | ⟨s, member, several, rfl⟩
  · rcases passes_muxInstance.mp passes with ⟨-, -, ⟨-, same⟩, -⟩ | ⟨-, -, ⟨s, listed, same⟩, -⟩
    · rw [masterIdent_plain plain member] at same
      cases same
    · rw [muxSlaveIdent_listed plain member listed] at same
      split at same <;> cases same
  · rcases passes_arbiterInstance.mp passes with ⟨-, -, ⟨m, -, same⟩, -⟩ | ⟨-, -, ⟨-, same⟩, -⟩
    · cases same
    · rw [arbiterSlaveIdent_plain plain member] at same
      cases same

/-- A route that has come to an output of the module ends there. -/
theorem route_from_output {name : String} {c : Ident} {hops : List Hop}
    (route : (write intercon).Route p (.port name p .output) hops c) :
    hops = [] ∧ c = .port name p .output := by
  match hops, route with
  | [], same => exact ⟨rfl, Eq.symm same⟩
  | _ :: _, ⟨inst, added, _, b, passes, _⟩ => exact absurd passes (not_passes_output plain added)

variable (named : Named intercon)

include named

/-- A request leaves its master through the mux. -/
theorem passes_from_master (member : master ∈ intercon.masters.values) {inst : Instance}
    (added : inst ∈ (write intercon).instances) {b : Ident} {i j : Nat}
    (passes : inst.Passes p (.port master.name p .input) i b j) :
    inst = muxInstance intercon master ∧ i = 0 ∧
      (Core.wbMux (intercon.slavesOf master).length).Passes .m2s p i j ∧
      ∃ s, (intercon.slavesOf master)[j]? = some s ∧ muxSlaveIdent intercon master s .m2s p = b := by
  rcases (mem_instances plain).mp added with ⟨m, other, rfl⟩ | ⟨s, other, several, rfl⟩
  · rcases passes_muxInstance.mp passes with
      ⟨-, through, ⟨first, same⟩, leaves⟩ | ⟨-, -, ⟨s, listed, same⟩, -⟩
    · rw [masterIdent_plain plain other] at same
      obtain rfl : m = master := OrderedDict.eq_of_key_eq other member (Ident.port.inj same).1
      exact ⟨rfl, first, through, leaves⟩
    · have known := (mem_slavesOf.mp (List.mem_of_getElem? listed)).1
      rw [muxSlaveIdent_listed plain other listed] at same
      split at same
      · cases same
      · exact absurd (Ident.port.inj same).1.symm (named.names_differ master member s known)
  · rcases passes_arbiterInstance.mp passes with ⟨-, -, ⟨m, -, same⟩, -⟩ | ⟨-, -, ⟨-, same⟩, -⟩
    · cases same
    · rw [arbiterSlaveIdent_plain plain other] at same
      exact absurd (Ident.port.inj same).1.symm (named.names_differ master member s other)

/-- A request on the wire of a connection goes on through the arbiter. -/
theorem passes_from_connection (connected : master ∈ intercon.mastersOf slave)
    (known : slave ∈ intercon.slaves.values) (several : 1 < (intercon.mastersOf slave).length)
    {inst : Instance} (added : inst ∈ (write intercon).instances) {b : Ident} {i j : Nat}
    (passes : inst.Passes p (connectionIdent master slave .m2s p) i b j) :
    inst = arbiterInstance intercon slave ∧ (intercon.mastersOf slave)[i]? = some master ∧
      j = 0 ∧ (Core.wbArbiter (intercon.mastersOf slave).length).Passes .m2s p i j ∧
      b = .port slave.name p .output := by
  rcases (mem_instances plain).mp added with ⟨m, other, rfl⟩ | ⟨s, other, several', rfl⟩
  · rcases passes_muxInstance.mp passes with ⟨-, -, ⟨-, same⟩, -⟩ | ⟨-, -, ⟨s, listed, same⟩, -⟩
    · rw [masterIdent_plain plain other] at same
      cases same
    · rw [muxSlaveIdent_listed plain other listed] at same
      split at same
      · exact absurd (Ident.wire.inj same).1 (by decide)
      · cases same
  · rcases passes_arbiterInstance.mp passes with
      ⟨-, through, ⟨m, listed, same⟩, last, leaves⟩ | ⟨-, -, ⟨-, same⟩, -⟩
    · obtain ⟨rfl, rfl⟩ := named.connection_unique (List.mem_of_getElem? listed) connected
        other known several' several same
      rw [arbiterSlaveIdent_plain plain known] at leaves
      exact ⟨rfl, listed, last, through, leaves.symm⟩
    · rw [arbiterSlaveIdent_plain plain other] at same
      cases same

/-- A response leaves its slave through the arbiter if the slave has several masters,
and else through the mux of its master. -/
theorem passes_from_slave (known : slave ∈ intercon.slaves.values) {inst : Instance}
    (added : inst ∈ (write intercon).instances) {b : Ident} {i j : Nat}
    (passes : inst.Passes p (.port slave.name p .input) i b j) :
    (1 < (intercon.mastersOf slave).length ∧ inst = arbiterInstance intercon slave ∧ i = 0 ∧
        (Core.wbArbiter (intercon.mastersOf slave).length).Passes .s2m p i j ∧
        ∃ m, (intercon.mastersOf slave)[j]? = some m ∧ connectionIdent m slave .s2m p = b) ∨
      ¬1 < (intercon.mastersOf slave).length ∧ ∃ m ∈ intercon.masters.values,
        inst = muxInstance intercon m ∧ (intercon.slavesOf m)[i]? = some slave ∧ j = 0 ∧
          (Core.wbMux (intercon.slavesOf m).length).Passes .s2m p i j ∧
          b = .port m.name p .output := by
  rcases (mem_instances plain).mp added with ⟨m, other, rfl⟩ | ⟨s, other, several, rfl⟩
  · rcases passes_muxInstance.mp passes with
      ⟨-, -, ⟨-, same⟩, -⟩ | ⟨-, through, ⟨s, listed, same⟩, last, leaves⟩
    · rw [masterIdent_plain plain other] at same
      exact absurd (Ident.port.inj same).1 (named.names_differ m other slave known)
    · have inside := (mem_slavesOf.mp (List.mem_of_getElem? listed)).1
      rw [muxSlaveIdent_listed plain other listed] at same
      rw [masterIdent_plain plain other] at leaves
      split at same
      · cases same
      · obtain rfl : s = slave := OrderedDict.eq_of_key_eq inside known (Ident.port.inj same).1
        exact Or.inr ⟨by assumption, m, other, rfl, listed, last, through, leaves.symm⟩
  · rcases passes_arbiterInstance.mp passes with
      ⟨-, -, ⟨m, -, same⟩, -⟩ | ⟨-, through, ⟨first, same⟩, leaves⟩
    · cases same
    · rw [arbiterSlaveIdent_plain plain other] at same
      obtain rfl : s = slave := OrderedDict.eq_of_key_eq other known (Ident.port.inj same).1
      exact Or.inl ⟨several, rfl, first, through, leaves⟩

/-- A response on the wire of a connection goes on through the mux. -/
theorem passes_from_connection_back (connected : master ∈ intercon.mastersOf slave)
    (known : slave ∈ intercon.slaves.values) (several : 1 < (intercon.mastersOf slave).length)
    {inst : Instance} (added : inst ∈ (write intercon).instances) {b : Ident} {i j : Nat}
    (passes : inst.Passes p (connectionIdent master slave .s2m p) i b j) :
    inst = muxInstance intercon master ∧ (intercon.slavesOf master)[i]? = some slave ∧
      j = 0 ∧ (Core.wbMux (intercon.slavesOf master).length).Passes .s2m p i j ∧
      b = .port master.name p .output := by
  rcases (mem_instances plain).mp added with ⟨m, other, rfl⟩ | ⟨s, other, several', rfl⟩
  · rcases passes_muxInstance.mp passes with
      ⟨-, -, ⟨-, same⟩, -⟩ | ⟨-, through, ⟨s, listed, same⟩, last, leaves⟩
    · rw [masterIdent_plain plain other] at same
      cases same
    · obtain ⟨inside, lists⟩ := mem_slavesOf.mp (List.mem_of_getElem? listed)
      rw [muxSlaveIdent_listed plain other listed] at same
      rw [masterIdent_plain plain other] at leaves
      split at same
      case isTrue several' =>
          obtain ⟨rfl, rfl⟩ := named.connection_unique (mem_mastersOf.mpr ⟨other, lists⟩) connected
            inside known several' several same
          exact ⟨rfl, listed, last, through, leaves.symm⟩
      case isFalse => cases same
  · rcases passes_arbiterInstance.mp passes with
      ⟨-, -, ⟨m, listed, same⟩, -⟩ | ⟨-, -, ⟨-, same⟩, -⟩
    · exact absurd (Ident.wire.inj same).1 (by decide)
    · rw [arbiterSlaveIdent_plain plain other] at same
      cases same

/-! ## Routes between ports -/

/-- **The routes of a request from a master to a slave** are given by their positions in
each other's lists, as far as the cores pass it there. -/
theorem route_request_iff (member : master ∈ intercon.masters.values)
    (known : slave ∈ intercon.slaves.values) (signal : p ∈ wbMasterPorts) (hops : List Hop) :
    (write intercon).Route p (.port master.name p .input) hops (.port slave.name p .output) ↔
      ∃ i j, ConnectedAt intercon master slave i j ∧ PassesRequest intercon master slave p i j ∧
        hops = requestPath intercon master slave i j := by
  constructor
  · intro route
    match hops, route with
    | [], same => exact absurd (Ident.port.inj same).2.2 (by decide)
    | ⟨_, _, i⟩ :: hops, ⟨inst, added, name, b, passes, rest⟩ =>
        obtain ⟨rfl, rfl, mux, s, listed, rfl⟩ := passes_from_master plain named member added passes
        obtain ⟨inside, lists⟩ := mem_slavesOf.mp (List.mem_of_getElem? listed)
        have connected : master ∈ intercon.mastersOf s := mem_mastersOf.mpr ⟨member, lists⟩
        rw [muxSlaveIdent_listed plain member listed] at rest
        obtain rfl : _ = _ := name
        by_cases several : 1 < (intercon.mastersOf s).length
        · rw [if_pos several] at rest
          match hops, rest with
          | [], same => cases same
          | ⟨_, j, _⟩ :: hops, ⟨inst, added, name, b, passes, rest⟩ =>
              obtain ⟨rfl, place, rfl, arbiter, rfl⟩ :=
                passes_from_connection plain named connected inside several added passes
              obtain ⟨rfl, same⟩ := route_from_output plain rest
              obtain rfl : slave = s := OrderedDict.eq_of_key_eq known inside (Ident.port.inj same).1
              obtain rfl : _ = _ := name
              exact ⟨i, j, ⟨listed, place⟩, ⟨mux, fun _ => arbiter⟩,
                by rw [requestPath, if_pos several]; rfl⟩
        · rw [if_neg several] at rest
          obtain ⟨rfl, same⟩ := route_from_output plain rest
          obtain rfl : slave = s := OrderedDict.eq_of_key_eq known inside (Ident.port.inj same).1
          obtain ⟨j, place⟩ := List.mem_iff_getElem?.mp connected
          exact ⟨i, j, ⟨listed, place⟩, ⟨mux, fun more => absurd more several⟩,
            by rw [requestPath, if_neg several]; rfl⟩
  · rintro ⟨i, j, ⟨listed, place⟩, ⟨muxPasses, arbiterPasses⟩, rfl⟩
    have mux : muxInstance intercon master ∈ (write intercon).instances :=
      (mem_instances plain).mpr (Or.inl ⟨master, member, rfl⟩)
    have through : (muxInstance intercon master).Passes p (.port master.name p .input) 0
        (muxSlaveIdent intercon master slave .m2s p) i :=
      passes_muxInstance.mpr (Or.inl ⟨signal, muxPasses,
        ⟨rfl, masterIdent_plain plain member .m2s⟩, slave, listed, rfl⟩)
    rw [muxSlaveIdent_listed plain member listed] at through
    rw [requestPath]
    by_cases several : 1 < (intercon.mastersOf slave).length
    · have arbiter : arbiterInstance intercon slave ∈ (write intercon).instances :=
        (mem_instances plain).mpr (Or.inr ⟨slave, known, several, rfl⟩)
      have onward : (arbiterInstance intercon slave).Passes p (connectionIdent master slave .m2s p) j
          (.port slave.name p .output) 0 :=
        passes_arbiterInstance.mpr (Or.inl ⟨signal, arbiterPasses several, ⟨master, place, rfl⟩,
          rfl, arbiterSlaveIdent_plain plain known .m2s⟩)
      rw [if_pos several] at through ⊢
      exact ⟨_, mux, rfl, _, through, _, arbiter, rfl, _, onward, rfl⟩
    · rw [if_neg several] at through ⊢
      exact ⟨_, mux, rfl, _, through, rfl⟩

/-- **The routes of a response from a slave to a master** lead back through the same
positions, as far as the cores pass it. -/
theorem route_response_iff (member : master ∈ intercon.masters.values)
    (known : slave ∈ intercon.slaves.values) (signal : p ∈ wbSlavePorts) (hops : List Hop) :
    (write intercon).Route p (.port slave.name p .input) hops (.port master.name p .output) ↔
      ∃ i j, ConnectedAt intercon master slave i j ∧ PassesResponse intercon master slave p i j ∧
        hops = responsePath intercon master slave i j := by
  constructor
  · intro route
    match hops, route with
    | [], same => exact absurd (Ident.port.inj same).2.2 (by decide)
    | ⟨_, i, j⟩ :: hops, ⟨inst, added, name, b, passes, rest⟩ =>
        obtain rfl : _ = _ := name
        rcases passes_from_slave plain named known added passes with
          ⟨several, rfl, rfl, arbiter, m, place, rfl⟩ |
            ⟨single, m, inside, rfl, listed, rfl, mux, rfl⟩
        · have connected := List.mem_of_getElem? place
          match hops, rest with
          | [], same => cases same
          | ⟨_, i, _⟩ :: hops, ⟨inst, added, name, b, passes, rest⟩ =>
              obtain ⟨rfl, listed, rfl, mux, rfl⟩ :=
                passes_from_connection_back plain named connected known several added passes
              obtain ⟨rfl, same⟩ := route_from_output plain rest
              obtain rfl : master = m := OrderedDict.eq_of_key_eq member
                (mem_mastersOf.mp connected).1 (Ident.port.inj same).1
              obtain rfl : _ = _ := name
              exact ⟨i, j, ⟨listed, place⟩, ⟨fun _ => arbiter, mux⟩,
                by rw [responsePath, if_pos several]; rfl⟩
        · obtain ⟨rfl, same⟩ := route_from_output plain rest
          obtain rfl : master = m := OrderedDict.eq_of_key_eq member inside (Ident.port.inj same).1
          have lists := (mem_slavesOf.mp (List.mem_of_getElem? listed)).2
          obtain ⟨j, place⟩ := List.mem_iff_getElem?.mp (mem_mastersOf.mpr ⟨member, lists⟩)
          exact ⟨i, j, ⟨listed, place⟩, ⟨fun more => absurd more single, mux⟩,
            by rw [responsePath, if_neg single]; rfl⟩
  · rintro ⟨i, j, ⟨listed, place⟩, ⟨arbiterPasses, muxPasses⟩, rfl⟩
    have mux : muxInstance intercon master ∈ (write intercon).instances :=
      (mem_instances plain).mpr (Or.inl ⟨master, member, rfl⟩)
    have through : (muxInstance intercon master).Passes p
        (muxSlaveIdent intercon master slave .s2m p) i (.port master.name p .output) 0 :=
      passes_muxInstance.mpr (Or.inr ⟨signal, muxPasses, ⟨slave, listed, rfl⟩, rfl,
        masterIdent_plain plain member .s2m⟩)
    rw [muxSlaveIdent_listed plain member listed] at through
    rw [responsePath]
    by_cases several : 1 < (intercon.mastersOf slave).length
    · have arbiter : arbiterInstance intercon slave ∈ (write intercon).instances :=
        (mem_instances plain).mpr (Or.inr ⟨slave, known, several, rfl⟩)
      have onward : (arbiterInstance intercon slave).Passes p (.port slave.name p .input) 0
          (connectionIdent master slave .s2m p) j :=
        passes_arbiterInstance.mpr (Or.inr ⟨signal, arbiterPasses several,
          ⟨rfl, arbiterSlaveIdent_plain plain known .s2m⟩, master, place, rfl⟩)
      rw [if_pos several] at through ⊢
      exact ⟨_, arbiter, rfl, _, onward, _, mux, rfl, _, through, rfl⟩
    · rw [if_neg several] at through ⊢
      exact ⟨_, mux, rfl, _, through, rfl⟩

end

/-! ## The crossbar -/

/-- Every concatenation of a master's mux has the slave at the same position, and so do
the parameters, when they are legal. -/
structure AlignedAt (intercon : WbIntercon) (master : Master) (slave : Slave) (i : Nat) : Prop where
  request : ∀ p ∈ wbMasterPorts, ∃ wbsO,
    (Pin.wbs p .output, wbsO) ∈ (muxInstance intercon master).ports ∧
      wbsO[i]? = some (muxSlaveIdent intercon master slave .m2s p)
  response : ∀ p ∈ wbSlavePorts, ∃ wbsI,
    (Pin.wbs p .input, wbsI) ∈ (muxInstance intercon master).ports ∧
      wbsI[i]? = some (muxSlaveIdent intercon master slave .s2m p)
  parameters : ∀ mux, muxParameters (intercon.slavesOf master) = some mux →
    mux.matchAddr[i]? = literal slave.offset ∧ mux.matchMask[i]? = some slave.mask

/-- The netlist connects masters and slaves as the configuration lists them. -/
structure Crossbar (intercon : WbIntercon) : Prop where
  /-- The module that is written is this netlist. -/
  spelled : Spelled intercon
  /-- All requests reach the slave and all responses return exactly when it is listed. -/
  reaches_iff : ∀ m ∈ intercon.masters.values, ∀ s ∈ intercon.slaves.values,
    ((∀ p ∈ wbMasterPorts, ∃ hops,
        (write intercon).Route p (.port m.name p .input) hops (.port s.name p .output)) ∧
      ∀ p ∈ wbSlavePorts, ∃ hops,
        (write intercon).Route p (.port s.name p .input) hops (.port m.name p .output)) ↔
    s.name ∈ m.listed
  /-- Each signal then has one route, through the positions of slave and master. -/
  routes : ∀ m ∈ intercon.masters.values, ∀ s ∈ intercon.slaves.values, s.name ∈ m.listed →
    ∃ i j, ConnectedAt intercon m s i j ∧
      (∀ p ∈ wbMasterPorts, ∀ hops,
        (write intercon).Route p (.port m.name p .input) hops (.port s.name p .output) ↔
          hops = requestPath intercon m s i j) ∧
      ∀ p ∈ wbSlavePorts, ∀ hops,
        (write intercon).Route p (.port s.name p .input) hops (.port m.name p .output) ↔
          hops = responsePath intercon m s i j
  /-- No signal goes between a master and a slave that it does not list. -/
  apart : ∀ m ∈ intercon.masters.values, ∀ s ∈ intercon.slaves.values, s.name ∉ m.listed →
    ∀ p hops,
      (p ∈ wbMasterPorts →
        ¬(write intercon).Route p (.port m.name p .input) hops (.port s.name p .output)) ∧
      (p ∈ wbSlavePorts →
        ¬(write intercon).Route p (.port s.name p .input) hops (.port m.name p .output))
  /-- A mux has the same slave at each position of its parameters and concatenations. -/
  aligned : ∀ m ∈ intercon.masters.values, ∀ (i : Nat) (s : Slave),
    (intercon.slavesOf m)[i]? = some s → AlignedAt intercon m s i

theorem nodup_slavesOf (once : master.listed.Nodup) : (intercon.slavesOf master).Nodup := by
  refine once.filterMap ?_
  intro name name' s left right
  rw [← (OrderedDict.mem_of_get? left).2, ← (OrderedDict.mem_of_get? right).2]

theorem nodup_mastersOf (once : ∀ m ∈ intercon.masters.values, m.listed.Nodup) (slave : Slave) :
    (intercon.mastersOf slave).Nodup := by
  rw [mastersOf]
  refine List.nodup_flatMap.mpr ⟨?_, ?_⟩
  · intro m member
    rw [List.map_const', List.nodup_replicate]
    have single := List.nodup_iff_count_le_one.mp (once m member) slave.name
    rwa [← List.countP_eq_length_filter]
  · refine (intercon.masters.nodup_keys.of_map).imp ?_
    intro m m' differ other left right
    obtain ⟨-, -, rfl⟩ := List.mem_map.mp left
    obtain ⟨-, -, rfl⟩ := List.mem_map.mp right
    exact differ rfl

/-- Listing is being connected somewhere. -/
theorem exists_connectedAt (member : master ∈ intercon.masters.values)
    (known : slave ∈ intercon.slaves.values) :
    (∃ i j, ConnectedAt intercon master slave i j) ↔ slave.name ∈ master.listed := by
  constructor
  · rintro ⟨i, j, listed, -⟩
    exact (mem_slavesOf.mp (List.mem_of_getElem? listed)).2
  · intro lists
    obtain ⟨i, listed⟩ := List.mem_iff_getElem?.mp (mem_slavesOf.mpr ⟨known, lists⟩)
    obtain ⟨j, place⟩ := List.mem_iff_getElem?.mp (mem_mastersOf.mpr ⟨member, lists⟩)
    exact ⟨i, j, listed, place⟩

theorem eq_of_getElem?_eq_some {α : Type} {l : List α} (nodup : l.Nodup) {i j : Nat} {a : α}
    (left : l[i]? = some a) (right : l[j]? = some a) : i = j := by
  obtain ⟨inside, -⟩ := List.getElem?_eq_some_iff.mp left
  exact (List.getElem?_inj inside nodup).mp (left.trans right.symm)

theorem connectedAt_unique (once : ∀ m ∈ intercon.masters.values, m.listed.Nodup)
    (member : master ∈ intercon.masters.values) {i j i' j' : Nat}
    (first : ConnectedAt intercon master slave i j)
    (second : ConnectedAt intercon master slave i' j') : i = i' ∧ j = j' :=
  ⟨eq_of_getElem?_eq_some (nodup_slavesOf (once master member)) first.1 second.1,
    eq_of_getElem?_eq_some (nodup_mastersOf once slave) first.2 second.2⟩

/-- There is one way to follow a path that is open. -/
theorem connectedAt_exists_iff (once : ∀ m ∈ intercon.masters.values, m.listed.Nodup)
    (member : master ∈ intercon.masters.values) {i j : Nat}
    (connected : ConnectedAt intercon master slave i j) {passes : Nat → Nat → Prop}
    (through : passes i j) (path : Nat → Nat → List Hop) (hops : List Hop) :
    (∃ i' j', ConnectedAt intercon master slave i' j' ∧ passes i' j' ∧ hops = path i' j') ↔
      hops = path i j := by
  constructor
  · rintro ⟨i', j', also, -, rfl⟩
    obtain ⟨rfl, rfl⟩ := connectedAt_unique once member connected also
    rfl
  · rintro rfl
    exact ⟨i, j, connected, through, rfl⟩

theorem aligned_muxInstance {i : Nat} (listed : (intercon.slavesOf master)[i]? = some slave) :
    AlignedAt intercon master slave i := by
  constructor
  case request =>
      intro p signal
      refine ⟨(intercon.slavesOf master).map fun s => muxSlaveIdent intercon master s .m2s p, ?_, ?_⟩
      · simp [muxInstance, signal]
      · rw [List.getElem?_map, listed, Option.map_some]
  case response =>
      intro p signal
      refine ⟨(intercon.slavesOf master).map fun s => muxSlaveIdent intercon master s .s2m p, ?_, ?_⟩
      · simp [muxInstance, signal]
      · rw [List.getElem?_map, listed, Option.map_some]
  case parameters =>
      intro mux legal
      have nonneg := nonneg_of_muxParameters legal
      have member := List.mem_of_getElem? listed
      rw [muxParameters_eq nonneg (List.ne_nil_of_mem member), Option.some_inj] at legal
      subst legal
      rw [literal, if_pos (nonneg slave member)]
      simp [muxOf, listed]

/-! ## How many entries get through -/

/-- No mux and no arbiter has more than 32 entries. -/
structure Narrow (intercon : WbIntercon) : Prop where
  slaves : ∀ m ∈ intercon.masters.values, m.listed.length ≤ 32
  masters : ∀ s ∈ intercon.slaves.values, (intercon.mastersOf s).length ≤ 32

theorem Narrow.passesRequest (narrow : Narrow intercon) (member : master ∈ intercon.masters.values)
    (known : slave ∈ intercon.slaves.values) (p : WbSignal) (i j : Nat) :
    PassesRequest intercon master slave p i j := by
  have slaves := narrow.slaves master member
  have masters := narrow.masters slave known
  rw [← length_slavesOf member] at slaves
  exact ⟨Mux.passesRequest_of_lt p (by omega),
    fun _ => ArbiterCore.passesRequest_of_lt p (by omega)⟩

theorem Narrow.passesResponse (narrow : Narrow intercon)
    (member : master ∈ intercon.masters.values) (known : slave ∈ intercon.slaves.values)
    (p : WbSignal) (i j : Nat) : PassesResponse intercon master slave p i j := by
  have slaves := narrow.slaves master member
  have masters := narrow.masters slave known
  rw [← length_slavesOf member] at slaves
  exact ⟨fun _ => ArbiterCore.passesResponse_of_lt p (by omega),
    Mux.passesResponse_of_lt p (by omega)⟩

theorem crossbar_of_narrow (plain : Plain intercon)
    (once : ∀ m ∈ intercon.masters.values, m.listed.Nodup)
    (distinct : (write intercon).names.Nodup) (narrow : Narrow intercon)
    (names : PlainNames intercon) : Crossbar intercon := by
  have named := named_of_nodup plain distinct
  constructor
  case spelled => exact names.spelled
  case reaches_iff =>
      intro m member s known
      rw [← exists_connectedAt member known]
      constructor
      · rintro ⟨requests, -⟩
        obtain ⟨hops, route⟩ := requests .cyc (by decide)
        obtain ⟨i, j, connected, -⟩ :=
          (route_request_iff plain named member known (by decide) hops).mp route
        exact ⟨i, j, connected⟩
      · rintro ⟨i, j, connected⟩
        constructor
        · intro p signal
          exact ⟨_, (route_request_iff plain named member known signal _).mpr
            ⟨i, j, connected, narrow.passesRequest member known p i j, rfl⟩⟩
        · intro p signal
          exact ⟨_, (route_response_iff plain named member known signal _).mpr
            ⟨i, j, connected, narrow.passesResponse member known p i j, rfl⟩⟩
  case routes =>
      intro m member s known lists
      obtain ⟨i, j, connected⟩ := (exists_connectedAt member known).mpr lists
      refine ⟨i, j, connected, ?_, ?_⟩
      · intro p signal hops
        rw [route_request_iff plain named member known signal]
        exact connectedAt_exists_iff once member connected
          (narrow.passesRequest member known p i j) _ hops
      · intro p signal hops
        rw [route_response_iff plain named member known signal]
        exact connectedAt_exists_iff once member connected
          (narrow.passesResponse member known p i j) _ hops
  case apart =>
      intro m member s known unlisted p hops
      have none : ¬∃ i j, ConnectedAt intercon m s i j :=
        fun connected => unlisted ((exists_connectedAt member known).mp connected)
      constructor
      · intro signal route
        obtain ⟨i, j, connected, -⟩ :=
          (route_request_iff plain named member known signal hops).mp route
        exact none ⟨i, j, connected⟩
      · intro signal route
        obtain ⟨i, j, connected, -⟩ :=
          (route_response_iff plain named member known signal hops).mp route
        exact none ⟨i, j, connected⟩
  case aligned =>
      intro m _ i s listed
      exact aligned_muxInstance listed

/-- In a crossbar every access that is configured gets through. -/
theorem Crossbar.passesRequest (crossbar : Crossbar intercon) (plain : Plain intercon)
    (named : Named intercon) (once : ∀ m ∈ intercon.masters.values, m.listed.Nodup)
    (member : master ∈ intercon.masters.values) {i j : Nat}
    (connected : ConnectedAt intercon master slave i j) :
    PassesRequest intercon master slave .cyc i j := by
  obtain ⟨known, lists⟩ := mem_slavesOf.mp (List.mem_of_getElem? connected.1)
  obtain ⟨hops, route⟩ :=
    ((crossbar.reaches_iff master member slave known).mpr lists).1 .cyc (by decide)
  obtain ⟨i', j', also, passes, -⟩ :=
    (route_request_iff plain named member known (by decide) hops).mp route
  obtain ⟨rfl, rfl⟩ := connectedAt_unique once member connected also
  exact passes

/-- The first entries of a longer list are out of reach. -/
theorem narrow_of_crossbar (plain : Plain intercon)
    (once : ∀ m ∈ intercon.masters.values, m.listed.Nodup)
    (distinct : (write intercon).names.Nodup) (crossbar : Crossbar intercon) : Narrow intercon := by
  have named := named_of_nodup plain distinct
  constructor
  case slaves =>
      intro m member
      by_contra many
      rw [← length_slavesOf member] at many
      obtain ⟨s, first⟩ : ∃ s, (intercon.slavesOf m)[0]? = some s :=
        ⟨_, List.getElem?_eq_getElem (by omega)⟩
      obtain ⟨known, lists⟩ := mem_slavesOf.mp (List.mem_of_getElem? first)
      obtain ⟨j, place⟩ := List.mem_iff_getElem?.mp (mem_mastersOf.mpr ⟨member, lists⟩)
      have passes := crossbar.passesRequest plain named once member ⟨first, place⟩
      exact Mux.not_passesRequest_of_le (by omega) (by omega) passes.1
  case masters =>
      intro s known
      by_contra many
      obtain ⟨m, first⟩ : ∃ m, (intercon.mastersOf s)[0]? = some m :=
        ⟨_, List.getElem?_eq_getElem (by omega)⟩
      obtain ⟨member, lists⟩ := mem_mastersOf.mp (List.mem_of_getElem? first)
      obtain ⟨i, listed⟩ := List.mem_iff_getElem?.mp (mem_slavesOf.mpr ⟨known, lists⟩)
      have passes := crossbar.passesRequest plain named once member ⟨listed, first⟩
      exact ArbiterCore.not_passesRequest_of_le (by omega) (by omega) (passes.2 (by omega))

/-- Two masters that share a memory, and a slave of one of them. -/
def sharedConf : List Section :=
  [⟨"master cpu", [("slaves", "mem uart")]⟩,
   ⟨"master dbg", [("slaves", "mem")]⟩,
   ⟨"slave mem", [("size", "0x1000")]⟩,
   ⟨"slave uart", [("offset", "0x90000000"), ("size", "32")]⟩]

theorem maskOf_mem : (0xfffff000 : BitVec 32) = maskOf 0x1000 := by decide

theorem maskOf_uart : (0xffffffe0 : BitVec 32) = maskOf 32 := by decide

/-- What the generator makes of `sharedConf`. -/
def sharedIntercon : WbIntercon where
  masters := ⟨[{ name := "cpu", listed := ["mem", "uart"] }, { name := "dbg", listed := ["mem"] }],
    by decide⟩
  slaves := ⟨[{ name := "mem", size := 0x1000, mask := 0xfffff000, mask_of_size := maskOf_mem },
    { name := "uart", offset := 0x90000000, size := 32, mask := 0xffffffe0,
      mask_of_size := maskOf_uart }], by decide⟩
  slave_of_listed := by decide

/-- The names of 33 slaves. -/
def wideNames : List String := (List.range 33).map fun k => "s" ++ toString k

/-- A master of 33 slaves. -/
def wideConf : List Section :=
  ⟨"master cpu", [("slaves", " ".intercalate wideNames)]⟩ ::
    wideNames.map fun name => ⟨"slave " ++ name, [("size", "256")]⟩

theorem maskOf_256 : (0xffffff00 : BitVec 32) = maskOf 256 := by decide

/-- What the generator makes of `wideConf`. -/
def wideIntercon : WbIntercon where
  masters := ⟨[{ name := "cpu", listed := wideNames }], by decide⟩
  slaves := ⟨wideNames.map fun name =>
    { name, size := 256, mask := 0xffffff00, mask_of_size := maskOf_256 }, by decide +kernel⟩
  slave_of_listed := by decide +kernel

set_option maxRecDepth 40000 in
theorem load_wideConf : load wideConf = .ok wideIntercon := by rfl

theorem connectable_wideIntercon : Connectable wideIntercon where
  plain_names := ⟨by decide +kernel, by decide +kernel⟩
  lists_slave := by decide +kernel
  datawidth_pos := by decide +kernel
  datawidth_le := by decide +kernel
  avalon_slave := by decide +kernel
  names_differ := by decide +kernel
  wireNames_differ := by decide +kernel

end OrpsocCores.WbIntercon
