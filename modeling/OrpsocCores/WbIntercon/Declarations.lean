import OrpsocCores.WbIntercon.Drivers

/-!
# The declarations of the generated module

Wires are named after the entries of `wireNames`, ports after masters and slaves, so
that distinct entries and names give distinct declarations (`nodup_declared`).  Every
identifier in a connection is declared with the width its pin asks for (`Fits`).  With
the drivers this makes the module well formed (`write_wellFormed`).
-/

set_option autoImplicit false

namespace OrpsocCores.WbIntercon

variable {intercon : WbIntercon} {master : Master} {slave : Slave}

/-! ## Declarations have different names -/

/-- The wires of one connection. -/
def bundle (name : String) : List Ident :=
  toSlave (Ident.wire · name ·) ++ toMaster (Ident.wire · name ·)

theorem mem_bundle {name : String} {id : Ident} (member : id ∈ bundle name) :
    ∃ flow p, id = .wire flow name p := by
  rcases List.mem_append.mp member with forth | back
  · obtain ⟨p, -, rfl⟩ := List.mem_map.mp forth
    exact ⟨.m2s, p, rfl⟩
  · obtain ⟨p, -, rfl⟩ := List.mem_map.mp back
    exact ⟨.s2m, p, rfl⟩

theorem nodup_bundle (name : String) : (bundle name).Nodup := by
  simp [bundle, toSlave, toMaster, wbMasterPorts, wbSlavePorts]

theorem wires_write : (write intercon).wires.map Wire.ident =
    (wireNames intercon).flatMap bundle := by
  have masters : ∀ m, (writeMaster intercon m).wires.map Wire.ident =
      (if m.busType = .avalon then [m.name] else []).flatMap bundle := by
    intro m
    rw [writeMaster]
    cases m.busType with
    | wishbone => rfl
    | avalon => exact (List.append_nil _).symm
  have slaves : ∀ s, (writeSlave intercon s).wires.map Wire.ident =
      ((if s.datawidth < 32 then ["resize_" ++ s.name] else []) ++
        if s.busType = .avalon then [s.name] else []).flatMap bundle := by
    intro s
    have arbiter : ∀ condition,
        (VerilogWriter.guarded condition (genArbiter intercon s)).wires = [] := by
      intro condition
      cases condition <;> rfl
    rw [writeSlave, VerilogWriter.wires_append, VerilogWriter.wires_append, arbiter,
      List.nil_append, List.map_append, List.flatMap_append]
    congr 1
    · by_cases narrow : s.datawidth < 32
      · rw [decide_eq_true narrow, if_pos narrow]
        exact (List.append_nil _).symm
      · rw [decide_eq_false narrow, if_neg narrow]
        rfl
    · cases s.busType with
      | wishbone => rfl
      | avalon => exact (List.append_nil _).symm
  have connections : ∀ m s, (connectionWires intercon m s).wires.map Wire.ident =
      (if 1 < (intercon.mastersOf s).length then [m.name ++ "_" ++ s.name] else []).flatMap
        bundle := by
    intro m s
    rw [connectionWires]
    by_cases several : 1 < (intercon.mastersOf s).length
    · rw [decide_eq_true several, if_pos several]
      exact (List.append_nil _).symm
    · rw [decide_eq_false several, if_neg several]
      rfl
  simp only [write, VerilogWriter.wires_append, VerilogWriter.wires_join, List.map_append,
    List.map_flatMap, masters, slaves, connections, wireNames, List.flatMap_append,
    List.flatMap_assoc, List.append_nil]

theorem nodup_wires (handled : Connectable intercon) :
    ((write intercon).wires.map Wire.ident).Nodup := by
  rw [wires_write]
  refine List.nodup_flatMap.mpr ⟨fun name _ => nodup_bundle name, ?_⟩
  refine handled.wireNames_differ.imp ?_
  intro name name' differ id left right
  obtain ⟨flow, p, rfl⟩ := mem_bundle left
  obtain ⟨flow', p', same⟩ := mem_bundle right
  cases same
  exact differ rfl

/-- The port identifiers of a master. -/
def masterPorts (master : Master) : List Ident :=
  match master.busType with
  | .wishbone => (wbMasterPorts.map (.port master.name · .input)) ++
      wbSlavePorts.map (.port master.name · .output)
  | .avalon => (avalonMasterPorts.map (avalonIdent true master.name .m2s)) ++
      avalonSlavePorts.map (avalonIdent true master.name .s2m)

/-- The port identifiers of a slave. -/
def slavePorts (slave : Slave) : List Ident :=
  match slave.busType with
  | .wishbone => (wbMasterPorts.map (.port slave.name · .output)) ++
      wbSlavePorts.map (.port slave.name · .input)
  | .avalon => (avalonMasterPorts.map (avalonIdent false slave.name .m2s)) ++
      avalonSlavePorts.map (avalonIdent false slave.name .s2m)

theorem mem_masterPorts {id : Ident} (member : id ∈ masterPorts master) :
    (master.busType = .wishbone ∧ ∃ p dir, id = .port master.name p dir) ∨
      ∃ p dir, id = .avPort .s master.name p dir := by
  rw [masterPorts] at member
  cases kind : master.busType with
  | wishbone =>
      rw [kind] at member
      rcases List.mem_append.mp member with ins | outs
      · obtain ⟨p, -, rfl⟩ := List.mem_map.mp ins
        exact Or.inl ⟨rfl, p, .input, rfl⟩
      · obtain ⟨p, -, rfl⟩ := List.mem_map.mp outs
        exact Or.inl ⟨rfl, p, .output, rfl⟩
  | avalon =>
      rw [kind] at member
      rcases List.mem_append.mp member with ins | outs
      · obtain ⟨p, -, rfl⟩ := List.mem_map.mp ins
        exact Or.inr ⟨p, _, rfl⟩
      · obtain ⟨p, -, rfl⟩ := List.mem_map.mp outs
        exact Or.inr ⟨p, _, rfl⟩

theorem mem_slavePorts {id : Ident} (member : id ∈ slavePorts slave) :
    (slave.busType = .wishbone ∧ ∃ p dir, id = .port slave.name p dir) ∨
      ∃ p dir, id = .avPort .m slave.name p dir := by
  rw [slavePorts] at member
  cases kind : slave.busType with
  | wishbone =>
      rw [kind] at member
      rcases List.mem_append.mp member with outs | ins
      · obtain ⟨p, -, rfl⟩ := List.mem_map.mp outs
        exact Or.inl ⟨rfl, p, .output, rfl⟩
      · obtain ⟨p, -, rfl⟩ := List.mem_map.mp ins
        exact Or.inl ⟨rfl, p, .input, rfl⟩
  | avalon =>
      rw [kind] at member
      rcases List.mem_append.mp member with outs | ins
      · obtain ⟨p, -, rfl⟩ := List.mem_map.mp outs
        exact Or.inr ⟨p, _, rfl⟩
      · obtain ⟨p, -, rfl⟩ := List.mem_map.mp ins
        exact Or.inr ⟨p, _, rfl⟩

theorem nodup_masterPorts (master : Master) : (masterPorts master).Nodup := by
  rw [masterPorts]
  cases master.busType with
  | wishbone => simp [wbMasterPorts, wbSlavePorts]
  | avalon => simp [avalonMasterPorts, avalonSlavePorts, avalonIdent]

theorem nodup_slavePorts (slave : Slave) : (slavePorts slave).Nodup := by
  rw [slavePorts]
  cases slave.busType with
  | wishbone => simp [wbMasterPorts, wbSlavePorts]
  | avalon => simp [avalonMasterPorts, avalonSlavePorts, avalonIdent]

theorem ports_write : (write intercon).ports.map ModulePort.ident =
    [.clk, .rst] ++ intercon.masters.values.flatMap masterPorts ++
      intercon.slaves.values.flatMap slavePorts := by
  have masters : ∀ m, (writeMaster intercon m).ports.map ModulePort.ident = masterPorts m := by
    intro m
    rw [writeMaster, masterPorts]
    cases m.busType <;> rfl
  have slaves : ∀ s, (writeSlave intercon s).ports.map ModulePort.ident = slavePorts s := by
    intro s
    have arbiter : ∀ condition,
        (VerilogWriter.guarded condition (genArbiter intercon s)).ports = [] := by
      intro condition
      cases condition <;> rfl
    have resize : ∀ condition, (VerilogWriter.guarded condition (genResize s)).ports = [] := by
      intro condition
      cases condition <;> rfl
    rw [writeSlave, VerilogWriter.ports_append, VerilogWriter.ports_append, arbiter, resize,
      slavePorts]
    cases s.busType <;> rfl
  have connections : ∀ m s, (connectionWires intercon m s).ports = [] := by
    intro m s
    rw [connectionWires]
    cases decide (1 < (intercon.mastersOf s).length) <;> rfl
  have silent : (intercon.masters.values.flatMap fun m =>
      (intercon.slavesOf m).flatMap fun _ => ([] : List Ident)) = [] := by simp
  simp only [write, VerilogWriter.ports_append, VerilogWriter.ports_join, List.map_append,
    List.map_flatMap, masters, slaves, connections, List.map_nil, List.map_cons, silent,
    List.nil_append]

/-- Ports that are named after their owners are different for different names. -/
theorem nodup_flatMap_ports {α : Type} {name : α → String} (owners : OrderedDict name)
    {ports : α → List Ident} {side : AvSide} (each : ∀ a, (ports a).Nodup)
    (named : ∀ a, ∀ id ∈ ports a, (∃ p dir, id = .port (name a) p dir) ∨
      ∃ p dir, id = .avPort side (name a) p dir) :
    (owners.values.flatMap ports).Nodup := by
  refine List.nodup_flatMap.mpr ⟨fun a _ => each a, ?_⟩
  refine (List.pairwise_map.mp owners.nodup_keys).imp ?_
  intro a b differ id left right
  rcases named a id left with ⟨p, dir, rfl⟩ | ⟨p, dir, rfl⟩
  · rcases named b _ right with ⟨p', dir', same⟩ | ⟨p', dir', same⟩
    · exact differ (Ident.port.inj same).1
    · cases same
  · rcases named b _ right with ⟨p', dir', same⟩ | ⟨p', dir', same⟩
    · cases same
    · exact differ (Ident.avPort.inj same).2.1

theorem nodup_ports (handled : Connectable intercon) :
    ((write intercon).ports.map ModulePort.ident).Nodup := by
  have masters : (intercon.masters.values.flatMap masterPorts).Nodup :=
    nodup_flatMap_ports intercon.masters nodup_masterPorts fun m id member =>
      (mem_masterPorts member).imp_left And.right
  have slaves : (intercon.slaves.values.flatMap slavePorts).Nodup :=
    nodup_flatMap_ports intercon.slaves nodup_slavePorts fun s id member =>
      (mem_slavePorts member).imp_left And.right
  have apart : List.Disjoint (intercon.masters.values.flatMap masterPorts)
      (intercon.slaves.values.flatMap slavePorts) := by
    intro id left right
    obtain ⟨m, master, left⟩ := List.mem_flatMap.mp left
    obtain ⟨s, slave, right⟩ := List.mem_flatMap.mp right
    rcases mem_masterPorts left with ⟨kind, p, dir, rfl⟩ | ⟨p, dir, rfl⟩ <;>
      rcases mem_slavePorts right with ⟨kind', p', dir', same⟩ | ⟨p', dir', same⟩
    · exact handled.names_differ m master s slave kind kind' (Ident.port.inj same).1
    · cases same
    · cases same
    · cases same
  rw [ports_write, List.append_assoc]
  refine List.Nodup.append (by decide) (masters.append slaves apart) ?_
  intro id clock port
  rcases List.mem_append.mp port with left | right
  · obtain ⟨m, -, left⟩ := List.mem_flatMap.mp left
    rcases mem_masterPorts left with ⟨-, p, dir, rfl⟩ | ⟨p, dir, rfl⟩ <;> simp at clock
  · obtain ⟨s, -, right⟩ := List.mem_flatMap.mp right
    rcases mem_slavePorts right with ⟨-, p, dir, rfl⟩ | ⟨p, dir, rfl⟩ <;> simp at clock

/-- Ports and wires have texts of different shape. -/
theorem nodup_declared (handled : Connectable intercon) :
    ((write intercon).declarations.map Prod.fst).Nodup := by
  have split : (write intercon).declarations.map Prod.fst =
      (write intercon).ports.map ModulePort.ident ++ (write intercon).wires.map Wire.ident := by
    rw [VerilogWriter.declarations, List.map_append, List.map_map, List.map_map]
    rfl
  rw [split]
  refine List.Nodup.append (nodup_ports handled) (nodup_wires handled) ?_
  intro id port wire
  rw [wires_write] at wire
  obtain ⟨name, -, wire⟩ := List.mem_flatMap.mp wire
  obtain ⟨flow, q, rfl⟩ := mem_bundle wire
  rw [ports_write, List.append_assoc] at port
  rcases List.mem_append.mp port with clock | port
  · simp at clock
  · rcases List.mem_append.mp port with left | right
    · obtain ⟨m, -, left⟩ := List.mem_flatMap.mp left
      rcases mem_masterPorts left with ⟨-, p, dir, same⟩ | ⟨p, dir, same⟩ <;> cases same
    · obtain ⟨s, -, right⟩ := List.mem_flatMap.mp right
      rcases mem_slavePorts right with ⟨-, p, dir, same⟩ | ⟨p, dir, same⟩ <;> cases same

/-! ## What is declared -/

/-- The signals of a direction. -/
def Flow.signals : Flow → List WbSignal
  | .m2s => wbMasterPorts
  | .s2m => wbSlavePorts

/-- An identifier is declared with a number of bits. -/
def Typed (intercon : WbIntercon) (id : Ident) (k : Nat) : Prop :=
  ∃ width, (id, width) ∈ (write intercon).declarations ∧ VerilogWriter.bits width = k

theorem typed_of_port {port : ModulePort} (member : port ∈ (write intercon).ports) :
    Typed intercon port.ident (VerilogWriter.bits port.width) :=
  ⟨port.width, List.mem_append_left _ (List.mem_map_of_mem member), rfl⟩

theorem typed_of_wire {wire : Wire} (member : wire ∈ (write intercon).wires) :
    Typed intercon wire.ident (VerilogWriter.bits wire.width) :=
  ⟨wire.width, List.mem_append_right _ (List.mem_map_of_mem member), rfl⟩

theorem mem_bundleWires (ident : Flow → WbSignal → Ident) (width : WbSignal → Int) {flow : Flow}
    {p : WbSignal} (member : p ∈ flow.signals) :
    (⟨ident flow p, width p⟩ : Wire) ∈ bundleWires ident width := by
  cases flow with
  | m2s => exact List.mem_append_left _ (List.mem_map_of_mem member)
  | s2m => exact List.mem_append_right _ (List.mem_map_of_mem member)

theorem bits_width (p : WbSignal) :
    VerilogWriter.bits p.width = vector (wbBits 32 4 p) := by
  cases p <;> rfl

theorem bits_avWidth (p : AvSignal) : VerilogWriter.bits p.width = vector (avBits 32 p) := by
  cases p <;> rfl

theorem bits_dataWidth {datawidth : Int} (positive : 0 < datawidth) (p : WbSignal) :
    VerilogWriter.bits (dataWidth datawidth p) = vector (wbBits datawidth 4 p) := by
  by_cases data : p = .dat
  · rw [dataWidth, if_pos ⟨data, by omega⟩, data, VerilogWriter.bits, if_pos positive, vector,
      wbBits]
    omega
  · rw [dataWidth, if_neg (fun both => data both.1), bits_width]
    cases p <;> first | rfl | exact absurd rfl data

theorem dataWidth_full (p : WbSignal) : dataWidth 32 p = p.width := by
  cases p <;> rfl

theorem mem_ports_write {port : ModulePort}
    (part : (∃ m ∈ intercon.masters.values, port ∈ (writeMaster intercon m).ports) ∨
      ∃ s ∈ intercon.slaves.values, port ∈ (writeSlave intercon s).ports) :
    port ∈ (write intercon).ports := by
  simp only [write, VerilogWriter.ports_append, VerilogWriter.ports_join, List.mem_append,
    List.mem_flatMap]
  rcases part with master | slave
  · exact Or.inl (Or.inr master)
  · exact Or.inr slave

theorem mem_wires_write {wire : Wire}
    (part : (∃ m ∈ intercon.masters.values, wire ∈ (writeMaster intercon m).wires) ∨
      (∃ s ∈ intercon.slaves.values, wire ∈ (writeSlave intercon s).wires) ∨
      ∃ m ∈ intercon.masters.values, ∃ s ∈ intercon.slavesOf m,
        wire ∈ (connectionWires intercon m s).wires) :
    wire ∈ (write intercon).wires := by
  simp only [write, VerilogWriter.wires_append, VerilogWriter.wires_join, List.mem_append,
    List.mem_flatMap]
  rcases part with master | slave | connection
  · exact Or.inl (Or.inr master)
  · exact Or.inr slave
  · exact Or.inl (Or.inl (Or.inl connection))

theorem typed_masterIdent (member : master ∈ intercon.masters.values) {flow : Flow}
    {p : WbSignal} (signal : p ∈ flow.signals) :
    Typed intercon (masterIdent master flow p) (vector (wbBits 32 4 p)) := by
  rw [masterIdent, ← bits_width]
  cases kind : master.busType with
  | wishbone =>
      have port : (⟨.port master.name p flow.masterDirection, flow.masterDirection, p.width⟩ :
          ModulePort) ∈ (writeMaster intercon master).ports := by
        rw [writeMaster, kind, VerilogWriter.ports_append]
        refine List.mem_append_right _ ?_
        cases flow with
        | m2s => exact List.mem_append_left _ (List.mem_map_of_mem signal)
        | s2m => exact List.mem_append_right _ (List.mem_map_of_mem signal)
      exact typed_of_port (mem_ports_write (Or.inl ⟨master, member, port⟩))
  | avalon =>
      have wire : (⟨.wire flow master.name p, dataWidth master.datawidth p⟩ : Wire) ∈
          (writeMaster intercon master).wires := by
        rw [writeMaster, kind, VerilogWriter.wires_append]
        exact List.mem_append_right _
          (mem_bundleWires (Ident.wire · master.name ·) (dataWidth master.datawidth) signal)
      rw [← dataWidth_full]
      exact typed_of_wire (mem_wires_write (Or.inl ⟨master, member, wire⟩))

theorem typed_connectionIdent (member : master ∈ intercon.masters.values)
    (listed : slave ∈ intercon.slavesOf master) (several : 1 < (intercon.mastersOf slave).length)
    {flow : Flow} {p : WbSignal} (signal : p ∈ flow.signals) :
    Typed intercon (connectionIdent master slave flow p) (vector (wbBits 32 4 p)) := by
  have wire : (⟨connectionIdent master slave flow p, p.width⟩ : Wire) ∈
      (connectionWires intercon master slave).wires := by
    rw [connectionWires, decide_eq_true several]
    exact mem_bundleWires (connectionIdent master slave) WbSignal.width signal
  rw [← bits_width]
  exact typed_of_wire (mem_wires_write (Or.inr (Or.inr ⟨master, member, slave, listed, wire⟩)))

theorem typed_resizeIdent (member : slave ∈ intercon.slaves.values)
    (narrow : slave.datawidth < 32) {flow : Flow} {p : WbSignal} (signal : p ∈ flow.signals) :
    Typed intercon (resizeIdent slave flow p) (vector (wbBits 32 4 p)) := by
  have wire : (⟨resizeIdent slave flow p, p.width⟩ : Wire) ∈ (writeSlave intercon slave).wires := by
    rw [writeSlave, VerilogWriter.wires_append, VerilogWriter.wires_append,
      decide_eq_true narrow]
    exact List.mem_append_left _ (List.mem_append_right _
      (mem_bundleWires (resizeIdent slave) WbSignal.width signal))
  rw [← bits_width]
  exact typed_of_wire (mem_wires_write (Or.inr (Or.inl ⟨slave, member, wire⟩)))

theorem typed_slaveIdent (handled : Connectable intercon)
    (member : slave ∈ intercon.slaves.values) {flow : Flow} {p : WbSignal}
    (signal : p ∈ flow.signals) :
    Typed intercon (slaveIdent slave flow p) (vector (wbBits slave.datawidth 4 p)) := by
  rw [slaveIdent, ← bits_dataWidth (handled.datawidth_pos slave member)]
  cases kind : slave.busType with
  | wishbone =>
      have port : (⟨.port slave.name p flow.slaveDirection, flow.slaveDirection,
          dataWidth slave.datawidth p⟩ : ModulePort) ∈ (writeSlave intercon slave).ports := by
        rw [writeSlave, kind, VerilogWriter.ports_append]
        refine List.mem_append_right _ ?_
        cases flow with
        | m2s => exact List.mem_append_left _ (List.mem_map_of_mem signal)
        | s2m => exact List.mem_append_right _ (List.mem_map_of_mem signal)
      exact typed_of_port (mem_ports_write (Or.inr ⟨slave, member, port⟩))
  | avalon =>
      have wire : (⟨.wire flow slave.name p, dataWidth slave.datawidth p⟩ : Wire) ∈
          (writeSlave intercon slave).wires := by
        rw [writeSlave, kind, VerilogWriter.wires_append]
        exact List.mem_append_right _
          (mem_bundleWires (Ident.wire · slave.name ·) (dataWidth slave.datawidth) signal)
      exact typed_of_wire (mem_wires_write (Or.inr (Or.inl ⟨slave, member, wire⟩)))

theorem typed_arbiterSlaveIdent (handled : Connectable intercon)
    (member : slave ∈ intercon.slaves.values) {flow : Flow} {p : WbSignal}
    (signal : p ∈ flow.signals) :
    Typed intercon (arbiterSlaveIdent slave flow p) (vector (wbBits 32 4 p)) := by
  by_cases full : slave.datawidth = 32
  · rw [arbiterSlaveIdent_full full, ← full]
    exact typed_slaveIdent handled member signal
  · have within := handled.datawidth_le slave member
    have narrow : slave.datawidth < 32 := by omega
    rw [arbiterSlaveIdent_narrow narrow]
    exact typed_resizeIdent member narrow signal

theorem typed_clk : Typed intercon .clk 1 :=
  ⟨0, List.mem_append_left _ (by simp [write, VerilogWriter.ports_append]), rfl⟩

theorem typed_rst : Typed intercon .rst 1 :=
  ⟨0, List.mem_append_left _ (by simp [write, VerilogWriter.ports_append]), rfl⟩

/-! ## Connections fit their pins -/

/-- All identifiers of a connection have one width, and together that of the pin. -/
def Fits (intercon : WbIntercon) (core : Core) (c : Pin × List Ident) : Prop :=
  ∃ k, (∀ id ∈ c.2, Typed intercon id k) ∧ (c.1, c.2.length * k) ∈ core.header

theorem Fits.one {core : Core} {pin : Pin} {id : Ident} {k : Nat} (typed : Typed intercon id k)
    (header : (pin, k) ∈ core.header) : Fits intercon core (pin, [id]) := by
  refine ⟨k, fun other member => ?_, ?_⟩
  · rwa [List.mem_singleton.mp member]
  · rwa [List.length_singleton, Nat.one_mul]

theorem Fits.many {α : Type} {core : Core} {pin : Pin} {others : List α} {ident : α → Ident}
    {n : Int} (nonempty : others ≠ []) (positive : 0 < n)
    (typed : ∀ x ∈ others, Typed intercon (ident x) (vector n))
    (header : (pin, vector (others.length * n)) ∈ core.header) :
    Fits intercon core (pin, others.map ident) := by
  refine ⟨vector n, ?_, ?_⟩
  · intro id member
    obtain ⟨x, inside, rfl⟩ := List.mem_map.mp member
    exact typed x inside
  · have length : 0 < others.length := List.length_pos_iff.mpr nonempty
    have product : vector (others.length * n) = others.length * vector n := by
      have width : (vector n : Int) = n := by rw [vector]; omega
      have whole : (0 : Int) < others.length * n := Int.mul_pos (by omega) positive
      have total : (vector (others.length * n) : Int) = others.length * n := by
        rw [vector]
        omega
      apply Int.ofNat_inj.mp
      rw [total, Int.natCast_mul, width]
    rwa [List.length_map, ← product]

theorem wbBits_pos (p : WbSignal) : 0 < wbBits 32 4 p := by
  cases p <;> decide

theorem fits_muxInstance (handled : Connectable intercon)
    (member : master ∈ intercon.masters.values) :
    ∀ c ∈ (muxInstance intercon master).ports,
      Fits intercon (muxInstance intercon master).core c := by
  have nonempty : intercon.slavesOf master ≠ [] := by
    rw [← List.length_pos_iff, length_slavesOf member, List.length_pos_iff]
    exact handled.lists_slave master member
  have slaves : ∀ flow, ∀ p ∈ flow.signals, ∀ s ∈ intercon.slavesOf master,
      Typed intercon (muxSlaveIdent intercon master s flow p) (vector (wbBits 32 4 p)) := by
    intro flow p signal s listed
    have known := (mem_slavesOf.mp listed).1
    have positive := length_mastersOf_pos member listed
    rw [muxSlaveIdent_eq handled known]
    split
    case isTrue => exact typed_arbiterSlaveIdent handled known signal
    case isFalse single =>
        exact typed_connectionIdent member listed (by omega) signal
  simp only [muxInstance, List.forall_mem_append, List.forall_mem_map, List.forall_mem_cons]
  refine ⟨⟨⟨⟨⟨Fits.one typed_clk ?_, Fits.one typed_rst ?_, ?_⟩, ?_⟩, ?_⟩, ?_⟩, ?_⟩
  · simp [Core.header]
  · simp [Core.header]
  · simp
  · exact fun p signal => Fits.one (typed_masterIdent member signal) (by simp [Core.header, signal])
  · exact fun p signal => Fits.one (typed_masterIdent member signal) (by simp [Core.header, signal])
  · exact fun p signal => Fits.many nonempty (wbBits_pos p) (slaves .m2s p signal)
      (by simp [Core.header, signal])
  · exact fun p signal => Fits.many nonempty (wbBits_pos p) (slaves .s2m p signal)
      (by simp [Core.header, signal])

theorem fits_arbiterInstance (handled : Connectable intercon)
    (member : slave ∈ intercon.slaves.values) (several : 1 < (intercon.mastersOf slave).length) :
    ∀ c ∈ (arbiterInstance intercon slave).ports,
      Fits intercon (arbiterInstance intercon slave).core c := by
  have nonempty : intercon.mastersOf slave ≠ [] := List.ne_nil_of_length_pos (by omega)
  have masters : ∀ flow, ∀ p ∈ flow.signals, ∀ m ∈ intercon.mastersOf slave,
      Typed intercon (connectionIdent m slave flow p) (vector (wbBits 32 4 p)) := by
    intro flow p signal m known
    obtain ⟨inside, listed⟩ := mem_mastersOf.mp known
    exact typed_connectionIdent inside (mem_slavesOf.mpr ⟨member, listed⟩) several signal
  simp only [arbiterInstance, List.forall_mem_append, List.forall_mem_map, List.forall_mem_cons]
  refine ⟨⟨⟨⟨⟨Fits.one typed_clk ?_, Fits.one typed_rst ?_, ?_⟩, ?_⟩, ?_⟩, ?_⟩, ?_⟩
  · simp [Core.header]
  · simp [Core.header]
  · simp
  · exact fun p signal => Fits.many nonempty (wbBits_pos p) (masters .m2s p signal)
      (by simp [Core.header, signal])
  · exact fun p signal => Fits.many nonempty (wbBits_pos p) (masters .s2m p signal)
      (by simp [Core.header, signal])
  · exact fun p signal => Fits.one (typed_arbiterSlaveIdent handled member signal)
      (by simp [Core.header, signal])
  · exact fun p signal => Fits.one (typed_arbiterSlaveIdent handled member signal)
      (by simp [Core.header, signal])

theorem fits_resizeInstance (handled : Connectable intercon)
    (member : slave ∈ intercon.slaves.values) (narrow : slave.datawidth < 32) :
    ∀ c ∈ (resizeInstance slave).ports, Fits intercon (resizeInstance slave).core c := by
  simp only [resizeInstance, List.forall_mem_append, List.forall_mem_map]
  refine ⟨⟨⟨?_, ?_⟩, ?_⟩, ?_⟩
  · exact fun p signal => Fits.one (typed_resizeIdent member narrow signal)
      (by simp [Core.header, signal])
  · exact fun p signal => Fits.one (typed_resizeIdent member narrow signal)
      (by simp [Core.header, signal])
  · intro p kept
    obtain ⟨signal, select⟩ := List.mem_filter.mp kept
    exact Fits.one (typed_slaveIdent handled member signal)
      (by simp [Core.header, signal, of_decide_eq_true select])
  · exact fun p signal => Fits.one (typed_slaveIdent handled member signal)
      (by simp [Core.header, signal])

/-- The Avalon ports of a bridge are declared. -/
theorem typed_avalonIdent {name : String} {isMaster : Bool}
    (part : ∀ port ∈ (genAvalonPort name isMaster 32).ports, port ∈ (write intercon).ports)
    {flow : Flow} {p : AvSignal}
    (signal : p ∈ match flow with | .m2s => avalonMasterPorts | .s2m => avalonSlavePorts) :
    Typed intercon (avalonIdent isMaster name flow p) (vector (avBits 32 p)) := by
  have port : (⟨avalonIdent isMaster name flow p, avalonDirection isMaster flow, p.width⟩ :
      ModulePort) ∈ (genAvalonPort name isMaster 32).ports := by
    cases flow with
    | m2s => exact List.mem_append_left _ (List.mem_map_of_mem signal)
    | s2m => exact List.mem_append_right _ (List.mem_map_of_mem signal)
  rw [← bits_avWidth]
  exact typed_of_port (part _ port)

theorem fits_converterPorts {name : String} {isMaster : Bool} {core : Core}
    (kind : core = if isMaster then .avalonToWbBridge 32 else .wbToAvalonBridge 32)
    (wires : ∀ flow, ∀ p ∈ flow.signals, Typed intercon (.wire flow name p) (vector (wbBits 32 4 p)))
    (ports : ∀ port ∈ (genAvalonPort name isMaster 32).ports, port ∈ (write intercon).ports) :
    ∀ c ∈ converterPorts name isMaster, Fits intercon core c := by
  simp only [converterPorts, List.forall_mem_append, List.forall_mem_map, List.forall_mem_cons]
  refine ⟨⟨⟨⟨⟨Fits.one typed_clk ?_, Fits.one typed_rst ?_, ?_⟩, ?_⟩, ?_⟩, ?_⟩, ?_⟩
  · cases isMaster <;> simp [kind, Core.header]
  · cases isMaster <;> simp [kind, Core.header]
  · simp
  · refine fun p signal => Fits.one (wires .m2s p signal) ?_
    cases isMaster <;> simp [kind, Core.header, signal, bridgePin, bridgeDirection]
  · refine fun p signal => Fits.one (wires .s2m p signal) ?_
    cases isMaster <;> simp [kind, Core.header, signal, bridgePin, bridgeDirection]
  · refine fun p signal => Fits.one (typed_avalonIdent ports signal) ?_
    cases isMaster <;> simp [kind, Core.header, signal, avalonSide, avalonDirection]
  · refine fun p signal => Fits.one (typed_avalonIdent ports signal) ?_
    cases isMaster <;> simp [kind, Core.header, signal, avalonSide, avalonDirection]

/-- Every connection of the module fits. -/
theorem fits_write (handled : Connectable intercon) :
    ∀ inst ∈ (write intercon).instances, ∀ c ∈ inst.ports, Fits intercon inst.core c := by
  have masters : ∀ m ∈ intercon.masters.values, ∀ inst ∈ (writeMaster intercon m).instances,
      ∀ c ∈ inst.ports, Fits intercon inst.core c := by
    intro m member inst added
    rw [writeMaster, VerilogWriter.instances_append] at added
    rcases List.mem_append.mp added with mux | bridge
    · obtain rfl := List.mem_singleton.mp mux
      exact fits_muxInstance handled member
    · cases kind : m.busType with
      | wishbone =>
          rw [kind] at bridge
          exact absurd bridge List.not_mem_nil
      | avalon =>
          rw [kind] at bridge
          obtain rfl := List.mem_singleton.mp bridge
          refine fits_converterPorts rfl (fun flow p signal => ?_) fun port declared =>
            mem_ports_write (Or.inl ⟨m, member, ?_⟩)
          · have typed := typed_masterIdent member signal
            rwa [masterIdent, kind] at typed
          · rw [writeMaster, kind]
            exact declared
  have slaves : ∀ s ∈ intercon.slaves.values, ∀ inst ∈ (writeSlave intercon s).instances,
      ∀ c ∈ inst.ports, Fits intercon inst.core c := by
    intro s member inst added
    rw [writeSlave, VerilogWriter.instances_append, VerilogWriter.instances_append] at added
    rcases List.mem_append.mp added with inner | bridge
    · rcases List.mem_append.mp inner with arbiter | resize
      · by_cases several : 1 < (intercon.mastersOf s).length
        · rw [decide_eq_true several] at arbiter
          obtain rfl := List.mem_singleton.mp arbiter
          exact fits_arbiterInstance handled member several
        · rw [decide_eq_false several] at arbiter
          exact absurd arbiter List.not_mem_nil
      · by_cases narrow : s.datawidth < 32
        · rw [decide_eq_true narrow] at resize
          obtain rfl := List.mem_singleton.mp resize
          exact fits_resizeInstance handled member narrow
        · rw [decide_eq_false narrow] at resize
          exact absurd resize List.not_mem_nil
    · cases kind : s.busType with
      | wishbone =>
          rw [kind] at bridge
          exact absurd bridge List.not_mem_nil
      | avalon =>
          have full := (handled.avalon_slave s member kind).1
          rw [kind, full] at bridge
          obtain rfl := List.mem_singleton.mp bridge
          refine fits_converterPorts rfl (fun flow p signal => ?_) fun port declared =>
            mem_ports_write (Or.inr ⟨s, member, ?_⟩)
          · have typed := typed_slaveIdent handled member signal
            rwa [slaveIdent, kind, full] at typed
          · rw [writeSlave, kind, full]
            exact List.mem_append_right _ declared
  intro inst added
  simp only [write, VerilogWriter.instances_append, VerilogWriter.instances_join, List.mem_append,
    List.mem_flatMap] at added
  rcases added with ((⟨m, -, s, -, connection⟩ | clock) | ⟨m, member, master⟩) | ⟨s, member, slave⟩
  · rw [connectionWires] at connection
    cases several : decide (1 < (intercon.mastersOf s).length) <;>
      exact absurd (several ▸ connection) List.not_mem_nil
  · exact absurd clock List.not_mem_nil
  · exact masters m member inst master
  · exact slaves s member inst slave

/-! ## The module is well formed -/

theorem names_eq (net : VerilogWriter) :
    net.names = (net.declarations.map Prod.fst).map Ident.text := by
  rw [VerilogWriter.names, List.map_map]
  rfl

theorem nodup_names (handled : Connectable intercon) : (write intercon).names.Nodup := by
  rw [names_eq]
  exact (nodup_declared handled).map Ident.text_injective

theorem Typed.mem {id : Ident} {k : Nat} (typed : Typed intercon id k) :
    id ∈ (write intercon).declarations.map Prod.fst := by
  obtain ⟨width, member, -⟩ := typed
  exact List.mem_map_of_mem member

theorem Typed.bitsOf_eq (handled : Connectable intercon) {id : Ident} {k : Nat}
    (typed : Typed intercon id k) : (write intercon).bitsOf id = k := by
  obtain ⟨width, member, rfl⟩ := typed
  obtain ⟨⟨other, width'⟩, found⟩ : ∃ d, (write intercon).declarations.find?
      (fun d => d.1.text = id.text) = some d := by
    rw [← Option.isSome_iff_exists, List.find?_isSome]
    exact ⟨(id, width), member, decide_eq_true rfl⟩
  have same : other = id := Ident.text_injective (by simpa using List.find?_some found)
  have equal : (other, width') = (id, width) := List.inj_on_of_nodup_map (nodup_declared handled)
    (List.mem_of_find?_eq_some found) member same
  rw [VerilogWriter.bitsOf, found, equal]
  rfl

theorem Fits.sum_eq (handled : Connectable intercon) {core : Core} {c : Pin × List Ident}
    (fits : Fits intercon core c) :
    (c.1, (c.2.map (write intercon).bitsOf).sum) ∈ core.header := by
  obtain ⟨k, typed, header⟩ := fits
  have bits : c.2.map (write intercon).bitsOf = c.2.map fun _ => k :=
    List.map_congr_left fun id member => (typed id member).bitsOf_eq handled
  rwa [bits, List.map_const', List.sum_replicate_nat]

/-- Wires and outputs are among the declarations. -/
theorem nodup_signals (handled : Connectable intercon) : (write intercon).signals.Nodup := by
  have declared : ((write intercon).wires.map Wire.ident ++
      (write intercon).ports.map ModulePort.ident).Nodup := by
    have nodup := nodup_declared handled
    rw [VerilogWriter.declarations, List.map_append, List.map_map, List.map_map] at nodup
    exact List.perm_append_comm.nodup_iff.mp nodup
  exact declared.sublist (List.Sublist.append_left (List.filter_sublist.map _) _)

theorem wellFormed_write (handled : Connectable intercon) :
    (write intercon).WellFormed (undriven intercon) where
  declared_once := by
    intro inst added c connected id used
    obtain ⟨k, typed, -⟩ := fits_write handled inst added c connected
    refine List.count_eq_one_of_mem (nodup_names handled) ?_
    rw [names_eq]
    exact List.mem_map_of_mem (typed id used).mem
  names_differ := nodup_names handled
  driven_once := by
    intro id signal
    have once := List.count_eq_one_of_mem (nodup_signals handled) signal
    have counted := congrArg (Multiset.count id) (signals_write handled)
    rw [Multiset.count_add, Multiset.coe_count, Multiset.coe_count, Multiset.coe_count, once]
      at counted
    rw [List.count_map_of_injective _ _ Ident.text_injective]
    split
    case isTrue left =>
        have some := List.count_pos_iff.mpr left
        omega
    case isFalse driven =>
        rw [List.count_eq_zero_of_not_mem driven] at counted
        exact counted.symm
  widths_agree := fun inst added c connected =>
    (fits_write handled inst added c connected).sum_eq handled

/-- A Wishbone and an Avalon master, a slave with both, a narrow one and one that is
not listed. -/
def mixedConf : List Section :=
  [⟨"master cpu", [("slaves", "ram uart")]⟩,
   ⟨"master dma", [("bustype", "avalon"), ("slaves", "ram")]⟩,
   ⟨"slave ram", [("bustype", "avalon"), ("size", "0x1000")]⟩,
   ⟨"slave uart", [("datawidth", "8"), ("offset", "0x90000000"), ("size", "32")]⟩,
   ⟨"slave rom", [("offset", "0xf0000000"), ("size", "1024")]⟩]

theorem maskOf_rom : (0xfffffc00 : BitVec 32) = maskOf 1024 := by decide

/-- What the generator makes of `mixedConf`. -/
def mixedIntercon : WbIntercon where
  masters := ⟨[{ name := "cpu", listed := ["ram", "uart"] },
    { name := "dma", busType := .avalon, listed := ["ram"] }], by decide⟩
  slaves := ⟨[{ name := "ram", busType := .avalon, size := 0x1000, mask := 0xfffff000 },
    { name := "uart", datawidth := 8, offset := 0x90000000, size := 32, mask := 0xffffffe0 },
    { name := "rom", offset := 0xf0000000, size := 1024, mask := 0xfffffc00,
      mask_of_size := maskOf_rom }], by decide⟩
  slave_of_listed := by decide

/-- A master and a slave of eight bits. -/
def narrowConf : List Section :=
  [⟨"master cpu", [("slaves", "uart")]⟩,
   ⟨"slave uart", [("datawidth", "8"), ("offset", "0x90000000"), ("size", "32")]⟩]

/-- What the generator makes of `narrowConf`. -/
def narrowIntercon : WbIntercon where
  masters := ⟨[{ name := "cpu", listed := ["uart"] }], by decide⟩
  slaves := ⟨[
    { name := "uart", datawidth := 8, offset := 0x90000000, size := 32, mask := 0xffffffe0 }],
    by decide⟩
  slave_of_listed := by decide

end OrpsocCores.WbIntercon
