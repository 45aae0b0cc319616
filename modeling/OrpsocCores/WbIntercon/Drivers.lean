import Mathlib.Tactic.Abel
import OrpsocCores.WbIntercon.WellFormed

/-!
# The drivers of the generated module

The wires and outputs of a part of the module are the signals that it drives and those
that it leaves to another part.  A mux drives a slave with one master itself, any
other through the wires to the slave's arbiter; counting the connections from both
sides (`sum_mastersOf`) settles the accounts of muxes and arbiters (`signals_write`).
-/

set_option autoImplicit false

namespace OrpsocCores.WbIntercon

/-! ## Signals and drivers of the parts -/

/-- The signals of a connection towards the slave. -/
def toSlave (ident : Flow → WbSignal → Ident) : List Ident := wbMasterPorts.map (ident .m2s)

/-- The signals of a connection towards the master. -/
def toMaster (ident : Flow → WbSignal → Ident) : List Ident := wbSlavePorts.map (ident .s2m)

/-- The module outputs that a bridge drives. -/
def bridgeOutputs (name : String) : Bool → List Ident
  | true => avalonSlavePorts.map (avalonIdent true name .s2m)
  | false => avalonMasterPorts.map (avalonIdent false name .m2s)

section

variable {intercon : WbIntercon} {master : Master} {slave : Slave}

theorem signals_connectionWires : (connectionWires intercon master slave).signals =
    if 1 < (intercon.mastersOf slave).length then
      toSlave (connectionIdent master slave) ++ toMaster (connectionIdent master slave)
    else [] := by
  by_cases several : 1 < (intercon.mastersOf slave).length
  · rw [connectionWires, decide_eq_true several, if_pos several]
    rfl
  · rw [connectionWires, decide_eq_false several, if_neg several]
    rfl

theorem drivers_connectionWires : (connectionWires intercon master slave).drivers = [] := by
  by_cases several : 1 < (intercon.mastersOf slave).length
  · rw [connectionWires, decide_eq_true several]
    rfl
  · rw [connectionWires, decide_eq_false several]
    rfl

theorem signals_genAvalonPort (name : String) (isMaster : Bool) (datawidth : Int) :
    (genAvalonPort name isMaster datawidth).signals =
      toSlave (Ident.wire · name ·) ++ toMaster (Ident.wire · name ·) ++
        bridgeOutputs name isMaster := by
  cases isMaster <;> rfl

theorem drivers_genAvalonPort_master (name : String) (datawidth : Int) :
    (genAvalonPort name true datawidth).drivers =
      toSlave (Ident.wire · name ·) ++ bridgeOutputs name true := rfl

theorem drivers_genAvalonPort_slave (name : String) (datawidth : Int) :
    (genAvalonPort name false datawidth).drivers =
      toMaster (Ident.wire · name ·) ++ bridgeOutputs name false := rfl

theorem signals_writeMaster : ((writeMaster intercon master).signals : Multiset Ident) =
    toMaster (masterIdent master) +
      if master.busType = .avalon then
        ((toSlave (masterIdent master) : Multiset Ident) + bridgeOutputs master.name true)
      else 0 := by
  have mux : (genMux intercon master).signals = [] := rfl
  rw [writeMaster, VerilogWriter.coe_signals_append, mux]
  cases kind : master.busType with
  | wishbone =>
      have idents : masterIdent master = fun flow p => .port master.name p flow.masterDirection := by
        funext flow p
        rw [masterIdent, kind]
      rw [idents]
      rfl
  | avalon =>
      have idents : masterIdent master = (Ident.wire · master.name ·) := by
        funext flow p
        rw [masterIdent, kind]
      rw [idents]
      simp only [signals_genAvalonPort, ← Multiset.coe_add, Multiset.coe_nil, zero_add, if_true]
      abel

/-- A pin that takes one signal of each of several connections, for all signals. -/
theorem coe_flatMap_map {α β γ : Type} (ports : List α) (others : List β) (f : β → α → γ) :
    ((ports.flatMap fun p => others.map fun x => f x p : List γ) : Multiset γ) =
      (others.map fun x => ((ports.map (f x) : List γ) : Multiset γ)).sum := by
  have single : ∀ (l : List γ), (l : Multiset γ) = (l.map fun c => ({c} : Multiset γ)).sum := by
    intro l
    induction l with
    | nil => rfl
    | cons c rest ih => rw [List.map_cons, List.sum_cons, ← ih]; rfl
  rw [VerilogWriter.coe_flatMap]
  simp only [single, List.map_map, Function.comp_def]
  exact sum_comm ports others _

theorem driven_muxInstance : ((muxInstance intercon master).driven : Multiset Ident) =
    toMaster (masterIdent master) +
      ((intercon.slavesOf master).map fun s =>
        (toSlave (muxSlaveIdent intercon master s) : Multiset Ident)).sum := by
  have outputs : (muxInstance intercon master).driven = toMaster (masterIdent master) ++
      wbMasterPorts.flatMap fun p => (intercon.slavesOf master).map fun s =>
        muxSlaveIdent intercon master s .m2s p := rfl
  rw [outputs, ← Multiset.coe_add, coe_flatMap_map]
  rfl

theorem driven_arbiterInstance : ((arbiterInstance intercon slave).driven : Multiset Ident) =
    ((intercon.mastersOf slave).map fun m =>
        (toMaster (connectionIdent m slave) : Multiset Ident)).sum +
      toSlave (arbiterSlaveIdent slave) := by
  have outputs : (arbiterInstance intercon slave).driven =
      (wbSlavePorts.flatMap fun p => (intercon.mastersOf slave).map fun m =>
        connectionIdent m slave .s2m p) ++ toSlave (arbiterSlaveIdent slave) := by
    simp only [Instance.driven, arbiterInstance, List.filter_append, List.flatMap_append]
    exact List.append_nil _
  rw [outputs, ← Multiset.coe_add, coe_flatMap_map]
  rfl

/-- The select of a resized slave is the one signal that the resizer does not drive. -/
theorem driven_resizeInstance :
    ((resizeInstance slave).driven : Multiset Ident) + {slaveIdent slave .m2s .sel} =
      (toMaster (resizeIdent slave) : Multiset Ident) + toSlave (slaveIdent slave) := by
  have outputs : (resizeInstance slave).driven = toMaster (resizeIdent slave) ++
      (wbMasterPorts.filter (· ≠ .sel)).map (slaveIdent slave .m2s) := rfl
  have ports : (((wbMasterPorts.filter (· ≠ .sel)).map (slaveIdent slave .m2s) : List Ident) :
      Multiset Ident) + {slaveIdent slave .m2s .sel} = toSlave (slaveIdent slave) := by
    rw [← Multiset.coe_singleton, Multiset.coe_add, Multiset.coe_eq_coe]
    exact List.Perm.cons _ (List.Perm.cons _ List.perm_append_comm)
  rw [outputs, ← Multiset.coe_add, add_assoc, ports]

theorem drivers_writeMaster : ((writeMaster intercon master).drivers : Multiset Ident) =
    toMaster (masterIdent master) +
      ((intercon.slavesOf master).map fun s =>
        (toSlave (muxSlaveIdent intercon master s) : Multiset Ident)).sum +
      if master.busType = .avalon then
        ((toSlave (masterIdent master) : Multiset Ident) + bridgeOutputs master.name true)
      else 0 := by
  have mux : (genMux intercon master).drivers = (muxInstance intercon master).driven := by
    rw [VerilogWriter.drivers, genMux, List.flatMap_singleton]
  rw [writeMaster, VerilogWriter.coe_drivers_append, mux, driven_muxInstance]
  congr 1
  cases kind : master.busType with
  | wishbone => rfl
  | avalon =>
      have idents : masterIdent master = (Ident.wire · master.name ·) := by
        funext flow p
        rw [masterIdent, kind]
      rw [if_pos rfl, idents, drivers_genAvalonPort_master, ← Multiset.coe_add]

theorem signals_guarded_genArbiter (condition : Bool) :
    (VerilogWriter.guarded condition (genArbiter intercon slave)).signals = [] := by
  cases condition <;> rfl

theorem drivers_guarded_genArbiter (several : Prop) [Decidable several] :
    ((VerilogWriter.guarded several (genArbiter intercon slave)).drivers : Multiset Ident) =
      if several then ((arbiterInstance intercon slave).driven : Multiset Ident) else 0 := by
  by_cases holds : several
  · rw [decide_eq_true holds, if_pos holds]
    rw [VerilogWriter.guarded, if_pos rfl, VerilogWriter.drivers, genArbiter,
      List.flatMap_singleton]
  · rw [decide_eq_false holds, if_neg holds]
    rfl

theorem slaveIdent_wishbone (kind : slave.busType = .wishbone) :
    slaveIdent slave = fun flow p => .port slave.name p flow.slaveDirection := by
  funext flow p
  rw [slaveIdent, kind]

theorem slaveIdent_avalon (kind : slave.busType = .avalon) :
    slaveIdent slave = (Ident.wire · slave.name ·) := by
  funext flow p
  rw [slaveIdent, kind]

theorem arbiterSlaveIdent_narrow (narrow : slave.datawidth < 32) :
    arbiterSlaveIdent slave = resizeIdent slave := by
  funext flow p
  rw [arbiterSlaveIdent, if_neg (by omega)]

theorem arbiterSlaveIdent_full (full : slave.datawidth = 32) :
    arbiterSlaveIdent slave = slaveIdent slave := by
  funext flow p
  rw [arbiterSlaveIdent, if_pos full]

theorem wishbone_of_narrow (full : slave.busType = .avalon → slave.datawidth = 32)
    (narrow : slave.datawidth < 32) : slave.busType = .wishbone := by
  cases kind : slave.busType with
  | wishbone => rfl
  | avalon => exact absurd (full kind) (by omega)

theorem signals_genWishbonePort (kind : slave.busType = .wishbone) :
    (genWishbonePort slave).signals = toSlave (slaveIdent slave) := by
  rw [slaveIdent_wishbone kind]
  rfl

/-- The signals behind the point where a mux or an arbiter reaches the slave. -/
def behind (slave : Slave) : Multiset Ident :=
  (if slave.datawidth < 32 then
      (toMaster (resizeIdent slave) : Multiset Ident) + toSlave (slaveIdent slave) else 0) +
    if slave.busType = .avalon then
      (toMaster (slaveIdent slave) : Multiset Ident) + bridgeOutputs slave.name false else 0

theorem signals_writeSlave (within : slave.datawidth ≤ 32)
    (full : slave.busType = .avalon → slave.datawidth = 32) :
    ((writeSlave intercon slave).signals : Multiset Ident) =
      toSlave (arbiterSlaveIdent slave) + behind slave := by
  rw [writeSlave, VerilogWriter.coe_signals_append, VerilogWriter.coe_signals_append,
    signals_guarded_genArbiter, behind]
  by_cases narrow : slave.datawidth < 32
  · have kind := wishbone_of_narrow full narrow
    have ports := signals_genWishbonePort kind
    have resize : (genResize slave).signals =
        toSlave (resizeIdent slave) ++ toMaster (resizeIdent slave) := rfl
    simp only [kind, narrow, decide_true, VerilogWriter.guarded, if_true, resize, ports,
      arbiterSlaveIdent_narrow narrow, ← Multiset.coe_add, reduceCtorEq, if_false,
      Multiset.coe_nil, zero_add, add_zero, add_assoc]
  · rw [arbiterSlaveIdent_full (by omega), decide_eq_false narrow, if_neg narrow]
    cases kind : slave.busType with
    | wishbone =>
        simp only [signals_genWishbonePort kind, reduceCtorEq, if_false, add_zero]
        exact zero_add _
    | avalon =>
        simp only [signals_genAvalonPort, slaveIdent_avalon kind, if_true, ← Multiset.coe_add,
          zero_add, ← add_assoc]
        congr 2

theorem drivers_writeSlave
    (full : slave.busType = .avalon → slave.datawidth = 32) :
    ((writeSlave intercon slave).drivers : Multiset Ident) +
        (if slave.datawidth < 32 then {slaveIdent slave .m2s .sel} else 0) =
      (if 1 < (intercon.mastersOf slave).length then
        ((intercon.mastersOf slave).map fun m =>
          (toMaster (connectionIdent m slave) : Multiset Ident)).sum +
        toSlave (arbiterSlaveIdent slave) else 0) + behind slave := by
  rw [writeSlave, VerilogWriter.coe_drivers_append, VerilogWriter.coe_drivers_append,
    drivers_guarded_genArbiter, driven_arbiterInstance, behind, add_assoc, add_assoc]
  congr 1
  by_cases narrow : slave.datawidth < 32
  · have kind := wishbone_of_narrow full narrow
    have ports : (genWishbonePort slave).drivers = [] := rfl
    have resize : (genResize slave).drivers = (resizeInstance slave).driven := by
      rw [VerilogWriter.drivers, genResize, List.flatMap_singleton]
    simp only [kind, narrow, decide_true, VerilogWriter.guarded, if_true, resize, ports,
      reduceCtorEq, if_false, add_zero, Multiset.coe_nil, zero_add, ← driven_resizeInstance]
  · rw [decide_eq_false narrow, if_neg narrow, if_neg narrow]
    cases kind : slave.busType with
    | wishbone => rfl
    | avalon =>
        simp only [drivers_genAvalonPort_slave, slaveIdent_avalon kind, if_true,
          ← Multiset.coe_add, add_zero, zero_add]
        exact zero_add _

end

/-! ## Every signal has its driver -/

section

variable {intercon : WbIntercon}

/-- A mux reaches a slave with one master itself, any other through an arbiter. -/
theorem muxSlaveIdent_eq (handled : Connectable intercon) {master : Master} {slave : Slave}
    (member : slave ∈ intercon.slaves.values) :
    muxSlaveIdent intercon master slave =
      if (intercon.mastersOf slave).length = 1 then arbiterSlaveIdent slave
      else connectionIdent master slave := by
  funext flow p
  rw [muxSlaveIdent]
  by_cases single : (intercon.mastersOf slave).length = 1
  · rw [if_pos single]
    by_cases full : slave.datawidth = 32
    · have kind : slave.busType = .wishbone := by
        cases kind : slave.busType with
        | wishbone => rfl
        | avalon => exact absurd single (handled.avalon_slave slave member kind).2
      rw [if_pos ⟨single, full⟩, arbiterSlaveIdent_full full, slaveIdent_wishbone kind]
    · have within := handled.datawidth_le slave member
      have narrow : slave.datawidth < 32 := by omega
      rw [if_neg (fun both => full both.2), if_pos ⟨single, narrow⟩,
        arbiterSlaveIdent_narrow narrow]
  · rw [if_neg single, if_neg (fun both => single both.1), if_neg (fun both => single both.1)]

theorem length_mastersOf_pos {master : Master} {slave : Slave}
    (member : master ∈ intercon.masters.values) (listed : slave ∈ intercon.slavesOf master) :
    0 < (intercon.mastersOf slave).length :=
  List.length_pos_of_mem (mem_mastersOf.mpr ⟨member, (mem_slavesOf.mp listed).2⟩)

/-- What the muxes drive: slaves with one master, and wires to arbiters. -/
theorem sum_muxSlaveIdent (handled : Connectable intercon) :
    (intercon.masters.values.map fun m => ((intercon.slavesOf m).map fun s =>
        (toSlave (muxSlaveIdent intercon m s) : Multiset Ident)).sum).sum =
      (intercon.masters.values.map fun m => ((intercon.slavesOf m).map fun s =>
        if 1 < (intercon.mastersOf s).length then
          (toSlave (connectionIdent m s) : Multiset Ident) else 0).sum).sum +
      (intercon.slaves.values.map fun s =>
        if (intercon.mastersOf s).length = 1 then
          (toSlave (arbiterSlaveIdent s) : Multiset Ident) else 0).sum := by
  have once : (intercon.slaves.values.map fun s =>
      if (intercon.mastersOf s).length = 1 then
        (toSlave (arbiterSlaveIdent s) : Multiset Ident) else 0).sum =
      (intercon.masters.values.map fun m => ((intercon.slavesOf m).map fun s =>
        if (intercon.mastersOf s).length = 1 then
          (toSlave (arbiterSlaveIdent s) : Multiset Ident) else 0).sum).sum := by
    rw [← sum_mastersOf intercon fun _ s => if (intercon.mastersOf s).length = 1 then
      (toSlave (arbiterSlaveIdent s) : Multiset Ident) else 0]
    congr 1
    apply List.map_congr_left
    intro s _
    rw [List.map_const', List.sum_replicate]
    split
    case isTrue single => rw [single, one_nsmul]
    case isFalse => rw [nsmul_zero]
  rw [once, ← List.sum_map_add]
  congr 1
  apply List.map_congr_left
  intro m member
  rw [← List.sum_map_add]
  congr 1
  apply List.map_congr_left
  intro s listed
  have positive := length_mastersOf_pos member listed
  rw [muxSlaveIdent_eq handled (mem_slavesOf.mp listed).1]
  by_cases single : (intercon.mastersOf s).length = 1
  · rw [if_pos single, if_pos single, if_neg (by omega), zero_add]
  · rw [if_neg single, if_neg single, if_pos (by omega), add_zero]

/-- What the arbiters drive: the wires to the muxes, and slaves with several masters. -/
theorem sum_drivers_writeSlave (handled : Connectable intercon) :
    (intercon.slaves.values.map fun s =>
        ((writeSlave intercon s).drivers : Multiset Ident)).sum +
      (intercon.slaves.values.map fun s =>
        (if s.datawidth < 32 then ({slaveIdent s .m2s .sel} : Multiset Ident) else 0)).sum =
      (intercon.masters.values.map fun m => ((intercon.slavesOf m).map fun s =>
        if 1 < (intercon.mastersOf s).length then
          (toMaster (connectionIdent m s) : Multiset Ident) else 0).sum).sum +
      (intercon.slaves.values.map fun s =>
        if 1 < (intercon.mastersOf s).length then
          (toSlave (arbiterSlaveIdent s) : Multiset Ident) else 0).sum +
      (intercon.slaves.values.map behind).sum := by
  rw [← sum_mastersOf intercon fun m s => if 1 < (intercon.mastersOf s).length then
    (toMaster (connectionIdent m s) : Multiset Ident) else 0]
  rw [← List.sum_map_add, ← List.sum_map_add, ← List.sum_map_add]
  congr 1
  apply List.map_congr_left
  intro s member
  rw [drivers_writeSlave fun kind => (handled.avalon_slave s member kind).1]
  by_cases several : 1 < (intercon.mastersOf s).length
  · simp only [if_pos several]
  · simp only [if_neg several, List.map_const', List.sum_replicate, nsmul_zero, add_zero]

/-- The wires between muxes and arbiters, one direction after the other. -/
theorem sum_signals_connectionWires :
    (intercon.masters.values.map fun m => ((intercon.slavesOf m).map fun s =>
        ((connectionWires intercon m s).signals : Multiset Ident)).sum).sum =
      (intercon.masters.values.map fun m => ((intercon.slavesOf m).map fun s =>
        if 1 < (intercon.mastersOf s).length then
          (toSlave (connectionIdent m s) : Multiset Ident) else 0).sum).sum +
      (intercon.masters.values.map fun m => ((intercon.slavesOf m).map fun s =>
        if 1 < (intercon.mastersOf s).length then
          (toMaster (connectionIdent m s) : Multiset Ident) else 0).sum).sum := by
  rw [← List.sum_map_add]
  congr 1
  apply List.map_congr_left
  intro m _
  rw [← List.sum_map_add]
  congr 1
  apply List.map_congr_left
  intro s _
  rw [signals_connectionWires]
  split
  case isTrue => rw [← Multiset.coe_add]
  case isFalse => rfl

theorem sum_signals_writeSlave (handled : Connectable intercon) :
    (intercon.slaves.values.map fun s =>
        ((writeSlave intercon s).signals : Multiset Ident)).sum =
      (intercon.slaves.values.map fun s =>
        (toSlave (arbiterSlaveIdent s) : Multiset Ident)).sum +
      (intercon.slaves.values.map behind).sum := by
  rw [← List.sum_map_add]
  congr 1
  apply List.map_congr_left
  intro s member
  exact signals_writeSlave (handled.datawidth_le s member)
    fun kind => (handled.avalon_slave s member kind).1

/-- A slave has no master, one or several. -/
theorem sum_arbiterSlaveIdent (intercon : WbIntercon) :
    (intercon.slaves.values.map fun s =>
        (toSlave (arbiterSlaveIdent s) : Multiset Ident)).sum =
      (intercon.slaves.values.map fun s => if (intercon.mastersOf s).length = 1 then
        (toSlave (arbiterSlaveIdent s) : Multiset Ident) else 0).sum +
      (intercon.slaves.values.map fun s => if 1 < (intercon.mastersOf s).length then
        (toSlave (arbiterSlaveIdent s) : Multiset Ident) else 0).sum +
      (intercon.slaves.values.map fun s => if intercon.mastersOf s = [] then
        (toSlave (arbiterSlaveIdent s) : Multiset Ident) else 0).sum := by
  rw [← List.sum_map_add, ← List.sum_map_add]
  congr 1
  apply List.map_congr_left
  intro s _
  match intercon.mastersOf s with
  | [] => simp
  | [m] => simp
  | m :: m' :: rest => simp

theorem coe_undriven (intercon : WbIntercon) : (undriven intercon : Multiset Ident) =
    (intercon.slaves.values.map fun s => if intercon.mastersOf s = [] then
      (toSlave (arbiterSlaveIdent s) : Multiset Ident) else 0).sum +
    (intercon.slaves.values.map fun s =>
      (if s.datawidth < 32 then ({slaveIdent s .m2s .sel} : Multiset Ident) else 0)).sum := by
  rw [undriven, VerilogWriter.coe_flatMap, ← List.sum_map_add]
  congr 1
  apply List.map_congr_left
  intro s _
  rw [← Multiset.coe_add]
  congr 1
  · split
    case isTrue => rfl
    case isFalse => rfl
  · split
    case isTrue => rfl
    case isFalse => rfl

/-- **The instances drive all wires and outputs except those that have no driver**,
each as often as it is declared. -/
theorem signals_write (handled : Connectable intercon) :
    ((write intercon).signals : Multiset Ident) =
      ((write intercon).drivers : Multiset Ident) + undriven intercon := by
  have signals : ((write intercon).signals : Multiset Ident) =
      (intercon.masters.values.map fun m => ((intercon.slavesOf m).map fun s =>
        ((connectionWires intercon m s).signals : Multiset Ident)).sum).sum +
      (intercon.masters.values.map fun m =>
        ((writeMaster intercon m).signals : Multiset Ident)).sum +
      (intercon.slaves.values.map fun s =>
        ((writeSlave intercon s).signals : Multiset Ident)).sum := by
    simp only [write, VerilogWriter.coe_signals_append, VerilogWriter.coe_signals_join]
    congr 2
    exact add_zero _
  have drivers : ((write intercon).drivers : Multiset Ident) =
      (intercon.masters.values.map fun m =>
        ((writeMaster intercon m).drivers : Multiset Ident)).sum +
      (intercon.slaves.values.map fun s =>
        ((writeSlave intercon s).drivers : Multiset Ident)).sum := by
    simp only [write, VerilogWriter.coe_drivers_append, VerilogWriter.coe_drivers_join,
      drivers_connectionWires, Multiset.coe_nil, List.map_const', List.sum_replicate, nsmul_zero,
      zero_add]
    congr 1
    exact zero_add _
  have regroup : ∀ muxes slaves unlisted selects : Multiset Ident,
      muxes + slaves + (unlisted + selects) = muxes + (slaves + selects) + unlisted := by
    intro muxes slaves unlisted selects
    abel
  rw [drivers, coe_undriven, regroup, sum_drivers_writeSlave handled, signals,
    sum_signals_connectionWires, sum_signals_writeSlave handled, sum_arbiterSlaveIdent]
  simp only [signals_writeMaster, drivers_writeMaster, List.sum_map_add, sum_muxSlaveIdent handled]
  abel

end

end OrpsocCores.WbIntercon
