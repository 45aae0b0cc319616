import OrpsocCores.WbIntercon.Connections
import OrpsocCores.WbIntercon.Spelling

/-!
# The generated module is well formed

What a netlist needs: every identifier in a connection is declared once, declarations
differ in their names, wires and module outputs have one driver, and a connection has
the width of its pin.  The generator reaches this for configurations without the
combinations that it does not handle (`Connectable`), apart from signals that it leaves
without a driver (`undriven`): the select output of a slave narrower than 32 bits and
everything towards a slave that no master lists.

Drivers are counted with multiplicity, so that what a part of the module declares and
what it drives are multisets that add up over the parts.
-/

set_option autoImplicit false

namespace OrpsocCores.WbIntercon

/-! ## What is asked of a netlist -/

/-- The identifiers connected to the outputs of an instance. -/
def Instance.driven (inst : Instance) : List Ident :=
  (inst.ports.filter fun c => c.1.direction = .output).flatMap Prod.snd

namespace VerilogWriter

variable (net : VerilogWriter)

/-- The declared identifiers with the widths given to `Signal`. -/
def declarations : List (Ident × Int) :=
  (net.ports.map fun p => (p.ident, p.width)) ++ net.wires.map fun w => (w.ident, w.width)

/-- The names of all declarations. -/
def names : List String := net.declarations.map fun d => d.1.text

/-- The bits of `Signal.range`. -/
def bits (width : Int) : Nat := if 0 < width then width.toNat else 1

/-- The width of an identifier; an undeclared one is an implicit scalar. -/
def bitsOf (id : Ident) : Nat :=
  (net.declarations.find? fun d => d.1.text = id.text).elim 1 fun d => bits d.2

/-- Everything that an instance drives, once for each driver. -/
def drivers : List Ident := net.instances.flatMap Instance.driven

/-- The wires and the outputs of the module. -/
def signals : List Ident :=
  net.wires.map Wire.ident ++
    (net.ports.filter fun p => p.dir = .output).map ModulePort.ident

/-- The netlist is well formed, where the signals in `undriven` have no driver. -/
structure WellFormed (undriven : List Ident) : Prop where
  declared_once : ∀ inst ∈ net.instances, ∀ c ∈ inst.ports, ∀ id ∈ c.2,
    net.names.count id.text = 1
  names_differ : net.names.Nodup
  driven_once : ∀ id ∈ net.signals,
    (net.drivers.map Ident.text).count id.text = if id ∈ undriven then 0 else 1
  widths_agree : ∀ inst ∈ net.instances, ∀ c ∈ inst.ports,
    (c.1, (c.2.map net.bitsOf).sum) ∈ inst.core.header

end VerilogWriter

/-! ## What is asked of a configuration -/

/-- The parts between `wb_m2s_` or `wb_s2m_` and the signal in the names of all wires. -/
def wireNames (intercon : WbIntercon) : List String :=
  (intercon.masters.values.flatMap fun m => (intercon.slavesOf m).flatMap fun s =>
      if 1 < (intercon.mastersOf s).length then [m.name ++ "_" ++ s.name] else []) ++
    (intercon.masters.values.flatMap fun m => if m.busType = .avalon then [m.name] else []) ++
    intercon.slaves.values.flatMap fun s =>
      (if s.datawidth < 32 then ["resize_" ++ s.name] else []) ++
        if s.busType = .avalon then [s.name] else []

/-- The configurations that the generator handles. -/
structure Connectable (intercon : WbIntercon) : Prop where
  plain_names : PlainNames intercon
  lists_slave : ∀ m ∈ intercon.masters.values, m.listed ≠ []
  datawidth_pos : ∀ s ∈ intercon.slaves.values, 0 < s.datawidth
  datawidth_le : ∀ s ∈ intercon.slaves.values, s.datawidth ≤ 32
  avalon_slave : ∀ s ∈ intercon.slaves.values, s.busType = .avalon →
    s.datawidth = 32 ∧ (intercon.mastersOf s).length ≠ 1
  names_differ : ∀ m ∈ intercon.masters.values, ∀ s ∈ intercon.slaves.values,
    m.busType = .wishbone → s.busType = .wishbone → m.name ≠ s.name
  wireNames_differ : (wireNames intercon).Nodup

/-- What the generator leaves without a driver. -/
def undriven (intercon : WbIntercon) : List Ident :=
  intercon.slaves.values.flatMap fun s =>
    (if intercon.mastersOf s = [] then wbMasterPorts.map (arbiterSlaveIdent s .m2s) else []) ++
      if s.datawidth < 32 then [slaveIdent s .m2s .sel] else []

/-! ## Parts of the module -/

namespace VerilogWriter

variable {α : Type} (a b : VerilogWriter) (rounds : List α) (body : α → VerilogWriter)

@[simp] theorem ports_append : (a ++ b).ports = a.ports ++ b.ports := rfl

@[simp] theorem wires_append : (a ++ b).wires = a.wires ++ b.wires := rfl

@[simp] theorem instances_append : (a ++ b).instances = a.instances ++ b.instances := rfl

@[simp] theorem ports_join : (join rounds body).ports = rounds.flatMap fun x => (body x).ports := rfl

@[simp] theorem wires_join : (join rounds body).wires = rounds.flatMap fun x => (body x).wires := rfl

@[simp] theorem instances_join :
    (join rounds body).instances = rounds.flatMap fun x => (body x).instances := rfl

theorem coe_flatMap {β : Type} (f : α → List β) :
    ((rounds.flatMap f : List β) : Multiset β) = (rounds.map fun x => (f x : Multiset β)).sum := by
  induction rounds with
  | nil => rfl
  | cons x rest ih => rw [List.flatMap_cons, ← Multiset.coe_add, ih, List.map_cons, List.sum_cons]

theorem coe_drivers_append :
    ((a ++ b).drivers : Multiset Ident) = (a.drivers : Multiset Ident) + b.drivers := by
  rw [drivers, instances_append, List.flatMap_append, ← Multiset.coe_add]
  rfl

theorem coe_drivers_join : ((join rounds body).drivers : Multiset Ident) =
    (rounds.map fun x => ((body x).drivers : Multiset Ident)).sum := by
  rw [drivers, instances_join, List.flatMap_assoc, coe_flatMap]
  rfl

theorem coe_signals_append :
    ((a ++ b).signals : Multiset Ident) = (a.signals : Multiset Ident) + b.signals := by
  simp only [signals, ports_append, wires_append, List.map_append, List.filter_append,
    ← Multiset.coe_add]
  exact add_add_add_comm _ _ _ _

theorem coe_signals_join : ((join rounds body).signals : Multiset Ident) =
    (rounds.map fun x => ((body x).signals : Multiset Ident)).sum := by
  induction rounds with
  | nil => rfl
  | cons x rest ih =>
      have step : join (x :: rest) body = body x ++ join rest body := rfl
      rw [step, coe_signals_append, ih, List.map_cons, List.sum_cons]

end VerilogWriter

end OrpsocCores.WbIntercon
