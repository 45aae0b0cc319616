import OrpsocCores.Foundation.StrFormat
import OrpsocCores.WbIntercon.Connections
import OrpsocCores.WbIntercon.Netlist

/-!
# How the concatenations are spelled

`_gen_mux` and `_gen_arbiter` join the entries of `name_list`, in which the signal and
the direction are replacement fields, and run `str.format` over the joined text.  The
names of the configuration are part of it by then.  The text is that of the identifiers in
the netlist exactly when these names have no braces (`spelled_iff`); a name with braces is
rewritten here, and nowhere else in the module.
-/

set_option autoImplicit false

namespace OrpsocCores.WbIntercon

open StrFormat

variable (intercon : WbIntercon)

/-! ## The texts of the source -/

/-- An entry of `name_list` in `_gen_mux`. -/
def muxTemplate (master : Master) (slave : Slave) : String :=
  if (intercon.mastersOf slave).length = 1 ∧ slave.datawidth = 32 then
    "wb_" ++ slave.name ++ "_\x7b0\x7d_\x7b1\x7d"
  else if (intercon.mastersOf slave).length = 1 ∧ slave.datawidth < 32 then
    "wb_\x7bdir\x7d" ++ "resize_" ++ slave.name ++ "_\x7b0\x7d"
  else "wb_\x7bdir\x7d" ++ master.name ++ "_" ++ slave.name ++ "_\x7b0\x7d"

/-- An entry of `name_list` in `_gen_arbiter`. -/
def arbiterTemplate (master : Master) (slave : Slave) : String :=
  "wb_\x7bdir\x7d" ++ master.name ++ "_" ++ slave.name ++ "_\x7b0\x7d"

/-- The arguments of `format`, as in `format(p.name, 'o', dir='m2s_')`. -/
def formatArguments (flow : Flow) (dir : PinDirection) (p : WbSignal) : List (String × String) :=
  [("0", p.text), ("1", dir.text), ("dir", flow.text ++ "_")]

/-- `'{' + ', '.join(name_list).format(..) + '}'`. -/
def concatenation (nameList : List String) (flow : Flow) (dir : PinDirection) (p : WbSignal) :
    Option String := do
  return "\x7b" ++ (← format (formatArguments flow dir p) (", ".intercalate nameList)) ++ "\x7d"

/-- The text of a concatenation of identifiers. -/
def braced (ids : List Ident) : String := "\x7b" ++ ", ".intercalate (ids.map Ident.text) ++ "\x7d"

/-- Every concatenation is the text of the identifiers that the netlist has there. -/
structure Spelled : Prop where
  mux : ∀ m ∈ intercon.masters.values, ∀ flow p,
    concatenation ((intercon.slavesOf m).map (muxTemplate intercon m)) flow flow.slaveDirection p =
      some (braced ((intercon.slavesOf m).map fun s => muxSlaveIdent intercon m s flow p))
  arbiter : ∀ s ∈ intercon.slaves.values, 1 < (intercon.mastersOf s).length → ∀ flow p,
    concatenation ((intercon.mastersOf s).map (arbiterTemplate · s)) flow flow.masterDirection p =
      some (braced ((intercon.mastersOf s).map fun m => connectionIdent m s flow p))

/-- The names that are formatted have no braces: those of the slaves that are listed, and those
of the masters that have wires of their own to one. -/
structure PlainNames : Prop where
  slaves : ∀ m ∈ intercon.masters.values, ∀ s ∈ intercon.slavesOf m, Braceless s.name
  masters : ∀ m ∈ intercon.masters.values, ∀ s ∈ intercon.slavesOf m,
    ¬((intercon.mastersOf s).length = 1 ∧ s.datawidth ≤ 32) → Braceless m.name

/-! ## Names without braces -/

variable {intercon} {master : Master} {slave : Slave}

section

variable (flow : Flow) (dir : PinDirection) (p : WbSignal)

theorem format_signal : format (formatArguments flow dir p) "_\x7b0\x7d" = some ("_" ++ p.text) := by
  cases p <;> rfl

theorem format_signal_direction : format (formatArguments flow dir p) "_\x7b0\x7d_\x7b1\x7d" =
    some ("_" ++ p.text ++ "_" ++ dir.text) := by
  cases p <;> cases dir <;> rfl

theorem format_flow : format (formatArguments flow dir p) "wb_\x7bdir\x7d" =
    some ("wb_" ++ flow.text ++ "_") := by
  cases flow <;> rfl

theorem format_arbiterTemplate (plainMaster : Braceless master.name)
    (plainSlave : Braceless slave.name) :
    format (formatArguments flow dir p) (arbiterTemplate master slave) =
      some (connectionIdent master slave flow p).text := by
  have named := format_append (format_append (format_append (format_append
    (format_flow flow dir p) (format_braceless plainMaster))
    (format_braceless (t := "_") (by decide))) (format_braceless plainSlave))
    (format_signal flow dir p)
  rw [arbiterTemplate, named]
  simp only [connectionIdent, Ident.text, String.append_assoc]

theorem format_muxTemplate (plainSlave : Braceless slave.name)
    (plainMaster : ¬((intercon.mastersOf slave).length = 1 ∧ slave.datawidth ≤ 32) →
      Braceless master.name) :
    format (formatArguments flow flow.slaveDirection p) (muxTemplate intercon master slave) =
      some (muxSlaveIdent intercon master slave flow p).text := by
  rw [muxTemplate, muxSlaveIdent]
  split
  case isTrue =>
      have named := format_append (format_append (format_braceless (t := "wb_") (by decide))
        (format_braceless plainSlave)) (format_signal_direction flow flow.slaveDirection p)
      rw [named]
      simp only [Ident.text, String.append_assoc]
  case isFalse other =>
      split
      case isTrue =>
          have named := format_append (format_append (format_append
            (format_flow flow flow.slaveDirection p)
            (format_braceless (t := "resize_") (by decide))) (format_braceless plainSlave))
            (format_signal flow flow.slaveDirection p)
          rw [named]
          simp only [resizeIdent, Ident.text, String.append_assoc]
      case isFalse other' =>
          refine format_arbiterTemplate flow _ p (plainMaster ?_) plainSlave
          rintro ⟨single, fits⟩
          rcases fits.lt_or_eq with narrow | whole
          · exact other' ⟨single, narrow⟩
          · exact other ⟨single, whole⟩

end

/-- Names without braces come out of `str.format` as they are declared. -/
theorem PlainNames.spelled (plain : PlainNames intercon) : Spelled intercon := by
  have separator : Braceless ", " := by decide
  constructor
  case mux =>
      intro m member flow p
      rw [concatenation, format_join separator (g := fun s =>
        (muxSlaveIdent intercon m s flow p).text), braced, List.map_map]
      · rfl
      · intro s listed
        exact format_muxTemplate flow p (plain.slaves m member s listed)
          (plain.masters m member s listed)
  case arbiter =>
      intro s known several flow p
      rw [concatenation, format_join separator (g := fun m =>
        (connectionIdent m s flow p).text), braced, List.map_map]
      · rfl
      · intro m connected
        obtain ⟨member, lists⟩ := mem_mastersOf.mp connected
        have listed : s ∈ intercon.slavesOf m := mem_slavesOf.mpr ⟨known, lists⟩
        exact format_arbiterTemplate flow _ p
          (plain.masters m member s listed fun single => by omega) (plain.slaves m member s listed)

/-! ## Names with braces -/

section

variable (flow : Flow) (dir : PinDirection) (p : WbSignal)

theorem braceless_values (field : String × String) (given : field ∈ formatArguments flow dir p) :
    Braceless field.2 := by
  have plain : ∀ f ∈ formatArguments flow dir p, Braceless f.2 := by
    cases flow <;> cases dir <;> cases p <;> decide
  exact plain field given

theorem underscore_not_mem_field (field : String × String)
    (given : field ∈ formatArguments flow dir p) : '_' ∉ field.1.toList := by
  have plain : ∀ f ∈ formatArguments flow dir p, '_' ∉ f.1.toList := by
    simp only [formatArguments, List.forall_mem_cons]
    decide
  exact plain field given

theorem keeps_text (name : String) {t w : String} {b : List Char} (begins : t.toList = '_' :: b)
    (filled : format (formatArguments flow dir p) t = some w) :
    Keeps (formatArguments flow dir p) (name ++ t) (name ++ w) (Braceless name) :=
  keeps_name (braceless_values flow dir p) (underscore_not_mem_field flow dir p) (by decide) begins
    filled name

theorem keeps_arbiterTemplate (master : Master) (slave : Slave) :
    Keeps (formatArguments flow dir p) (arbiterTemplate master slave)
      (connectionIdent master slave flow p).text (Braceless master.name ∧ Braceless slave.name) := by
  have kept := ((keeps_of_format (format_flow flow dir p)).append
    (keeps_text flow dir p master.name rfl (format_braceless (t := "_") (by decide)))).append
    (keeps_text flow dir p slave.name rfl (format_signal flow dir p))
  have template : arbiterTemplate master slave =
      "wb_\x7bdir\x7d" ++ (master.name ++ "_") ++ (slave.name ++ "_\x7b0\x7d") := by
    simp only [arbiterTemplate, String.append_assoc]
  have text : (connectionIdent master slave flow p).text =
      "wb_" ++ flow.text ++ "_" ++ (master.name ++ "_") ++ (slave.name ++ ("_" ++ p.text)) := by
    simp only [connectionIdent, Ident.text, String.append_assoc]
  rw [template, text]
  exact kept.imp fun names => ⟨names.1.2, names.2⟩

theorem keeps_muxTemplate (master : Master) (slave : Slave) :
    Keeps (formatArguments flow flow.slaveDirection p) (muxTemplate intercon master slave)
      (muxSlaveIdent intercon master slave flow p).text
      (Braceless slave.name ∧
        (¬((intercon.mastersOf slave).length = 1 ∧ slave.datawidth ≤ 32) →
          Braceless master.name)) := by
  rw [muxTemplate, muxSlaveIdent]
  split
  case isTrue direct =>
      have kept := (keeps_of_format (format_braceless (t := "wb_") (by decide))).append
        (keeps_text flow flow.slaveDirection p slave.name rfl
          (format_signal_direction flow flow.slaveDirection p))
      have text : (Ident.port slave.name p flow.slaveDirection).text =
          "wb_" ++ (slave.name ++ ("_" ++ p.text ++ "_" ++ flow.slaveDirection.text)) := by
        simp only [Ident.text, String.append_assoc]
      rw [text, String.append_assoc]
      exact kept.imp fun names => ⟨names.2, fun other => absurd ⟨direct.1, direct.2.le⟩ other⟩
  case isFalse other =>
      split
      case isTrue narrow =>
          have kept := ((keeps_of_format (format_flow flow flow.slaveDirection p)).append
            (keeps_of_format (format_braceless (t := "resize_") (by decide)))).append
            (keeps_text flow flow.slaveDirection p slave.name rfl
              (format_signal flow flow.slaveDirection p))
          have text : (resizeIdent slave flow p).text =
              "wb_" ++ flow.text ++ "_" ++ "resize_" ++ (slave.name ++ ("_" ++ p.text)) := by
            simp only [resizeIdent, Ident.text, String.append_assoc]
          rw [text, String.append_assoc]
          exact kept.imp fun names => ⟨names.2, fun other => absurd ⟨narrow.1, narrow.2.le⟩ other⟩
      case isFalse =>
          exact (keeps_arbiterTemplate flow flow.slaveDirection p master slave).imp
            fun names => ⟨names.2, fun _ => names.1⟩

end

/-- What is spelled as it is declared has no braces in its names. -/
theorem Spelled.plainNames (spelled : Spelled intercon) : PlainNames intercon := by
  have names : ∀ m ∈ intercon.masters.values, ∀ s ∈ intercon.slavesOf m, Braceless s.name ∧
      (¬((intercon.mastersOf s).length = 1 ∧ s.datawidth ≤ 32) → Braceless m.name) := by
    intro m member
    -- one signal is enough, as every concatenation has all the names
    obtain ⟨out, whole, same⟩ := Option.bind_eq_some_iff.mp (spelled.mux m member .m2s .cyc)
    have text : out = ", ".intercalate (((intercon.slavesOf m).map fun s =>
        muxSlaveIdent intercon m s .m2s .cyc).map Ident.text) := by
      have inside := Option.some.inj same
      rwa [braced, String.append_left_inj, String.append_right_inj] at inside
    rw [List.map_map] at text
    obtain ⟨-, kept⟩ := keeps_join (by decide : Braceless ", ")
      (fun s _ => keeps_muxTemplate .m2s .cyc m s) whole
    exact kept (by rw [text]; rfl)
  exact ⟨fun m member s listed => (names m member s listed).1,
    fun m member s listed => (names m member s listed).2⟩

/-- **The concatenations are spelled as the identifiers are declared** exactly when the names
that are formatted have no braces. -/
theorem spelled_iff : Spelled intercon ↔ PlainNames intercon :=
  ⟨Spelled.plainNames, PlainNames.spelled⟩

/-- A slave `a{0}` is connected as another one. -/
example : concatenation ["wb_a\x7b0\x7d_\x7b0\x7d_\x7b1\x7d"] .m2s .output .adr =
    some "\x7bwb_aadr_adr_o\x7d" := by
  decide

end OrpsocCores.WbIntercon
