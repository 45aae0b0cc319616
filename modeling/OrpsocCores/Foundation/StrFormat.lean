import Mathlib.Tactic.Common

/-!
# Templates with replacement fields

`str.format` copies a template and puts a value for every name in braces; a doubled
brace stands for the brace itself, and a lone one is an error.  A field is a name here:
one with a conversion, a format specification, an attribute or an index has no value,
and neither has a field within a field.

Filling in is compositional as far as templates are complete (`scan_append`), so that
a joined list of them is filled in one by one (`format_join`), and text without braces
stays as it is.  Text that has braces loses some of them (`braces_scan`), so it never comes
out as it was, wherever it stands in a list (`Keeps`, `keeps_join`).
-/

set_option autoImplicit false

namespace OrpsocCores.StrFormat

/-- Where the scan of a template is. -/
inductive State where
  | text
  | opened
  | field (name : List Char)
  | closed

/-- A value in front of what follows it. -/
def put (value rest : Option (List Char)) : Option (List Char) :=
  value.bind fun front => rest.map (front ++ ·)

/-- The text that is left of a template from a state on. -/
def scan (values : List Char → Option (List Char)) : State → List Char → Option (List Char)
  | .text, [] => some []
  | .opened, [] => none
  | .field _, [] => none
  | .closed, [] => none
  | .text, c :: rest =>
      if c = '\x7b' then scan values .opened rest
      else if c = '\x7d' then scan values .closed rest
      else put (some [c]) (scan values .text rest)
  | .opened, c :: rest =>
      if c = '\x7b' then put (some [c]) (scan values .text rest)
      else if c = '\x7d' then put (values []) (scan values .text rest)
      else scan values (.field [c]) rest
  | .field name, c :: rest =>
      if c = '\x7d' then put (values name) (scan values .text rest)
      else if c = '\x7b' then none
      else scan values (.field (name ++ [c])) rest
  | .closed, c :: rest => if c = '\x7d' then put (some [c]) (scan values .text rest) else none

/-- The values of the fields by name. -/
def valueIn (fields : List (String × String)) (name : List Char) : Option (List Char) :=
  (fields.lookup (String.ofList name)).map String.toList

/-- `template.format(..)`. -/
def format (fields : List (String × String)) (template : String) : Option String :=
  (scan (valueIn fields) .text template.toList).map String.ofList

/-- No brace of either kind. -/
def Braceless (text : String) : Prop := '\x7b' ∉ text.toList ∧ '\x7d' ∉ text.toList

instance (text : String) : Decidable (Braceless text) := inferInstanceAs (Decidable (_ ∧ _))

variable {values : List Char → Option (List Char)} {fields : List (String × String)}

/-! ## Templates one after the other -/

theorem put_append {value rest rest' tail : Option (List Char)} {x : List Char}
    (filled : put value rest = some x)
    (onward : ∀ y, rest = some y → rest' = tail.map (y ++ ·)) :
    put value rest' = tail.map (x ++ ·) := by
  obtain ⟨front, here, mapped⟩ := Option.bind_eq_some_iff.mp filled
  obtain ⟨y, there, rfl⟩ := Option.map_eq_some_iff.mp mapped
  rw [put, here, onward y there, Option.bind_some, Option.map_map]
  congr 1
  funext z
  exact (List.append_assoc front y z).symm

/-- **A complete template is filled in on its own.** -/
theorem scan_append {state : State} {a x : List Char} (b : List Char)
    (filled : scan values state a = some x) :
    scan values state (a ++ b) = (scan values .text b).map (x ++ ·) := by
  induction a generalizing state x with
  | nil =>
      cases state with
      | text =>
          obtain rfl : [] = x := Option.some.inj filled
          simp
      | opened => cases filled
      | field name => cases filled
      | closed => cases filled
  | cons c a ih =>
      cases state <;> simp only [scan, List.cons_append] at filled ⊢ <;> split_ifs at filled ⊢
      all_goals
        first
        | exact ih filled
        | exact put_append filled fun y rest => ih rest

/-- Text without braces stays as it is. -/
theorem scan_braceless {text : List Char} (opening : '\x7b' ∉ text) (closing : '\x7d' ∉ text) :
    scan values .text text = some text := by
  induction text with
  | nil => rfl
  | cons c rest ih =>
      rw [List.mem_cons, not_or] at opening closing
      rw [scan, if_neg (Ne.symm opening.1), if_neg (Ne.symm closing.1), ih opening.2 closing.2]
      rfl

theorem format_append {a b x y : String} (first : format fields a = some x)
    (second : format fields b = some y) : format fields (a ++ b) = some (x ++ y) := by
  obtain ⟨front, here, rfl⟩ := Option.map_eq_some_iff.mp first
  obtain ⟨back, there, rfl⟩ := Option.map_eq_some_iff.mp second
  rw [format, String.toList_append, scan_append _ here, there, Option.map_some, Option.map_some,
    String.ofList_append]

theorem format_braceless {t : String} (plain : Braceless t) : format fields t = some t := by
  rw [format, scan_braceless plain.1 plain.2, Option.map_some, String.ofList_toList]

/-- The templates of a joined list are filled in one by one. -/
theorem format_join {α : Type} {separator : String} (plain : Braceless separator)
    {f g : α → String} {items : List α} (each : ∀ a ∈ items, format fields (f a) = some (g a)) :
    format fields (separator.intercalate (items.map f)) =
      some (separator.intercalate (items.map g)) := by
  induction items with
  | nil => rfl
  | cons a rest ih =>
      have here := each a List.mem_cons_self
      have others := ih fun b member => each b (List.mem_cons_of_mem a member)
      cases rest with
      | nil => simpa using here
      | cons b rest =>
          simp only [List.map_cons, String.intercalate_cons_cons] at others ⊢
          exact format_append (format_append here (format_braceless plain)) others

/-! ## Templates that are left with their braces -/

/-- How many braces there are in a text. -/
def braces (text : List Char) : Nat := text.countP fun c => c = '\x7b' ∨ c = '\x7d'

theorem braceless_iff {text : String} : Braceless text ↔ braces text.toList = 0 := by
  rw [braces, List.countP_eq_zero]
  simp only [decide_eq_true_eq, not_or]
  constructor
  · rintro ⟨opening, closing⟩ c member
    exact ⟨fun same => opening (same ▸ member), fun same => closing (same ▸ member)⟩
  · intro none
    exact ⟨fun member => (none _ member).1 rfl, fun member => (none _ member).2 rfl⟩

theorem braces_append (a b : List Char) : braces (a ++ b) = braces a + braces b :=
  List.countP_append

theorem braces_singleton (c : Char) :
    braces [c] = if c = '\x7b' ∨ c = '\x7d' then 1 else 0 := by
  simp [braces]

theorem braces_put {value rest : Option (List Char)} {x : List Char}
    (filled : put value rest = some x) :
    ∃ v y, value = some v ∧ rest = some y ∧ braces x = braces v + braces y := by
  obtain ⟨v, here, mapped⟩ := Option.bind_eq_some_iff.mp filled
  obtain ⟨y, there, rfl⟩ := Option.map_eq_some_iff.mp mapped
  exact ⟨v, y, here, there, braces_append v y⟩

/-- **A template loses braces**, unless it has none. -/
theorem braces_scan (plain : ∀ name x, values name = some x → braces x = 0) {state : State}
    {a x : List Char} (filled : scan values state a = some x) :
    braces x ≤ braces a ∧ (state = .text → braces a ≤ braces x → braces a = 0) := by
  induction a generalizing state x with
  | nil =>
      cases state with
      | text =>
          obtain rfl : [] = x := Option.some.inj filled
          exact ⟨Nat.le_refl _, fun _ _ => rfl⟩
      | opened => cases filled
      | field name => cases filled
      | closed => cases filled
  | cons c a ih =>
      have longer : braces (c :: a) = braces [c] + braces a := braces_append [c] a
      have brace : c = '\x7b' ∨ c = '\x7d' → braces [c] = 1 := fun one => by
        rw [braces_singleton, if_pos one]
      have onward : ∀ {state}, scan values state a = some x → braces x ≤ braces (c :: a) := by
        intro state rest
        have fewer := (ih rest).1
        omega
      have behind : ∀ {value}, put value (scan values .text a) = some x →
          (∀ v, value = some v → braces v ≤ braces [c]) → braces x ≤ braces (c :: a) := by
        intro value filled few
        obtain ⟨v, y, here, rest, count⟩ := braces_put filled
        have fewer := (ih rest).1
        have begins := few v here
        omega
      have escaped : ∀ v, some [c] = some v → braces v ≤ braces [c] := by
        rintro v ⟨⟩
        exact Nat.le_refl _
      have given : ∀ name v, values name = some v → braces v ≤ braces [c] := by
        intro name v here
        rw [plain name v here]
        exact Nat.zero_le _
      cases state with
      | text =>
          simp only [scan] at filled
          split_ifs at filled with opening closing
          · have fewer := (ih filled).1
            have one := brace (.inl opening)
            exact ⟨by omega, fun _ => by omega⟩
          · have fewer := (ih filled).1
            have one := brace (.inr closing)
            exact ⟨by omega, fun _ => by omega⟩
          · refine ⟨behind filled escaped, fun _ kept => ?_⟩
            obtain ⟨v, y, here, rest, count⟩ := braces_put filled
            obtain rfl := Option.some.inj here
            have none := (ih rest).2 rfl (by omega)
            have other : braces [c] = 0 := by
              rw [braces_singleton, if_neg (not_or.mpr ⟨opening, closing⟩)]
            omega
      | opened =>
          simp only [scan] at filled
          refine ⟨?_, fun never => nomatch never⟩
          split_ifs at filled
          · exact behind filled escaped
          · exact behind filled (given [])
          · exact onward filled
      | field name =>
          simp only [scan] at filled
          refine ⟨?_, fun never => nomatch never⟩
          split_ifs at filled
          · exact behind filled (given name)
          · exact onward filled
      | closed =>
          simp only [scan] at filled
          refine ⟨?_, fun never => nomatch never⟩
          split_ifs at filled
          exact behind filled escaped

/-- A field with a character that no value has in its name. -/
theorem scan_field_none {c : Char} (unnamed : ∀ name, c ∈ name → values name = none)
    {name : List Char} (inside : c ∈ name) (rest : List Char) :
    scan values (.field name) rest = none := by
  induction rest generalizing name with
  | nil => rfl
  | cons d rest ih =>
      rw [scan]
      split_ifs
      · rw [unnamed name inside]
        rfl
      · rfl
      · exact ih (List.mem_append_left _ inside)

/-- In front of such a character a template is complete. -/
theorem scan_split {c : Char} (unnamed : ∀ name, c ∈ name → values name = none)
    (other : c ≠ '\x7b' ∧ c ≠ '\x7d') {state : State} {a b x : List Char}
    (filled : scan values state (a ++ c :: b) = some x) :
    ∃ y z, scan values state a = some y ∧ scan values .text (c :: b) = some z ∧ x = y ++ z := by
  induction a generalizing state x with
  | nil =>
      rw [List.nil_append] at filled
      cases state with
      | text => exact ⟨[], x, rfl, filled, rfl⟩
      | opened =>
          rw [scan, if_neg other.1, if_neg other.2,
            scan_field_none unnamed (List.mem_singleton_self c)] at filled
          cases filled
      | field name =>
          rw [scan, if_neg other.2, if_neg other.1,
            scan_field_none unnamed (List.mem_append_right _ (List.mem_singleton_self c))] at filled
          cases filled
      | closed =>
          rw [scan, if_neg other.2] at filled
          cases filled
  | cons d a ih =>
      generalize c :: b = tail at filled ih ⊢
      have behind : ∀ {value : Option (List Char)},
          put value (scan values .text (a ++ tail)) = some x →
          ∃ y z, put value (scan values .text a) = some y ∧
            scan values .text tail = some z ∧ x = y ++ z := by
        intro value whole
        obtain ⟨front, here, mapped⟩ := Option.bind_eq_some_iff.mp whole
        obtain ⟨back, there, rfl⟩ := Option.map_eq_some_iff.mp mapped
        obtain ⟨y, z, first, second, rfl⟩ := ih there
        refine ⟨front ++ y, z, ?_, second, (List.append_assoc front y z).symm⟩
        rw [put, here, first]
        rfl
      cases state <;> simp only [scan, List.cons_append] at filled ⊢ <;> split_ifs at filled ⊢
      all_goals
        first
        | exact ih filled
        | exact behind filled

/-- A template in front of any text puts at most the braces of this one there, and as many
only under a condition on the names in it. -/
def Keeps (fields : List (String × String)) (t w : String) (names : Prop) : Prop :=
  ∀ rest out, format fields (t ++ rest) = some out → ∃ z, format fields rest = some z ∧
    braces out.toList ≤ braces w.toList + braces z.toList ∧
      (braces w.toList + braces z.toList ≤ braces out.toList → names)

theorem keeps_of_format {t w : String} (filled : format fields t = some w) :
    Keeps fields t w True := by
  intro rest out whole
  obtain ⟨front, here, rfl⟩ := Option.map_eq_some_iff.mp filled
  obtain ⟨text, there, rfl⟩ := Option.map_eq_some_iff.mp whole
  rw [String.toList_append, scan_append _ here] at there
  obtain ⟨z, behind, rfl⟩ := Option.map_eq_some_iff.mp there
  refine ⟨String.ofList z, by rw [format, behind]; rfl, ?_, fun _ => trivial⟩
  simp only [String.toList_ofList, braces_append, Nat.le_refl]

theorem Keeps.imp {t w : String} {names names' : Prop} (keeps : Keeps fields t w names)
    (implies : names → names') : Keeps fields t w names' := by
  intro rest out whole
  obtain ⟨z, behind, fewer, kept⟩ := keeps rest out whole
  exact ⟨z, behind, fewer, fun same => implies (kept same)⟩

theorem Keeps.append {a b x y : String} {p q : Prop} (first : Keeps fields a x p)
    (second : Keeps fields b y q) : Keeps fields (a ++ b) (x ++ y) (p ∧ q) := by
  intro rest out whole
  rw [String.append_assoc] at whole
  obtain ⟨z, behind, fewer, kept⟩ := first _ _ whole
  obtain ⟨z', behind', fewer', kept'⟩ := second _ _ behind
  rw [String.toList_append, braces_append]
  exact ⟨z', behind', by omega, fun same => ⟨kept (by omega), kept' (by omega)⟩⟩

theorem exists_of_valueIn {name x : List Char} (value : valueIn fields name = some x) :
    ∃ field ∈ fields, field.1.toList = name ∧ field.2.toList = x := by
  obtain ⟨text, found, rfl⟩ := Option.map_eq_some_iff.mp value
  obtain ⟨before, after, rfl, -⟩ := List.lookup_eq_some_iff.mp found
  exact ⟨_, List.mem_append_right _ List.mem_cons_self, String.toList_ofList .., rfl⟩

/-- A name in front of a template that begins with a character which is in no field. -/
theorem keeps_name (values : ∀ field ∈ fields, Braceless field.2) {c : Char}
    (names : ∀ field ∈ fields, c ∉ field.1.toList) (other : c ≠ '\x7b' ∧ c ≠ '\x7d')
    {t w : String} {b : List Char} (begins : t.toList = c :: b)
    (filled : format fields t = some w) (name : String) :
    Keeps fields (name ++ t) (name ++ w) (Braceless name) := by
  have plain : ∀ name x, valueIn fields name = some x → braces x = 0 := by
    intro name x value
    obtain ⟨field, given, -, rfl⟩ := exists_of_valueIn value
    exact braceless_iff.mp (values field given)
  have unnamed : ∀ name, c ∈ name → valueIn fields name = none := by
    intro name inside
    by_contra found
    obtain ⟨x, value⟩ := Option.ne_none_iff_exists'.mp found
    obtain ⟨field, given, rfl, -⟩ := exists_of_valueIn value
    exact names field given inside
  intro rest out whole
  obtain ⟨front, here, rfl⟩ := Option.map_eq_some_iff.mp filled
  obtain ⟨text, there, rfl⟩ := Option.map_eq_some_iff.mp whole
  rw [String.append_assoc, String.toList_append, String.toList_append, begins,
    List.cons_append] at there
  obtain ⟨y, z, first, second, rfl⟩ := scan_split unnamed other there
  rw [← List.cons_append, ← begins, scan_append _ here] at second
  obtain ⟨tail, behind, rfl⟩ := Option.map_eq_some_iff.mp second
  obtain ⟨fewer, same⟩ := braces_scan plain first
  refine ⟨String.ofList tail, by rw [format, behind]; rfl, ?_, ?_⟩
  · simp only [String.toList_ofList, String.toList_append, braces_append]
    omega
  · intro kept
    simp only [String.toList_ofList, String.toList_append, braces_append] at kept
    exact braceless_iff.mpr (same rfl (by omega))

/-- **A joined list that keeps its braces** has names without any. -/
theorem keeps_join {α : Type} {separator : String} (plain : Braceless separator)
    {f g : α → String} {names : α → Prop} {items : List α}
    (each : ∀ a ∈ items, Keeps fields (f a) (g a) (names a)) {out : String}
    (whole : format fields (separator.intercalate (items.map f)) = some out) :
    braces out.toList ≤ braces (separator.intercalate (items.map g)).toList ∧
      (braces (separator.intercalate (items.map g)).toList ≤ braces out.toList →
        ∀ a ∈ items, names a) := by
  induction items generalizing out with
  | nil =>
      obtain rfl : "" = out := Option.some.inj whole
      exact ⟨Nat.le_refl _, fun _ a never => absurd never List.not_mem_nil⟩
  | cons a rest ih =>
      have here := each a List.mem_cons_self
      have others := fun b member => each b (List.mem_cons_of_mem a member)
      cases rest with
      | nil =>
          rw [List.map_singleton, String.intercalate_singleton] at whole ⊢
          obtain ⟨z, none, fewer, kept⟩ := here "" out (by rwa [String.append_empty])
          obtain rfl : "" = z := Option.some.inj none
          refine ⟨fewer, fun same b member => ?_⟩
          rw [List.mem_singleton.mp member]
          exact kept same
      | cons b rest =>
          simp only [List.map_cons, String.intercalate_cons_cons] at whole others ih ⊢
          obtain ⟨z, behind, fewer, kept⟩ :=
            (here.append (keeps_of_format (format_braceless plain))) _ _ whole
          obtain ⟨fewer', kept'⟩ := ih others behind
          rw [String.toList_append (s := g a ++ separator), braces_append]
          refine ⟨by omega, fun same => ?_⟩
          have first := (kept (by omega)).1
          have later := kept' (by omega)
          intro d member
          rcases List.mem_cons.mp member with rfl | member
          · exact first
          · exact later d member

end OrpsocCores.StrFormat
