import OrpsocCores.Foundation.OrderedDict

/-!
# The configuration of the interconnect generator

`wb_intercon_gen` reads the sections that `configparser` hands over: the header of
each section and its options.  A loaded `WbIntercon` has its masters and slaves in the
order of the sections, every name once, and every slave that a master lists.  A slave
carries the relation between its size and its mask, which `load_dict` establishes
whenever it reads a size.

A name may contain braces, which `str.format` reads as replacement fields when it is
joined into a template.
-/

set_option autoImplicit false

namespace OrpsocCores.WbIntercon

/-- The bus types of `VALID_BUS_TYPES`. -/
inductive BusType where
  | wishbone
  | avalon
  deriving DecidableEq, Repr

/-- How the generator stops without writing a module: its own errors with their
texts, the exits of the section loop, and what the calls into Python raise. -/
inductive Error where
  | unsupportedBusType (message : String)
  | unknownProperty (message : String)
  | malformedSectionHeader
  | invalidSectionType (type : String)
  | indexError
  | valueError (text : String)
  | noOption (option : String)
  | keyError (name : String)
  deriving DecidableEq, Repr

/-! ## Reading text -/

def isSpace (c : Char) : Bool :=
  c == ' ' || c == '\t' || c == '\n' || c == '\r' || c == '\x0b' || c == '\x0c'

/-- `s.split()`. -/
def split (s : String) : List String :=
  ((s.toList.splitOnP isSpace).filter (· ≠ [])).map String.ofList

/-- The value of a digit in a base. -/
def digit (base : Nat) (c : Char) : Option Nat :=
  let value : Option Nat :=
    if c.isDigit then some (c.toNat - '0'.toNat)
    else if 'a' ≤ c ∧ c ≤ 'f' then some (c.toNat - 'a'.toNat + 10)
    else if 'A' ≤ c ∧ c ≤ 'F' then some (c.toNat - 'A'.toNat + 10)
    else none
  value.filter (· < base)

/-- The digits after the first; an underscore may stand between two digits. -/
def moreDigits (base : Nat) : Nat → List Char → Option Nat
  | value, [] => some value
  | value, '_' :: c :: rest => do moreDigits base (value * base + (← digit base c)) rest
  | value, c :: rest => do moreDigits base (value * base + (← digit base c)) rest

def digits (base : Nat) : List Char → Option Nat
  | [] => none
  | c :: rest => do moreDigits base (← digit base c) rest

/-- Text without surrounding white space. -/
def strip (text : List Char) : List Char :=
  ((text.dropWhile isSpace).reverse.dropWhile isSpace).reverse

/-- `int(s)`. -/
def int (text : List Char) : Option Int :=
  match strip text with
  | '-' :: rest => (digits 10 rest).map fun value => -(value : Int)
  | '+' :: rest => (digits 10 rest).map Int.ofNat
  | rest => (digits 10 rest).map Int.ofNat

/-- `int(s, 16)` of a text that starts with `0x`. -/
def intHex (text : List Char) : Option Int :=
  match (strip text).drop 2 with
  | '_' :: rest => (digits 16 rest).map Int.ofNat
  | rest => (digits 16 rest).map Int.ofNat

def parseNumber (s : String) : Except Error Int :=
  let text := s.toList
  match if ['0', 'x'].isPrefixOf text then intHex text else int text with
  | some value => .ok value
  | none => .error (.valueError s)

/-- The check of a `bustype` value, which masters and slaves share. -/
def parseBusType (value : String) : Except Error BusType :=
  if value = "wishbone" then .ok .wishbone
  else if value = "avalon" then .ok .avalon
  else .error (.unsupportedBusType
    s!"Bus type '{value}' is not known. Valid buses are: wishbone, avalon")

/-! ## Masters and slaves -/

/-- `~(size-1) & 0xffffffff`. -/
def maskOf (size : Int) : BitVec 32 := BitVec.ofInt 32 (~~~(size - 1))

/-- `Slave`, without the list of its masters. -/
structure Slave where
  name : String
  datawidth : Int := 32
  offset : Int := 0
  size : Int := 0
  mask : BitVec 32 := 0
  busType : BusType := .wishbone
  mask_of_size : mask = maskOf size := by decide
  deriving DecidableEq

namespace Slave

/-- One round of `Slave.load_dict`. -/
def loadItem (slave : Slave) : String × String → Except Error Slave
  | ("datawidth", value) => do return { slave with datawidth := ← parseNumber value }
  | ("offset", value) => do return { slave with offset := ← parseNumber value }
  | ("size", value) => do
      let size ← parseNumber value
      return { slave with size := size, mask := maskOf size, mask_of_size := rfl }
  | ("bustype", value) => do return { slave with busType := ← parseBusType value }
  | (key, _) =>
      let name := slave.name
      .error (.unknownProperty s!"Unknown property '{key}' in slave section '{name}'")

/-- `Slave.load_dict`. -/
def loadDict (slave : Slave) (items : List (String × String)) : Except Error Slave :=
  items.foldlM loadItem slave

/-- The mask is the negative of the size. -/
theorem mask_eq_neg (slave : Slave) : slave.mask = -BitVec.ofInt 32 slave.size := by
  rw [slave.mask_of_size, maskOf]
  have complement : ∀ n : Int, ~~~n = -(n + 1)
    | .ofNat n => Int.negSucc_eq n
    | .negSucc n => by
        change (n : Int) = -(Int.negSucc n + 1)
        omega
  rw [complement, Int.sub_add_cancel, BitVec.ofInt_neg]

end Slave

/-- `Master`, with the names its section lists. -/
structure Master where
  name : String
  busType : BusType := .wishbone
  listed : List String := []
  deriving DecidableEq

namespace Master

/-- `master.datawidth`, which no option changes. -/
def datawidth (_ : Master) : Int := 32

/-- One round of `Master.load_dict`. -/
def loadItem (master : Master) : String × String → Except Error Master
  | ("slaves", _) => .ok master
  | ("bustype", value) => do return { master with busType := ← parseBusType value }
  | (key, _) =>
      let name := master.name
      .error (.unknownProperty s!"Unknown property '{key}' in master section '{name}'")

/-- `Master.load_dict`. -/
def loadDict (master : Master) (items : List (String × String)) : Except Error Master :=
  items.foldlM loadItem master

end Master

/-! ## Loading a file -/

/-- A section of the file. -/
structure Section where
  header : String
  items : List (String × String)

/-- The sections read so far. -/
structure Sections where
  masters : OrderedDict Master.name := .empty
  slaves : OrderedDict Slave.name := .empty

/-- One round of the loop over the sections. -/
def Sections.load (read : Sections) (sec : Section) : Except Error Sections :=
  match split sec.header with
  | [] => .error .indexError
  | [_] => .error .malformedSectionHeader
  | type :: name :: _ =>
      if type = "master" then do
        let master ← Master.loadDict { name } sec.items
        match sec.items.lookup "slaves" with
        | none => .error (.noOption "slaves")
        | some value =>
            return { read with masters := read.masters.assign { master with listed := split value } }
      else if type = "slave" then do
        return { read with slaves := read.slaves.assign (← Slave.loadDict { name } sec.items) }
      else .error (.invalidSectionType type)

end OrpsocCores.WbIntercon

namespace OrpsocCores

open WbIntercon

/-- `WbIntercon` after its constructor. -/
structure WbIntercon where
  masters : OrderedDict Master.name
  slaves : OrderedDict Slave.name
  slave_of_listed : ∀ master ∈ masters.values, ∀ name ∈ master.listed,
    (slaves.get? name).isSome

namespace WbIntercon

/-- The listed names in the order in which the connections are made. -/
def Sections.connections (read : Sections) : List String :=
  read.masters.values.flatMap Master.listed

/-- The loop that creates the master/slave connections. -/
def Sections.connect (read : Sections) : Except Error WbIntercon :=
  match missing : read.connections.find? fun name => !(read.slaves.get? name).isSome with
  | some name => .error (.keyError name)
  | none => .ok {
      masters := read.masters
      slaves := read.slaves
      slave_of_listed := by
        intro master member name listed
        have found := List.find?_eq_none.mp missing name
          (List.mem_flatMap.mpr ⟨master, member, listed⟩)
        simpa [Option.isSome_iff_ne_none] using found }

/-- `WbIntercon.__init__`. -/
def load (sections : List Section) : Except Error WbIntercon := do
  Sections.connect (← sections.foldlM Sections.load {})

variable (intercon : WbIntercon)

/-- `master.slaves`. -/
def slavesOf (master : Master) : List Slave := master.listed.filterMap intercon.slaves.get?

/-- `slave.masters`: a master is there as often as it lists the slave. -/
def mastersOf (slave : Slave) : List Master :=
  intercon.masters.values.flatMap fun master =>
    (master.listed.filter (· = slave.name)).map fun _ => master

end WbIntercon

end OrpsocCores
