import Mathlib.Algebra.Ring.Int.Defs
import Mathlib.Algebra.Ring.Nat
import Mathlib.Logic.Function.Basic
import Mathlib.Tactic.Common

/-!
# The identifiers of a generated interconnect

The generator forms every identifier from a fixed pattern, a name of the configuration
and the name of a bus signal.  `Ident` keeps the parts and `Ident.text` writes them out.
No signal name contains an underscore, so that the text determines the parts
(`Ident.text_injective`); two identifiers collide only through the names of the
configuration themselves.
-/

set_option autoImplicit false

namespace OrpsocCores.WbIntercon

/-! ## Bus signals -/

/-- The names in `WB_MASTER_PORTS` and `WB_SLAVE_PORTS`. -/
inductive WbSignal where
  | adr | dat | sel | we | cyc | stb | cti | bte | ack | err | rty
  deriving DecidableEq, Repr

/-- The names in `AVALON_MASTER_PORTS` and `AVALON_SLAVE_PORTS`. -/
inductive AvSignal where
  | address | byteenable | read | burstcount | write | writedata
  | readdata | waitrequest | readdatavalid
  deriving DecidableEq, Repr

namespace WbSignal

def text : WbSignal → String
  | adr => "adr" | dat => "dat" | sel => "sel" | we => "we" | cyc => "cyc" | stb => "stb"
  | cti => "cti" | bte => "bte" | ack => "ack" | err => "err" | rty => "rty"

/-- The width of a signal; a scalar has width 0. -/
def width : WbSignal → Int
  | adr => 32 | dat => 32 | sel => 4 | cti => 3 | bte => 2
  | we => 0 | cyc => 0 | stb => 0 | ack => 0 | err => 0 | rty => 0

end WbSignal

namespace AvSignal

def text : AvSignal → String
  | address => "address" | byteenable => "byteenable" | read => "read"
  | burstcount => "burstcount" | write => "write" | writedata => "writedata"
  | readdata => "readdata" | waitrequest => "waitrequest" | readdatavalid => "readdatavalid"

/-- The width of a signal; a scalar has width 0. -/
def width : AvSignal → Int
  | address => 32 | byteenable => 4 | burstcount => 8 | writedata => 32 | readdata => 32
  | read => 0 | write => 0 | waitrequest => 0 | readdatavalid => 0

end AvSignal

/-- `WB_MASTER_PORTS`. -/
def wbMasterPorts : List WbSignal := [.adr, .dat, .sel, .we, .cyc, .stb, .cti, .bte]

/-- `WB_SLAVE_PORTS`. -/
def wbSlavePorts : List WbSignal := [.dat, .ack, .err, .rty]

/-- `AVALON_MASTER_PORTS`. -/
def avalonMasterPorts : List AvSignal :=
  [.address, .byteenable, .read, .burstcount, .write, .writedata]

/-- `AVALON_SLAVE_PORTS`. -/
def avalonSlavePorts : List AvSignal := [.readdata, .waitrequest, .readdatavalid]

/-- Which way a bus signal goes. -/
inductive Flow where
  | m2s | s2m
  deriving DecidableEq, Repr

def Flow.text : Flow → String
  | m2s => "m2s" | s2m => "s2m"

/-- The direction of a pin. -/
inductive PinDirection where
  | input | output
  deriving DecidableEq, Repr

/-- `pin_direction[0]`. -/
def PinDirection.text : PinDirection → String
  | input => "i" | output => "o"

/-- The side on which a bridge has its Avalon pins. -/
inductive AvSide where
  | m | s
  deriving DecidableEq, Repr

def AvSide.text : AvSide → String
  | m => "m" | s => "s"

/-! ## Identifiers and their text -/

/-- An identifier of the generated module. -/
inductive Ident where
  | clk
  | rst
  | port (name : String) (p : WbSignal) (dir : PinDirection)
  | wire (flow : Flow) (name : String) (p : WbSignal)
  | avPort (side : AvSide) (name : String) (p : AvSignal) (dir : PinDirection)
  deriving DecidableEq, Repr

namespace Ident

/-- The formats of the generator. -/
def text : Ident → String
  | clk => "wb_clk_i"
  | rst => "wb_rst_i"
  | port name p dir => "wb_" ++ name ++ "_" ++ p.text ++ "_" ++ dir.text
  | wire flow name p => "wb_" ++ flow.text ++ "_" ++ name ++ "_" ++ p.text
  | avPort side name p dir =>
      side.text ++ "_av_" ++ name ++ "_" ++ p.text ++ "_" ++ dir.text

/-- The characters before and after the last underscore. -/
theorem append_underscore_inj {x y p q : List Char} (left : '_' ∉ p) (right : '_' ∉ q)
    (same : x ++ '_' :: p = y ++ '_' :: q) : x = y ∧ p = q := by
  rcases List.append_eq_append_iff.mp same with ⟨between, rfl, rest⟩ | ⟨between, rfl, rest⟩
  · cases between with
    | nil => exact ⟨(List.append_nil x).symm, (List.cons.inj rest).2⟩
    | cons c between =>
        have member : '_' ∈ p := by
          rw [(List.cons.inj rest).2]
          exact List.mem_append_right between List.mem_cons_self
        exact absurd member left
  · cases between with
    | nil => exact ⟨List.append_nil y, (List.cons.inj rest).2.symm⟩
    | cons c between =>
        have member : '_' ∈ q := by
          rw [(List.cons.inj rest).2]
          exact List.mem_append_right between List.mem_cons_self
        exact absurd member right

/-- Two texts that end in parts without an underscore agree on those parts. -/
theorem text_append_inj {x y p q : String} (left : '_' ∉ p.toList) (right : '_' ∉ q.toList)
    (same : x ++ "_" ++ p = y ++ "_" ++ q) : x = y ∧ p = q := by
  have chars := congrArg String.toList same
  have underscore : "_".toList = ['_'] := rfl
  simp only [String.toList_append, underscore, List.append_assoc, List.singleton_append] at chars
  obtain ⟨front, back⟩ := append_underscore_inj left right chars
  exact ⟨String.toList_inj.mp front, String.toList_inj.mp back⟩

theorem underscore_not_mem_wbSignal (p : WbSignal) : '_' ∉ p.text.toList := by
  cases p <;> decide

theorem underscore_not_mem_avSignal (p : AvSignal) : '_' ∉ p.text.toList := by
  cases p <;> decide

theorem underscore_not_mem_direction (dir : PinDirection) : '_' ∉ dir.text.toList := by
  cases dir <;> decide

theorem wbSignal_text_injective : Function.Injective WbSignal.text := by
  intro p q same
  cases p <;> cases q <;> first | rfl | exact absurd same (by decide)

theorem avSignal_text_injective : Function.Injective AvSignal.text := by
  intro p q same
  cases p <;> cases q <;> first | rfl | exact absurd same (by decide)

theorem direction_text_injective : Function.Injective PinDirection.text := by
  intro p q same
  cases p <;> cases q <;> first | rfl | exact absurd same (by decide)

theorem wbSignal_ne_direction (p : WbSignal) (dir : PinDirection) : p.text ≠ dir.text := by
  cases p <;> cases dir <;> decide

theorem wbSignal_ne_clk (p : WbSignal) : p.text ≠ "clk" := by
  cases p <;> decide

theorem wbSignal_ne_rst (p : WbSignal) : p.text ≠ "rst" := by
  cases p <;> decide

/-- The first letter of an identifier tells Avalon ports from the rest. -/
theorem text_ne_avPort (a : Ident) (side : AvSide) (name : String) (p : AvSignal)
    (dir : PinDirection) (other : ∀ side name p dir, a ≠ avPort side name p dir) :
    a.text ≠ (avPort side name p dir).text := by
  intro same
  have first : (avPort side name p dir).text.toList.head? ≠ some 'w' := by
    simp only [text, String.toList_append, List.append_assoc]
    cases side <;> simp [AvSide.text]
  rw [← same] at first
  cases a with
  | clk => exact first rfl
  | rst => exact first rfl
  | port name p dir => exact first (by simp [text, String.toList_append])
  | wire flow name p => exact first (by simp [text, String.toList_append])
  | avPort side name p dir => exact other side name p dir rfl

theorem port_text_inj {name name' : String} {p p' : WbSignal} {dir dir' : PinDirection}
    (same : (port name p dir).text = (port name' p' dir').text) :
    port name p dir = port name' p' dir' := by
  obtain ⟨front, back⟩ := text_append_inj (underscore_not_mem_direction dir)
    (underscore_not_mem_direction dir') same
  obtain ⟨front, signal⟩ := text_append_inj (underscore_not_mem_wbSignal p)
    (underscore_not_mem_wbSignal p') front
  rw [(String.append_right_inj _).mp front, wbSignal_text_injective signal,
    direction_text_injective back]

theorem wire_text_inj {name name' : String} {p p' : WbSignal} {flow flow' : Flow}
    (same : (wire flow name p).text = (wire flow' name' p').text) :
    wire flow name p = wire flow' name' p' := by
  obtain ⟨front, back⟩ := text_append_inj (underscore_not_mem_wbSignal p)
    (underscore_not_mem_wbSignal p') same
  have chars := congrArg String.toList front
  simp only [String.toList_append, List.append_assoc] at chars
  rw [wbSignal_text_injective back]
  cases flow <;> cases flow' <;> simp_all [Flow.text]

theorem avPort_text_inj {name name' : String} {p p' : AvSignal} {dir dir' : PinDirection}
    {side side' : AvSide} (same : (avPort side name p dir).text = (avPort side' name' p' dir').text) :
    avPort side name p dir = avPort side' name' p' dir' := by
  obtain ⟨front, back⟩ := text_append_inj (underscore_not_mem_direction dir)
    (underscore_not_mem_direction dir') same
  obtain ⟨front, signal⟩ := text_append_inj (underscore_not_mem_avSignal p)
    (underscore_not_mem_avSignal p') front
  have chars := congrArg String.toList front
  simp only [String.toList_append, List.append_assoc] at chars
  rw [avSignal_text_injective signal, direction_text_injective back]
  cases side <;> cases side' <;> simp_all [AvSide.text]

theorem port_text_ne_wire (name name' : String) (p p' : WbSignal) (dir : PinDirection)
    (flow : Flow) : (port name p dir).text ≠ (wire flow name' p').text := by
  intro same
  obtain ⟨-, back⟩ := text_append_inj (underscore_not_mem_direction dir)
    (underscore_not_mem_wbSignal p') same
  exact wbSignal_ne_direction p' dir back.symm

/-- The clock and the reset: a port has one part more. -/
theorem text_ne_of_last {front : String} (noSignal : ∀ p : WbSignal, p.text ≠ front)
    (plain : '_' ∉ front.toList) :
    (∀ name p dir, "wb" ++ "_" ++ front ++ "_" ++ "i" ≠ (port name p dir).text) ∧
      ∀ flow name p, "wb" ++ "_" ++ front ++ "_" ++ "i" ≠ (wire flow name p).text := by
  constructor
  · intro name p dir same
    obtain ⟨shorter, -⟩ := text_append_inj (by decide) (underscore_not_mem_direction dir) same
    obtain ⟨-, signal⟩ := text_append_inj plain (underscore_not_mem_wbSignal p) shorter
    exact noSignal p signal.symm
  · intro flow name p same
    obtain ⟨-, back⟩ := text_append_inj (by decide) (underscore_not_mem_wbSignal p) same
    exact wbSignal_ne_direction p .input back.symm

/-- **The text of an identifier determines it.** -/
theorem text_injective : Function.Injective text := by
  have clock := text_ne_of_last wbSignal_ne_clk (by decide)
  have reset := text_ne_of_last wbSignal_ne_rst (by decide)
  intro a b same
  cases a with
  | clk =>
      cases b with
      | clk => rfl
      | rst => exact absurd same (by decide)
      | port name p dir => exact absurd same (clock.1 name p dir)
      | wire flow name p => exact absurd same (clock.2 flow name p)
      | avPort side name p dir =>
          exact absurd same (text_ne_avPort clk side name p dir (by simp))
  | rst =>
      cases b with
      | clk => exact absurd same (by decide)
      | rst => rfl
      | port name p dir => exact absurd same (reset.1 name p dir)
      | wire flow name p => exact absurd same (reset.2 flow name p)
      | avPort side name p dir =>
          exact absurd same (text_ne_avPort rst side name p dir (by simp))
  | port name p dir =>
      cases b with
      | clk => exact absurd same.symm (clock.1 name p dir)
      | rst => exact absurd same.symm (reset.1 name p dir)
      | port name' p' dir' => exact port_text_inj same
      | wire flow' name' p' => exact absurd same (port_text_ne_wire name name' p p' dir flow')
      | avPort side' name' p' dir' =>
          exact absurd same (text_ne_avPort _ side' name' p' dir' (by simp))
  | wire flow name p =>
      cases b with
      | clk => exact absurd same.symm (clock.2 flow name p)
      | rst => exact absurd same.symm (reset.2 flow name p)
      | port name' p' dir' => exact absurd same.symm (port_text_ne_wire name' name p' p dir' flow)
      | wire flow' name' p' => exact wire_text_inj same
      | avPort side' name' p' dir' =>
          exact absurd same (text_ne_avPort _ side' name' p' dir' (by simp))
  | avPort side name p dir =>
      cases b with
      | avPort side' name' p' dir' => exact avPort_text_inj same
      | clk => exact absurd same.symm (text_ne_avPort clk side name p dir (by simp))
      | rst => exact absurd same.symm (text_ne_avPort rst side name p dir (by simp))
      | port name' p' dir' =>
          exact absurd same.symm (text_ne_avPort _ side name p dir (by simp))
      | wire flow' name' p' =>
          exact absurd same.symm (text_ne_avPort _ side name p dir (by simp))

end Ident

end OrpsocCores.WbIntercon
