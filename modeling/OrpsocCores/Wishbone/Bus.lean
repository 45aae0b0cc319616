import Mathlib.Algebra.Ring.Int.Defs
import Mathlib.Algebra.Ring.Nat
import Mathlib.Tactic.Common

/-!
# Wishbone B3 vocabulary

The signals a master drives, the cycle types and burst types of registered
feedback cycles, and the address a burst prescribes for its next beat.  The
prescribed address is stated on word indices: a linear burst goes on to the next
word, a wrap burst stays in its aligned block.  Each core computes it in its own
way on its own address register; the cores' functions are compared with this one
where they are used.
-/

set_option autoImplicit false

namespace OrpsocCores.Wishbone

/-- `CTI_I`, without the reserved codes. -/
inductive Cti where
  | classic
  | constBurst
  | incBurst
  | endBurst
  deriving DecidableEq, Repr

/-- `BTE_I`. -/
inductive Bte where
  | linear
  | wrap4
  | wrap8
  | wrap16
  deriving DecidableEq, Repr

/-- A beat of this type is the last one of its access. -/
def Cti.isLast : Cti → Bool
  | .classic => true
  | .constBurst => false
  | .incBurst => false
  | .endBurst => true

/-- The word a burst of this type prescribes after word `x`. -/
def Bte.nextWord : Bte → Nat → Nat
  | .linear, x => x + 1
  | .wrap4, x => x / 4 * 4 + (x + 1) % 4
  | .wrap8, x => x / 8 * 8 + (x + 1) % 8
  | .wrap16, x => x / 16 * 16 + (x + 1) % 16

/-- The word an access prescribes after a beat of this cycle type: only an
incrementing burst moves on. -/
def Cti.nextWord (cti : Cti) (bte : Bte) (x : Nat) : Nat :=
  if cti = .incBurst then bte.nextWord x else x

/-- What a master drives in one cycle. -/
structure Pins (aw dw sw : Nat) where
  adr : BitVec aw
  dat : BitVec dw
  sel : BitVec sw
  we : Bool
  cyc : Bool
  stb : Bool
  cti : Cti
  bte : Bte
  deriving DecidableEq

variable {aw dw sw : Nat}

namespace Pins

/-- A beat is presented. -/
def valid (pins : Pins aw dw sw) : Bool := pins.cyc && pins.stb

/-- A write beat is presented. -/
def writes (pins : Pins aw dw sw) : Bool := pins.cyc && pins.stb && pins.we

/-- A read beat is presented. -/
def reads (pins : Pins aw dw sw) : Bool := pins.cyc && pins.stb && !pins.we

/-- The word a beat addresses. -/
def word (pins : Pins aw dw sw) : Nat := pins.adr.toNat / 4

/-- The beat a burst goes on with: of the same kind and type, at the prescribed
word. -/
def Continues (last next : Pins aw dw sw) : Prop :=
  next.we = last.we ∧ next.bte = last.bte ∧ (next.cti = last.cti ∨ next.cti = .endBurst) ∧
    next.word = last.cti.nextWord last.bte last.word % 2 ^ (aw - 2)

instance (last next : Pins aw dw sw) : Decidable (last.Continues next) :=
  inferInstanceAs (Decidable (_ ∧ _ ∧ _ ∧ _))

/-- Nothing is presented. -/
def idle : Pins aw dw sw := ⟨0, 0, 0, false, false, false, .classic, .linear⟩

end Pins

end OrpsocCores.Wishbone
