import OrpsocCores.Foundation.Leads

/-!
# Programs of an OpenRISC 1000 processor

The instructions of the 32-bit OpenRISC 1000 architecture that small programs without
exceptions need, with their encoding (`decode`) and their meaning (`State.exec`).  A branch
takes effect after the instruction behind it, its delay slot, so the state holds the address
of the instruction and that of the next one.  Carry and overflow, which no instruction here
reads, are left out.

The processor is connected to a bus of any kind: an access may change the state of the bus,
and one that nothing answers, or a word at an address that is no multiple of four, has no
meaning here.  The rules are those of `Leads`: one for the instructions that only change
registers (`Leads.alu`), one for each kind of the others.
-/

set_option autoImplicit false

namespace OrpsocCores.Or1k

universe u

abbrev Word := BitVec 32

abbrev Byte := BitVec 8

abbrev Reg := BitVec 5

abbrev Registers := Reg → Word

inductive Instr
  | movhi (d : Reg) (k : BitVec 16)
  | ori (d a : Reg) (k : BitVec 16)
  | andi (d a : Reg) (k : BitVec 16)
  | addi (d a : Reg) (i : BitVec 16)
  | slli (d a : Reg) (l : BitVec 6)
  | add (d a b : Reg)
  | or (d a b : Reg)
  | nop (k : BitVec 16)
  | sfeqi (a : Reg) (i : BitVec 16)
  | sfgeu (a b : Reg)
  | bf (n : BitVec 26)
  | bnf (n : BitVec 26)
  | jal (n : BitVec 26)
  | jr (b : Reg)
  | lbz (d a : Reg) (i : BitVec 16)
  | sb (i : BitVec 16) (a b : Reg)
  | sw (i : BitVec 16) (a b : Reg)
  deriving DecidableEq, Repr

/-- The instruction that a word stands for. -/
def decode (x : Word) : Option Instr :=
  let reg (low : Nat) : Reg := x.extractLsb' low 5
  let d := reg 21
  let a := reg 16
  let b := reg 11
  let k := x.extractLsb' 0 16
  let n := x.extractLsb' 0 26
  let offset := x.extractLsb' 21 5 ++ x.extractLsb' 0 11
  match (x.extractLsb' 26 6).toNat with
  | 0x01 => some (.jal n)
  | 0x03 => some (.bnf n)
  | 0x04 => some (.bf n)
  | 0x05 => if x.extractLsb' 24 2 = 1 then some (.nop k) else none
  | 0x06 => if x.extractLsb' 16 1 = 0 then some (.movhi d k) else none
  | 0x11 => some (.jr b)
  | 0x23 => some (.lbz d a k)
  | 0x27 => some (.addi d a k)
  | 0x29 => some (.andi d a k)
  | 0x2a => some (.ori d a k)
  | 0x2e => if x.extractLsb' 6 2 = 0 then some (.slli d a (x.extractLsb' 0 6)) else none
  | 0x2f => if x.extractLsb' 21 5 = 0 then some (.sfeqi a k) else none
  | 0x35 => some (.sw offset a b)
  | 0x36 => some (.sb offset a b)
  | 0x38 =>
      if x.extractLsb' 8 2 = 0 ∧ x.extractLsb' 0 4 = 0 then some (.add d a b)
      else if x.extractLsb' 8 2 = 0 ∧ x.extractLsb' 0 4 = 4 then some (.or d a b)
      else none
  | 0x39 => if x.extractLsb' 21 5 = 3 then some (.sfgeu a b) else none
  | _ => none

/-- What the processor is connected to. -/
structure Bus (β : Type u) where
  loadByte : β → Word → Option (Byte × β)
  storeByte : β → Word → Byte → Option β
  storeWord : β → Word → Word → Option β

structure State (β : Type u) where
  gpr : Registers
  flag : Bool
  pc : Word
  npc : Word
  bus : β

/-- The registers with one of them written. -/
def Registers.set (g : Registers) (d : Reg) (x : Word) : Registers := fun r =>
  if r = d then x else g r

@[simp] theorem Registers.set_self (g : Registers) (d : Reg) (x : Word) : g.set d x d = x :=
  if_pos rfl

theorem Registers.set_of_ne (g : Registers) {d r : Reg} (x : Word) (other : r ≠ d) :
    g.set d x r = g r := if_neg other

/-- The instructions that change nothing but a register. -/
def Instr.alu (g : Registers) : Instr → Option Registers
  | .movhi d k => some (g.set d (k ++ 0#16))
  | .ori d a k => some (g.set d (g a ||| k.setWidth 32))
  | .andi d a k => some (g.set d (g a &&& k.setWidth 32))
  | .addi d a i => some (g.set d (g a + i.signExtend 32))
  | .slli d a l => some (g.set d (g a <<< l.toNat))
  | .add d a b => some (g.set d (g a + g b))
  | .or d a b => some (g.set d (g a ||| g b))
  | .nop _ => some g
  | _ => none

/-- The target of a branch. -/
def target (pc : Word) (n : BitVec 26) : Word := pc + (n.signExtend 32 <<< 2)

namespace State

variable {β : Type u} (bus : Bus β) (s : State β)

/-- On to the next instruction, and behind it to `npc`. -/
def go (npc : Word) : State β := { s with pc := s.npc, npc := npc }

/-- On to the next instruction. -/
def next : State β := s.go (s.npc + 4)

def exec (i : Instr) : Option (State β) :=
  match i with
  | .sfeqi a i => some { s.next with flag := s.gpr a == i.signExtend 32 }
  | .sfgeu a b => some { s.next with flag := decide (s.gpr b ≤ s.gpr a) }
  | .bf n => some (if s.flag then s.go (target s.pc n) else s.next)
  | .bnf n => some (if s.flag then s.next else s.go (target s.pc n))
  | .jal n => some { s.go (target s.pc n) with gpr := s.gpr.set 9 (s.pc + 8) }
  | .jr b => if (s.gpr b).toNat % 4 = 0 then some (s.go (s.gpr b)) else none
  | .lbz d a i => (bus.loadByte s.bus (s.gpr a + i.signExtend 32)).map fun (x, β) =>
      { s.next with gpr := s.gpr.set d (x.setWidth 32), bus := β }
  | .sb i a b =>
      (bus.storeByte s.bus (s.gpr a + i.signExtend 32) ((s.gpr b).setWidth 8)).map fun β =>
        { s.next with bus := β }
  | .sw i a b =>
      if (s.gpr a + i.signExtend 32).toNat % 4 = 0 then
        (bus.storeWord s.bus (s.gpr a + i.signExtend 32) (s.gpr b)).map fun β =>
          { s.next with bus := β }
      else none
  | i => (i.alu s.gpr).map fun gpr => { s.next with gpr := gpr }

/-- One instruction of the code. -/
def step (code : Word → Option Instr) : Option (State β) := (code s.pc).bind (s.exec bus)

end State

/-! ## The rules -/

section Rules

variable {β : Type u} {bus : Bus β} {code : Word → Option Instr} {P : State β → Prop}
  {s : State β}

theorem step_of_fetched {i : Instr} (fetched : code s.pc = some i) :
    s.step bus code = s.exec bus i := by
  rw [State.step, fetched]
  rfl

theorem exec_alu {i : Instr} {g : Registers} (alu : i.alu s.gpr = some g) :
    s.exec bus i = some { s.next with gpr := g } := by
  cases i <;> cases alu <;> rfl

/-- An instruction that only changes a register. -/
theorem Leads.alu (i : Instr) {g : Registers} (fetched : code s.pc = some i)
    (alu : i.alu s.gpr = some g)
    (rest : Leads (State.step bus · code) P { s.next with gpr := g }) :
    Leads (State.step bus · code) P s :=
  .next ((step_of_fetched fetched).trans (exec_alu alu)) rest

/-- An instruction with another effect. -/
theorem Leads.exec (i : Instr) {s' : State β} (fetched : code s.pc = some i)
    (done : s.exec bus i = some s') (rest : Leads (State.step bus · code) P s') :
    Leads (State.step bus · code) P s :=
  .next ((step_of_fetched fetched).trans done) rest

end Rules

end OrpsocCores.Or1k
