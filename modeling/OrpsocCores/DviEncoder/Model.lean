import OrpsocCores.Foundation.LineCode
import OrpsocCores.Foundation.Trace

/-!
# The DVI encoder

`encode.v` makes the ten bits that one channel of a DVI link sends in a pixel clock.  The
word stands for a pixel component while the display is active, and for two control bits
otherwise.  A component is coded in two stages: the first one limits the changes of the
line, the second one keeps its ones and zeros in balance.

`Encode.Regs` holds the registers of all processes, and `Encode.step` is an edge of the
pixel clock or of the reset, which is asynchronous and reaches `dout` and `cnt` only.
`dvi_encoder.v` is three of these encoders beside each other.
-/

set_option autoImplicit false

namespace OrpsocCores.DviEncoder

namespace Encode

structure Inputs where
  rstin : Bool
  din : BitVec 8
  c0 : Bool
  c1 : Bool
  de : Bool
  deriving DecidableEq

structure Regs where
  n1d : BitVec 4
  dinQ : BitVec 8
  n1qM : BitVec 4
  n0qM : BitVec 4
  cnt : BitVec 5
  deQ : Bool
  deReg : Bool
  c0Q : Bool
  c1Q : Bool
  c0Reg : Bool
  c1Reg : Bool
  qMReg : BitVec 9
  dout : BitVec 10
  deriving DecidableEq

/-- What the processes wait for: a rising edge of the pixel clock, with the inputs it
samples, or one of the reset. -/
inductive Edge
  | clkin (i : Inputs)
  | rstin

def CTRLTOKEN0 : BitVec 10 := 0b1101010100#10
def CTRLTOKEN1 : BitVec 10 := 0b0010101011#10
def CTRLTOKEN2 : BitVec 10 := 0b0101010100#10
def CTRLTOKEN3 : BitVec 10 := 0b1010101011#10

/-- `x[0] + x[1] + ... + x[7]`, in the four bits it is assigned to. -/
def sumOfBits (x : BitVec 8) : BitVec 4 :=
  let bit (i : Nat) : BitVec 4 := (BitVec.ofBool (x.getLsbD i)).setWidth 4
  bit 0 + bit 1 + bit 2 + bit 3 + bit 4 + bit 5 + bit 6 + bit 7

/-- `dout[9]`, `dout[8]` and `dout[7:0]`. -/
def word (inverted chained : Bool) (low : BitVec 8) : BitVec 10 :=
  BitVec.ofBool inverted ++ BitVec.ofBool chained ++ low

namespace Regs

variable (s : Regs)

/-! ## Stage 1: 8 bit -> 9 bit -/

def decision1 : Bool := s.n1d > 4#4 || (s.n1d == 4#4 && s.dinQ.getLsbD 0 == false)

def qM : BitVec 9 :=
  let d := s.dinQ.getLsbD
  let q0 := d 0
  let q1 := if s.decision1 then !(q0 ^^ d 1) else q0 ^^ d 1
  let q2 := if s.decision1 then !(q1 ^^ d 2) else q1 ^^ d 2
  let q3 := if s.decision1 then !(q2 ^^ d 3) else q2 ^^ d 3
  let q4 := if s.decision1 then !(q3 ^^ d 4) else q3 ^^ d 4
  let q5 := if s.decision1 then !(q4 ^^ d 5) else q4 ^^ d 5
  let q6 := if s.decision1 then !(q5 ^^ d 6) else q5 ^^ d 6
  let q7 := if s.decision1 then !(q6 ^^ d 7) else q6 ^^ d 7
  let q8 := if s.decision1 then false else true
  LineCode.ofLsbFirst [q0, q1, q2, q3, q4, q5, q6, q7, q8]

/-! ## Stage 2: 9 bit -> 10 bit -/

def decision2 : Bool := s.cnt == 0#5 || s.n1qM == s.n0qM

def decision3 : Bool :=
  (!s.cnt.getLsbD 4 && s.n1qM > s.n0qM) || (s.cnt.getLsbD 4 && s.n0qM > s.n1qM)

/-- `q_m_reg[8]`. -/
def qM8 : Bool := s.qMReg.getLsbD 8

/-- `q_m_reg[7:0]`. -/
def qM70 : BitVec 8 := s.qMReg.setWidth 8

/-- The word of the two control bits. -/
def controlToken : BitVec 10 :=
  match s.c1Reg, s.c0Reg with
  | false, false => CTRLTOKEN0
  | false, true => CTRLTOKEN1
  | true, false => CTRLTOKEN2
  | true, true => CTRLTOKEN3

/-- What is assigned to `dout` with the reset released. -/
def doutNext : BitVec 10 :=
  if s.deReg then
    if s.decision2 then
      word (!s.qM8) s.qM8 (if s.qM8 then s.qM70 else ~~~s.qM70)
    else if s.decision3 then
      word true s.qM8 (~~~s.qM70)
    else
      word false s.qM8 s.qM70
  else s.controlToken

/-- What is assigned to `cnt` with the reset released. -/
def cntNext : BitVec 5 :=
  let n1 := s.n1qM.setWidth 5
  let n0 := s.n0qM.setWidth 5
  if s.deReg then
    if s.decision2 then
      if !s.qM8 then s.cnt + n0 - n1 else s.cnt + n1 - n0
    else if s.decision3 then
      s.cnt + (BitVec.ofBool s.qM8 ++ 0#1).setWidth 5 + (n0 - n1)
    else
      s.cnt - (BitVec.ofBool (!s.qM8) ++ 0#1).setWidth 5 + (n1 - n0)
  else 0

end Regs

def step (s : Regs) : Edge → Regs
  | .rstin => { s with dout := 0, cnt := 0 }
  | .clkin i =>
      { n1d := sumOfBits i.din
        dinQ := i.din
        n1qM := sumOfBits (s.qM.setWidth 8)
        n0qM := 8#4 - sumOfBits (s.qM.setWidth 8)
        cnt := if i.rstin then 0 else s.cntNext
        deQ := i.de
        deReg := s.deQ
        c0Q := i.c0
        c1Q := i.c1
        c0Reg := s.c0Q
        c1Reg := s.c1Q
        qMReg := s.qM
        dout := if i.rstin then 0 else s.doutNext }

end Encode

/-! ## The three channels -/

structure Inputs where
  rstin : Bool
  blueDin : BitVec 8
  greenDin : BitVec 8
  redDin : BitVec 8
  hsync : Bool
  vsync : Bool
  de : Bool
  deriving DecidableEq

/-- `encb`, `encg` and `encr`. -/
structure Regs where
  encb : Encode.Regs
  encg : Encode.Regs
  encr : Encode.Regs
  deriving DecidableEq

inductive Edge
  | clkin (i : Inputs)
  | rstin

namespace Inputs

variable (i : Inputs)

def encb : Encode.Inputs := ⟨i.rstin, i.blueDin, i.hsync, i.vsync, i.de⟩
def encg : Encode.Inputs := ⟨i.rstin, i.greenDin, false, false, i.de⟩
def encr : Encode.Inputs := ⟨i.rstin, i.redDin, false, false, i.de⟩

end Inputs

/-- An edge, as a channel sees it. -/
def Edge.channel (port : Inputs → Encode.Inputs) : Edge → Encode.Edge
  | .clkin i => .clkin (port i)
  | .rstin => .rstin

def step (s : Regs) (edge : Edge) : Regs where
  encb := Encode.step s.encb (edge.channel Inputs.encb)
  encg := Encode.step s.encg (edge.channel Inputs.encg)
  encr := Encode.step s.encr (edge.channel Inputs.encr)

/-- `s_data`: the upper halves of the three words, and under them the lower halves. -/
def Regs.sData (s : Regs) : BitVec 30 :=
  let red := s.encr.dout
  let green := s.encg.dout
  let blue := s.encb.dout
  red.extractLsb' 5 5 ++ green.extractLsb' 5 5 ++ blue.extractLsb' 5 5 ++
    red.extractLsb' 0 5 ++ green.extractLsb' 0 5 ++ blue.extractLsb' 0 5

end OrpsocCores.DviEncoder
