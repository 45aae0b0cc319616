import OrpsocCores.DviEncoder.Model

/-!
# What a DVI link carries

A receiver tells the four control words from the others, and undoes the two stages of the
encoder on the others (`receive`).  It needs no state: the inversion that keeps the balance
is told by the highest bit of a word, and the kind of chain by the bit below.

The first stage changes the line at most three times in the eight bits of a component,
because it asks for a change at the ones where these are few and at the zeros otherwise
(`changes_qM`).  A word for a component therefore has at most five changes, and a control
word at least seven: no component is taken for a control word.
-/

set_option autoImplicit false

namespace OrpsocCores.DviEncoder

open LineCode

/-- What a word of the link stands for. -/
inductive Symbol
  | pixel (component : BitVec 8)
  | control (c1 c0 : Bool)
  deriving DecidableEq

/-- The component of a word: the inversion and then the chain are undone. -/
def component (word : BitVec 10) : BitVec 8 :=
  match lsbFirst (if word.getLsbD 9 then ~~~word.setWidth 8 else word.setWidth 8) with
  | [] => 0
  | first :: bits => ofLsbFirst (first :: unchain (!word.getLsbD 8) first bits)

/-- The receiver of a channel. -/
def receive (word : BitVec 10) : Symbol :=
  if word = Encode.CTRLTOKEN0 then .control false false
  else if word = Encode.CTRLTOKEN1 then .control false true
  else if word = Encode.CTRLTOKEN2 then .control true false
  else if word = Encode.CTRLTOKEN3 then .control true true
  else .pixel (component word)

/-- What the inputs of a channel ask it to send. -/
def Encode.Inputs.symbol (i : Encode.Inputs) : Symbol :=
  if i.de then .pixel i.din else .control i.c1 i.c0

/-! ## The bits of a component -/

theorem lsbFirst_eight (x : BitVec 8) :
    lsbFirst x = [x.getLsbD 0, x.getLsbD 1, x.getLsbD 2, x.getLsbD 3, x.getLsbD 4,
      x.getLsbD 5, x.getLsbD 6, x.getLsbD 7] := rfl

/-- The adder of the encoder counts the ones. -/
theorem toNat_sumOfBits (x : BitVec 8) :
    (Encode.sumOfBits x).toNat = (lsbFirst x).count true := by
  have bit (b : Bool) : ((BitVec.ofBool b).setWidth 4).toNat = b.toNat := by cases b <;> rfl
  have one (b : Bool) : (if b = true then 1 else 0) = b.toNat := by cases b <;> rfl
  have le (b : Bool) : b.toNat ≤ 1 := Bool.toNat_le b
  simp only [Encode.sumOfBits, BitVec.toNat_add, bit, lsbFirst_eight, List.count_cons,
    List.count_nil, beq_iff_eq, one]
  have le0 := le (x.getLsbD 0)
  have le1 := le (x.getLsbD 1)
  have le2 := le (x.getLsbD 2)
  have le3 := le (x.getLsbD 3)
  have le4 := le (x.getLsbD 4)
  have le5 := le (x.getLsbD 5)
  have le6 := le (x.getLsbD 6)
  have le7 := le (x.getLsbD 7)
  omega

/-! ## The first stage -/

/-- The eight bits of the first stage: the first bit of the component, and a chain of the
others. -/
def coded (invert : Bool) (x : BitVec 8) : List Bool :=
  x.getLsbD 0 :: chain invert (x.getLsbD 0) (lsbFirst x).tail

theorem lsbFirst_qM (s : Encode.Regs) :
    lsbFirst s.qM = coded s.decision1 s.dinQ ++ [!s.decision1] := by
  rw [Encode.Regs.qM, lsbFirst_ofLsbFirst _ rfl, coded, lsbFirst_eight]
  simp only [List.tail_cons, chain]
  cases s.decision1 <;> simp

theorem lsbFirst_qM_low (s : Encode.Regs) :
    lsbFirst (s.qM.setWidth 8) = coded s.decision1 s.dinQ := by
  rw [lsbFirst_setWidth s.qM (by decide), lsbFirst_qM]
  exact List.take_left' (by simp [coded])

theorem qM_high (s : Encode.Regs) : s.qM.getLsbD 8 = !s.decision1 := by
  rw [getLsbD_eq_getD, lsbFirst_qM]
  rfl

/-- **The first stage changes the line at most three times.** -/
theorem changes_qM (s : Encode.Regs) (counted : s.n1d = Encode.sumOfBits s.dinQ) :
    transitions (lsbFirst (s.qM.setWidth 8)) ≤ 3 := by
  have ones : s.n1d.toNat = (lsbFirst s.dinQ).count true := by rw [counted, toNat_sumOfBits]
  have whole : (lsbFirst s.dinQ).count true + (lsbFirst s.dinQ).count false = 8 := by
    rw [count_true_add_count_false, length_lsbFirst]
  have split (bit : Bool) : (lsbFirst s.dinQ).count bit =
      (lsbFirst s.dinQ).tail.count bit + if s.dinQ.getLsbD 0 = bit then 1 else 0 := by
    rw [lsbFirst_eight, List.count_cons, List.tail_cons]
    simp only [beq_iff_eq]
  rw [lsbFirst_qM_low, coded, transitions_chain]
  have decided : s.decision1 = (decide (4 < s.n1d.toNat) ||
      decide (s.n1d.toNat = 4) && !s.dinQ.getLsbD 0) := by
    have four : (s.n1d == 4#4) = decide (s.n1d.toNat = 4) := by
      rw [Bool.eq_iff_iff]
      simp [BitVec.toNat_eq]
    simp only [Encode.Regs.decision1, four, BitVec.lt_def, gt_iff_lt, beq_false]
    rfl
  have trues := split true
  have falses := split false
  rw [decided]
  cases first : s.dinQ.getLsbD 0 <;> simp only [first, Bool.not_false, Bool.not_true,
      Bool.and_true, Bool.and_false, Bool.or_false, ← Bool.decide_or, reduceCtorEq,
      ↓reduceIte] at trues falses ⊢
  · by_cases many : 4 < s.n1d.toNat ∨ s.n1d.toNat = 4
    · rw [decide_eq_true many, Bool.not_true]
      omega
    · rw [decide_eq_false many, Bool.not_false]
      omega
  · by_cases many : 4 < s.n1d.toNat
    · rw [decide_eq_true many, Bool.not_true]
      omega
    · rw [decide_eq_false many, Bool.not_false]
      omega

/-! ## The second stage -/

section Word

variable (inverted chained : Bool) (low : BitVec 8)

theorem lsbFirst_word :
    lsbFirst (Encode.word inverted chained low) = lsbFirst low ++ [chained] ++ [inverted] := by
  have outer := lsbFirst_append (BitVec.ofBool inverted ++ BitVec.ofBool chained) low
  have inner := lsbFirst_append (BitVec.ofBool inverted) (BitVec.ofBool chained)
  rw [lsbFirst_ofBool, lsbFirst_ofBool] at inner
  exact outer.trans (by rw [inner, List.append_assoc])

theorem word_inverted : (Encode.word inverted chained low).getLsbD 9 = inverted := by
  rw [getLsbD_eq_getD, lsbFirst_word, lsbFirst_eight]
  rfl

theorem word_chained : (Encode.word inverted chained low).getLsbD 8 = chained := by
  rw [getLsbD_eq_getD, lsbFirst_word, lsbFirst_eight]
  rfl

theorem word_low : (Encode.word inverted chained low).setWidth 8 = low := by
  apply lsbFirst_injective
  rw [lsbFirst_setWidth _ (by decide), lsbFirst_word, List.append_assoc]
  exact List.take_left' (length_lsbFirst low)

/-- The two bits of the second stage are at most two changes more. -/
theorem transitions_word_le :
    transitions (lsbFirst (Encode.word inverted chained low)) ≤ transitions (lsbFirst low) + 2 := by
  have outer := transitions_concat_le (lsbFirst low ++ [chained]) inverted
  have inner := transitions_concat_le (lsbFirst low) chained
  rw [lsbFirst_word]
  omega

end Word

/-- A component goes out inverted or as it is, and its highest bit tells. -/
theorem doutNext_pixel (s : Encode.Regs) (shown : s.deReg = true) : ∃ inverted,
    s.doutNext = Encode.word inverted s.qM8 (if inverted then ~~~s.qM70 else s.qM70) := by
  rw [Encode.Regs.doutNext, if_pos shown]
  split
  · exact ⟨!s.qM8, by cases s.qM8 <;> rfl⟩
  · split
    · exact ⟨true, rfl⟩
    · exact ⟨false, rfl⟩

/-- The inversion of a word is undone first. -/
theorem component_word (inverted chained : Bool) (low x : BitVec 8)
    (chain : lsbFirst low = coded (!chained) x) :
    component (Encode.word inverted chained (if inverted then ~~~low else low)) = x := by
  have back : (if inverted = true then ~~~(if inverted = true then ~~~low else low)
      else if inverted = true then ~~~low else low) = low := by
    cases inverted
    · rfl
    · exact BitVec.not_not
  have bits : x.getLsbD 0 :: (lsbFirst x).tail = lsbFirst x := by rw [lsbFirst_eight, List.tail_cons]
  rw [component, word_inverted, word_chained, word_low, back, chain]
  simp only [coded, unchain_chain, bits, ofLsbFirst_lsbFirst]

/-- The changes of a word for a component, without those of its two highest bits. -/
theorem transitions_inverted (inverted : Bool) (low : BitVec 8) :
    transitions (lsbFirst (if inverted then ~~~low else low)) = transitions (lsbFirst low) := by
  cases inverted
  · rfl
  · exact (congrArg transitions (lsbFirst_not low)).trans (transitions_not _)

/-! ## Control words -/

/-- **A control word has more changes than a word for a component.** -/
theorem le_transitions_controlToken (s : Encode.Regs) :
    7 ≤ transitions (lsbFirst s.controlToken) := by
  rw [Encode.Regs.controlToken]
  cases s.c1Reg <;> cases s.c0Reg <;> decide

theorem receive_controlToken (s : Encode.Regs) :
    receive s.controlToken = .control s.c1Reg s.c0Reg := by
  rw [Encode.Regs.controlToken]
  cases s.c1Reg <;> cases s.c0Reg <;> rfl

/-- A word with few changes is none of the control words. -/
theorem receive_of_transitions (word : BitVec 10) (few : transitions (lsbFirst word) ≤ 5) :
    receive word = .pixel (component word) := by
  have not0 : word ≠ Encode.CTRLTOKEN0 := by rintro rfl; exact absurd few (by decide)
  have not1 : word ≠ Encode.CTRLTOKEN1 := by rintro rfl; exact absurd few (by decide)
  have not2 : word ≠ Encode.CTRLTOKEN2 := by rintro rfl; exact absurd few (by decide)
  have not3 : word ≠ Encode.CTRLTOKEN3 := by rintro rfl; exact absurd few (by decide)
  rw [receive, if_neg not0, if_neg not1, if_neg not2, if_neg not3]

end OrpsocCores.DviEncoder
