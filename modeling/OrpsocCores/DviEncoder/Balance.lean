import OrpsocCores.DviEncoder.Coding

/-!
# The balance of a channel

The second stage of an encoder inverts a component where that brings the ones and zeros
sent so far closer to each other.  What was sent so far is in `cnt`, which has five bits
and a sign.  A recorder beside the encoder (`imbalance`) adds up the ones less the zeros of
the words that are sent, from the last control word or the last reset on.  `cnt` is that
sum at every edge of every run, it never leaves the range from -8 to 8, and so it never
overflows (`balanced`).
-/

set_option autoImplicit false

namespace OrpsocCores.DviEncoder.Encode

open LineCode Trace

/-- The ones less the zeros sent since the last control word or the last reset. -/
def imbalance (s : Regs) (edge : Edge) (sent : Int) : Int :=
  match edge with
  | .rstin => 0
  | .clkin i =>
      if i.rstin then 0
      else if s.deReg then sent + disparity (lsbFirst (step s edge).dout)
      else 0

/-- The adders of the second stage agree with the register they count. -/
structure Counted (s : Regs) : Prop where
  ones : s.n1qM.toNat = (lsbFirst s.qM70).count true
  zeros : s.n0qM.toNat = (lsbFirst s.qM70).count false

theorem Counted.clkin (s : Regs) (i : Inputs) : Counted (step s (.clkin i)) where
  ones := toNat_sumOfBits (s.qM.setWidth 8)
  zeros := by
    have whole := count_true_add_count_false (lsbFirst (s.qM.setWidth 8))
    have ones := toNat_sumOfBits (s.qM.setWidth 8)
    rw [length_lsbFirst] at whole
    have zeros : (8#4 - sumOfBits (s.qM.setWidth 8)).toNat =
        (lsbFirst (s.qM.setWidth 8)).count false := by
      rw [BitVec.toNat_sub, ones]
      simp only [BitVec.toNat_ofNat]
      omega
    exact zeros

theorem Counted.reset {s : Regs} (counted : Counted s) : Counted (step s .rstin) :=
  ⟨counted.ones, counted.zeros⟩

/-- The ones and zeros of the register, which are eight together. -/
theorem Counted.whole {s : Regs} (counted : Counted s) : s.n1qM.toNat + s.n0qM.toNat = 8 := by
  rw [counted.ones, counted.zeros, count_true_add_count_false, length_lsbFirst]

theorem Counted.disparity {s : Regs} (counted : Counted s) :
    LineCode.disparity (lsbFirst s.qM70) = (s.n1qM.toNat : Int) - s.n0qM.toNat := by
  rw [LineCode.disparity, counted.ones, counted.zeros]

/-! ## The counter -/

/-- The sign that a bit adds to the balance. -/
def sign (bit : Bool) : Int := if bit then 1 else -1

theorem disparity_word (inverted chained : Bool) (low : BitVec 8) :
    LineCode.disparity (lsbFirst (word inverted chained low)) =
      LineCode.disparity (lsbFirst low) + sign chained + sign inverted := by
  have single (bit : Bool) : LineCode.disparity [bit] = sign bit := by cases bit <;> rfl
  rw [lsbFirst_word, disparity_append, disparity_append, single, single]

theorem disparity_inverted (low : BitVec 8) :
    LineCode.disparity (lsbFirst (~~~low)) = -LineCode.disparity (lsbFirst low) := by
  rw [lsbFirst_not, disparity_not]

theorem setWidth_eq_ofInt {w v : Nat} (x : BitVec w) :
    x.setWidth v = BitVec.ofInt v (x.toNat : Int) := by
  rw [BitVec.ofInt_natCast, BitVec.ofNat_toNat]

theorem ofInt_sub {w : Nat} (x y : Int) :
    BitVec.ofInt w (x - y) = BitVec.ofInt w x - BitVec.ofInt w y := by
  rw [Int.sub_eq_add_neg, BitVec.ofInt_add, BitVec.ofInt_neg, BitVec.sub_eq_add_neg]

/-- **The counter adds the ones less the zeros of the word that is sent.** -/
theorem cntNext_eq {s : Regs} (counted : Counted s) (shown : s.deReg = true) {sent : Int}
    (cnt : s.cnt = BitVec.ofInt 5 sent) :
    s.cntNext = BitVec.ofInt 5 (sent + LineCode.disparity (lsbFirst s.doutNext)) := by
  have twice (bit : Bool) : (BitVec.ofBool bit ++ 0#1).setWidth 5 =
      BitVec.ofInt 5 (1 + sign bit) := by cases bit <;> rfl
  rw [Regs.cntNext, Regs.doutNext, if_pos shown, if_pos shown, setWidth_eq_ofInt,
    setWidth_eq_ofInt, cnt]
  split
  · cases high : s.qM8 with
    | true =>
        rw [Bool.not_true, if_neg Bool.false_ne_true, if_pos rfl, disparity_word,
          counted.disparity, ← BitVec.ofInt_add, ← ofInt_sub]
        congr 1
        simp only [sign, Bool.false_eq_true, ↓reduceIte]
        omega
    | false =>
        rw [Bool.not_false, if_pos rfl, if_neg Bool.false_ne_true, disparity_word,
          disparity_inverted, counted.disparity, ← BitVec.ofInt_add, ← ofInt_sub]
        congr 1
        simp only [sign, Bool.false_eq_true, ↓reduceIte]
        omega
  · split
    · rw [twice, disparity_word, disparity_inverted, counted.disparity, ← BitVec.ofInt_add,
        ← ofInt_sub, ← BitVec.ofInt_add]
      congr 1
      simp only [sign, ↓reduceIte]
      omega
    · rw [twice, disparity_word, counted.disparity, ← ofInt_sub, ← ofInt_sub,
        ← BitVec.ofInt_add]
      congr 1
      cases s.qM8 <;> simp only [sign, Bool.not_true, Bool.not_false, Bool.false_eq_true,
        ↓reduceIte] <;> omega

/-! ## The decisions -/

section Decisions

variable {s : Regs} {sent : Int} (cnt : s.cnt.toInt = sent)

include cnt in
theorem decision2_iff :
    s.decision2 = true ↔ sent = 0 ∨ s.n1qM.toNat = s.n0qM.toNat := by
  have zero : s.cnt = 0#5 ↔ sent = 0 := by rw [← cnt, ← BitVec.toInt_inj]; exact Iff.rfl
  rw [Regs.decision2, Bool.or_eq_true, beq_iff_eq, beq_iff_eq, zero, BitVec.toNat_inj]

include cnt in
theorem decision3_iff : s.decision3 = true ↔
    (0 ≤ sent ∧ s.n0qM.toNat < s.n1qM.toNat) ∨ (sent < 0 ∧ s.n1qM.toNat < s.n0qM.toNat) := by
  have negative : s.cnt.getLsbD 4 = decide (sent < 0) := by
    rw [← cnt, ← BitVec.msb_eq_toInt, BitVec.msb_eq_getLsbD_last]
  simp only [Regs.decision3, negative, Bool.or_eq_true, Bool.and_eq_true, Bool.not_eq_true',
    decide_eq_true_eq, decide_eq_false_iff_not, Int.not_lt, gt_iff_lt, BitVec.lt_def]

/-- **A component goes out with the polarity that brings the sum back.** -/
theorem bounded_word (counted : Counted s) (shown : s.deReg = true) (even : sent % 2 = 0)
    (bounded : -8 ≤ sent ∧ sent ≤ 8) (cnt : s.cnt.toInt = sent) :
    let next := sent + LineCode.disparity (lsbFirst s.doutNext)
    next % 2 = 0 ∧ -8 ≤ next ∧ next ≤ 8 := by
  have whole := counted.whole
  have signs (bit : Bool) : sign bit = 1 ∨ sign bit = -1 := by cases bit <;> decide
  rw [Regs.doutNext, if_pos shown]
  split
  · next balanced =>
      rw [decision2_iff cnt] at balanced
      cases high : s.qM8 <;>
        simp only [disparity_word, disparity_inverted, counted.disparity, sign, Bool.not_true,
          Bool.not_false, Bool.false_eq_true, ↓reduceIte] <;> omega
  · next unbalanced =>
      rw [decision2_iff cnt] at unbalanced
      split
      · next away =>
          rw [decision3_iff cnt] at away
          simp only [disparity_word, disparity_inverted, counted.disparity]
          rcases signs s.qM8 with high | high <;> rw [high] <;> simp only [sign, ↓reduceIte] <;>
            omega
      · next back =>
          rw [decision3_iff cnt] at back
          simp only [disparity_word, counted.disparity]
          rcases signs s.qM8 with high | high <;> rw [high] <;>
            simp only [sign, Bool.false_eq_true, ↓reduceIte] <;> omega

end Decisions

/-! ## Runs -/

/-- The counter holds the sum, and the sum is small. -/
structure Balanced (x : Regs × Int) : Prop where
  counted : Counted x.1
  cnt : x.1.cnt = BitVec.ofInt 5 x.2
  even : x.2 % 2 = 0
  bounded : -8 ≤ x.2 ∧ x.2 ≤ 8

theorem Balanced.toInt_cnt {x : Regs × Int} (held : Balanced x) : x.1.cnt.toInt = x.2 := by
  have bounded := held.bounded
  rw [held.cnt, BitVec.toInt_ofInt_eq_self (by decide) (by omega) (by omega)]

/-- After an edge with an empty sum. -/
theorem Balanced.cleared {s : Regs} (counted : Counted s) (cnt : s.cnt = 0) :
    Balanced (s, 0) := ⟨counted, cnt, rfl, by simp, by simp⟩

theorem Balanced.step {x : Regs × Int} (held : Balanced x) (edge : Edge) :
    Balanced (monitored step imbalance x edge) := by
  obtain ⟨s, sent⟩ := x
  cases edge with
  | rstin => exact .cleared held.counted.reset rfl
  | clkin i =>
      have counted := Counted.clkin s i
      cases reset : i.rstin with
      | true =>
          have cnt : (Encode.step s (.clkin i)).cnt = 0 := if_pos reset
          rw [monitored, imbalance, if_pos reset]
          exact .cleared counted cnt
      | false =>
          have released : ¬ i.rstin = true := by rw [reset]; exact Bool.false_ne_true
          have cnt : (Encode.step s (.clkin i)).cnt = s.cntNext := if_neg released
          have dout : (Encode.step s (.clkin i)).dout = s.doutNext := if_neg released
          rw [monitored, imbalance, if_neg released]
          by_cases shown : s.deReg = true
          · have next := bounded_word held.counted shown held.even held.bounded held.toInt_cnt
            rw [if_pos shown, dout]
            exact ⟨counted, cnt.trans (cntNext_eq held.counted shown held.cnt), next.1, next.2⟩
          · have empty : s.cntNext = 0 := by rw [Regs.cntNext, if_neg shown]
            rw [if_neg shown]
            exact .cleared counted (cnt.trans empty)

/-- **The sum of what is sent stays between -8 and 8 in every run that begins with a reset,
and the counter is that sum.** -/
theorem balanced (s : Regs) (first : Inputs) (reset : first.rstin = true) (edges : List Edge) :
    let x := after (monitored step imbalance) (step s (.clkin first), 0) edges
    x.1.cnt.toInt = x.2 ∧ -8 ≤ x.2 ∧ x.2 ≤ 8 := by
  have initially : Balanced (step s (.clkin first), 0) :=
    .cleared (Counted.clkin s first) (if_pos reset)
  have held : Balanced (after (monitored step imbalance) (step s (.clkin first), 0) edges) :=
    Always.invariant Balanced (fun _ edge held _ => held.step edge) initially
      (always_true _ _ edges)
  exact ⟨held.toInt_cnt, held.bounded⟩

/-- Eight ones or zeros in a row are the most that one word adds. -/
theorem balanced_white :
    let blank : Inputs := ⟨true, 0, false, false, false⟩
    let white : Inputs := ⟨false, 255, false, false, true⟩
    let x := after (monitored step imbalance)
      (step ⟨0, 0, 0, 0, 0, false, false, false, false, false, false, 0, 0⟩ (.clkin blank), 0)
      [.clkin white, .clkin white, .clkin white, .clkin white]
    x.1.cnt.toInt = x.2 ∧ -8 ≤ x.2 ∧ x.2 ≤ 8 :=
  balanced _ _ rfl _

end OrpsocCores.DviEncoder.Encode
