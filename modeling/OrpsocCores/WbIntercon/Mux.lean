import OrpsocCores.VerilogUtils

/-!
# The address decoder of the interconnect

`wb_mux.v` compares the masked address with the match value of every slave and raises
`cyc` for the one that `ff1` picks.  The parameter tables are lists in the order of the
concatenation that defines them, the most significant word first, so that slave
`idx` owns the word `idx` places from the end.
-/

set_option autoImplicit false

namespace OrpsocCores.WbIntercon

open VerilogUtils

variable {aw : Nat}

/-- The parameters of a `wb_mux`. -/
structure Mux (aw : Nat) where
  numSlaves : Nat
  matchAddr : List (BitVec aw)
  matchMask : List (BitVec aw)

namespace Mux

/-- `TABLE[idx*aw+:aw]`. -/
def slice (table : List (BitVec aw)) (idx : Nat) : BitVec aw := table.reverse.getD idx 0

/-- `match[idx]`. -/
def matchAt (mux : Mux aw) (wbmAdrI : BitVec aw) (idx : Nat) : Bool :=
  (wbmAdrI &&& slice mux.matchMask idx) == slice mux.matchAddr idx

/-- `match`, as the integer that `ff1` receives. -/
def matchBits (mux : Mux aw) (wbmAdrI : BitVec aw) : BitVec 32 :=
  (BitVec.ofBoolListLE ((List.range mux.numSlaves).map (mux.matchAt wbmAdrI))).setWidth 32

/-- `slave_sel_bits`. -/
def slaveSelBits (mux : Mux aw) : Nat := if 1 < mux.numSlaves then clog2 mux.numSlaves else 1

/-- `slave_sel`. -/
def slaveSel (mux : Mux aw) (wbmAdrI : BitVec aw) : Nat :=
  ff1 (mux.matchBits wbmAdrI) mux.numSlaves % 2 ^ mux.slaveSelBits

/-- `wbs_cyc_o[idx]`. -/
def wbsCycO (mux : Mux aw) (wbmAdrI : BitVec aw) (wbmCycI : Bool) (idx : Nat) : Bool :=
  mux.matchAt wbmAdrI idx && wbmCycI && idx == mux.slaveSel wbmAdrI

variable {mux : Mux aw} {adr : BitVec aw} {idx : Nat}

theorem getLsbD_matchBits (inside : idx < mux.numSlaves) :
    (mux.matchBits adr).getLsbD idx = (decide (idx < 32) && mux.matchAt adr idx) := by
  rw [matchBits, BitVec.getLsbD_setWidth, BitVec.getLsbD_ofBoolListLE]
  simp [List.getD_eq_getElem?_getD, inside]

/-- The select register is wide enough for what `ff1` returns. -/
theorem slaveSel_eq_ff1 (inside : idx < mux.numSlaves) :
    mux.slaveSel adr = ff1 (mux.matchBits adr) mux.numSlaves := by
  have below := ff1_lt (x := mux.matchBits adr) (Nat.zero_lt_of_lt inside)
  refine Nat.mod_eq_of_lt (Nat.lt_of_lt_of_le below ?_)
  rw [slaveSelBits]
  split
  case isTrue => exact le_two_pow_clog2 mux.numSlaves
  case isFalse => omega

/-- **`cyc` reaches the lowest matching slave**, if it is among the first 32. -/
theorem wbsCycO_iff (inside : idx < mux.numSlaves) :
    mux.wbsCycO adr true idx = true ↔
      mux.matchAt adr idx = true ∧ idx < 32 ∧ ∀ j < idx, mux.matchAt adr j = false := by
  rw [wbsCycO, Bool.and_true, Bool.and_eq_true, beq_iff_eq, slaveSel_eq_ff1 inside, eq_comm (a := idx)]
  refine and_congr_right fun matched => ?_
  have bits : ∀ j < mux.numSlaves, (mux.matchBits adr).getLsbD j =
      (decide (j < 32) && mux.matchAt adr j) := fun j below => getLsbD_matchBits below
  by_cases low : idx < 32
  · rw [ff1_eq_iff (by rw [bits idx inside]; simp [low, matched]) inside]
    constructor
    · intro first
      refine ⟨low, fun j below => ?_⟩
      have clear := first j below
      rw [bits j (Nat.lt_trans below inside)] at clear
      simpa [Nat.lt_trans below low] using clear
    · rintro ⟨-, first⟩ j below
      rw [bits j (Nat.lt_trans below inside), first j below, Bool.and_false]
  · -- A slave beyond the integer's width is never found.
    refine iff_of_false (fun found => ?_) (fun both => low both.1)
    rcases ff1Loop_spec (mux.matchBits adr) mux.numSlaves 0 with ⟨set, below, -⟩ | ⟨zero, -⟩
    · rw [ff1] at found
      rw [bits _ below, found] at set
      simp [low] at set
    · rw [ff1, zero] at found
      omega

end Mux

end OrpsocCores.WbIntercon
