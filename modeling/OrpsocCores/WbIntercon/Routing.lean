import OrpsocCores.WbIntercon.Mux

/-!
# What a master sees through the multiplexer

The responses of the slaves as `wb_mux.v` hands them back: those of the slave that
`slave_sel` names, whether it matched or not.  Where no slave matches, `slave_sel` names
slave 0, which stays silent because it sees no `cyc`.

`ff1` takes a 32-bit integer, so the header's promise of any number of slaves ends at
32: `routes_iff` says for which addresses it is kept.
-/

set_option autoImplicit false

namespace OrpsocCores.WbIntercon

variable {aw dw : Nat}

/-- What the slaves answer, by index. -/
structure Replies (dw : Nat) where
  dat : Nat → BitVec dw
  ack : Nat → Bool
  err : Nat → Bool
  rty : Nat → Bool

/-- No slave answers. -/
def Replies.silent : Replies dw := ⟨fun _ => 0, fun _ => false, fun _ => false, fun _ => false⟩

namespace Mux

/-- `wbm_dat_o`. -/
def wbmDatO (mux : Mux aw) (wbmAdrI : BitVec aw) (replies : Replies dw) : BitVec dw :=
  replies.dat (mux.slaveSel wbmAdrI)

/-- `wbm_ack_o`. -/
def wbmAckO (mux : Mux aw) (wbmAdrI : BitVec aw) (replies : Replies dw) : Bool :=
  replies.ack (mux.slaveSel wbmAdrI)

/-- `wbm_rty_o`. -/
def wbmRtyO (mux : Mux aw) (wbmAdrI : BitVec aw) (replies : Replies dw) : Bool :=
  replies.rty (mux.slaveSel wbmAdrI)

/-- `wbm_err` after an edge of `wb_clk_i`. -/
def wbmErrAfter (mux : Mux aw) (wbmAdrI : BitVec aw) (wbmCycI : Bool) : Bool :=
  wbmCycI && !(List.range mux.numSlaves).any (mux.matchAt wbmAdrI)

/-- `wbm_err_o`. -/
def wbmErrO (mux : Mux aw) (wbmAdrI : BitVec aw) (wbmErr : Bool) (replies : Replies dw) : Bool :=
  replies.err (mux.slaveSel wbmAdrI) || wbmErr

/-- A slave responds only while its own `cyc` and `stb` are high. -/
def Responsive (mux : Mux aw) (wbmAdrI : BitVec aw) (wbmCycI wbmStbI : Bool)
    (replies : Replies dw) : Prop :=
  ∀ idx < mux.numSlaves, (replies.ack idx || replies.err idx || replies.rty idx) = true →
    mux.wbsCycO wbmAdrI wbmCycI idx = true ∧ wbmStbI = true

/-- The matching slave with the lowest index. -/
def Lowest (mux : Mux aw) (wbmAdrI : BitVec aw) (idx : Nat) : Prop :=
  idx < mux.numSlaves ∧ mux.matchAt wbmAdrI idx = true ∧
    ∀ j < idx, mux.matchAt wbmAdrI j = false

/-- The request and its answer go by the slave that the address selects. -/
structure Routes (mux : Mux aw) (wbmAdrI : BitVec aw) (wbmCycI : Bool) (replies : Replies dw) :
    Prop where
  single : ∀ i < mux.numSlaves, ∀ j < mux.numSlaves, mux.wbsCycO wbmAdrI wbmCycI i = true →
    mux.wbsCycO wbmAdrI wbmCycI j = true → i = j
  matched : ∀ idx, mux.Lowest wbmAdrI idx →
    (∀ j < mux.numSlaves, mux.wbsCycO wbmAdrI wbmCycI j = (wbmCycI && j == idx)) ∧
      mux.wbmDatO wbmAdrI replies = replies.dat idx ∧
      mux.wbmAckO wbmAdrI replies = replies.ack idx ∧
      mux.wbmRtyO wbmAdrI replies = replies.rty idx
  unmatched : (∀ j < mux.numSlaves, mux.matchAt wbmAdrI j = false) →
    (∀ j < mux.numSlaves, mux.wbsCycO wbmAdrI wbmCycI j = false) ∧
      mux.wbmAckO wbmAdrI replies = false ∧ mux.wbmRtyO wbmAdrI replies = false

variable {mux : Mux aw} {adr : BitVec aw}

/-- The lowest match is selected, if it is among the first 32 slaves. -/
theorem Lowest.slaveSel_eq {idx : Nat} (lowest : mux.Lowest adr idx) (low : idx < 32) :
    mux.slaveSel adr = idx := by
  have selected := (wbsCycO_iff lowest.1).mpr ⟨lowest.2.1, low, lowest.2.2⟩
  simp only [wbsCycO, Bool.and_eq_true, beq_iff_eq] at selected
  exact selected.2.symm

theorem slaveSel_lt (adr : BitVec aw) (positive : 0 < mux.numSlaves) :
    mux.slaveSel adr < mux.numSlaves := by
  rw [slaveSel_eq_ff1 positive]
  exact VerilogUtils.ff1_lt positive

/-- A slave that sees no `cyc` does not answer. -/
theorem Responsive.silent {cyc stb : Bool} {replies : Replies dw}
    (responsive : mux.Responsive adr cyc stb replies) {idx : Nat} (inside : idx < mux.numSlaves)
    (quiet : mux.wbsCycO adr cyc idx = false) :
    replies.ack idx = false ∧ replies.rty idx = false := by
  have none := responsive idx inside
  rw [quiet] at none
  cases ack : replies.ack idx <;> cases rty : replies.rty idx <;> simp_all

/-- A request that is routed at all goes to one of the first 32 slaves. -/
theorem Routes.lowest_lt {replies : Replies dw} (routes : mux.Routes adr true replies) {idx : Nat}
    (lowest : mux.Lowest adr idx) : idx < 32 := by
  have raised := (routes.matched idx lowest).1 idx lowest.1
  rw [Bool.true_and, beq_self_eq_true] at raised
  exact ((wbsCycO_iff lowest.1).mp raised).2.1

theorem responsive_silent (cyc stb : Bool) :
    mux.Responsive adr cyc stb (Replies.silent : Replies dw) := by
  intro j _ answers
  cases answers

/-- **A `wb_mux` routes every request at an address by its lowest match exactly when that
slave is among the first 32.** -/
theorem routes_iff (dw : Nat) (slaves : 1 ≤ mux.numSlaves) :
    (∀ (cyc stb : Bool) (replies : Replies dw), mux.Responsive adr cyc stb replies →
      mux.Routes adr cyc replies) ↔ ∀ idx, mux.Lowest adr idx → idx < 32 := by
  constructor
  · intro routes idx lowest
    exact (routes true true Replies.silent (responsive_silent true true)).lowest_lt lowest
  · intro low cyc stb replies responsive
    constructor
    case single =>
        intro i _ j _ first second
        simp only [wbsCycO, Bool.and_eq_true, beq_iff_eq] at first second
        exact first.2.trans second.2.symm
    case matched =>
        intro idx lowest
        have selected := lowest.slaveSel_eq (low idx lowest)
        refine ⟨?_, by rw [wbmDatO, selected], by rw [wbmAckO, selected], by rw [wbmRtyO, selected]⟩
        intro j _
        rw [wbsCycO, selected]
        by_cases here : j = idx
        · rw [here, lowest.2.1, Bool.true_and]
        · rw [beq_false_of_ne here, Bool.and_false, Bool.and_false]
    case unmatched =>
        intro none
        have quiet : ∀ j < mux.numSlaves, mux.wbsCycO adr cyc j = false := by
          intro j inside
          simp [wbsCycO, none j inside]
        have inside := slaveSel_lt adr slaves
        exact ⟨quiet, responsive.silent inside (quiet _ inside)⟩

end Mux

/-- Two slaves, the second of which takes what the first does not. -/
def fallbackMux : Mux 8 := ⟨2, [0, 0x40], [0, 0xf0]⟩

theorem routes_iff_fallbackMux :
    1 ≤ fallbackMux.numSlaves ∧
      ((∀ (cyc stb : Bool) (replies : Replies 32), fallbackMux.Responsive 0x42 cyc stb replies →
        fallbackMux.Routes 0x42 cyc replies) ↔ ∀ idx, fallbackMux.Lowest 0x42 idx → idx < 32) :=
  ⟨by decide, Mux.routes_iff 32 (by decide)⟩

/-- 33 slaves, of which only the last one matches. -/
def wideMux : Mux 8 := ⟨33, 0 :: List.replicate 32 1, List.replicate 33 0⟩

theorem wideMux_not_routes :
    ¬ ∀ (mux : Mux 8) (adr : BitVec 8) (cyc stb : Bool) (replies : Replies 32),
      1 ≤ mux.numSlaves → mux.Responsive adr cyc stb replies → mux.Routes adr cyc replies := by
  intro always
  have routes := always wideMux 0 true true Replies.silent (by decide)
    (Mux.responsive_silent true true)
  have lowest : wideMux.Lowest 0 32 := ⟨by decide, by decide, by decide⟩
  exact absurd (routes.lowest_lt lowest) (by decide)

end OrpsocCores.WbIntercon
