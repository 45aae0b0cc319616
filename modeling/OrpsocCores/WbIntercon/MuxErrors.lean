import OrpsocCores.Foundation.Trace
import OrpsocCores.WbIntercon.Routing

/-!
# The error response of the address decoder

`wb_mux.v` answers an address that matches no slave by a register: `wbm_err` is set behind
a cycle in which `cyc` was high and nothing matched.  The register looks neither at `stb`
nor at what follows, so that it answers whatever is on the bus in the next cycle.  An
access to no slave is held until it is answered, and the cycle in which it is answered
sets the register again; a master that goes on at once has its next access answered with
the error of the last.  Besides, when nothing matches, `slave_sel` is 0, and an answer of
slave 0 is taken for that of the access.

The responses are right along a run exactly when neither comes about
(`decode_errors_iff`).
-/

set_option autoImplicit false

namespace OrpsocCores.WbIntercon

open Trace VerilogUtils

variable {aw : Nat}

/-- The inputs of a `wb_mux` in a cycle, as far as its responses depend on them. -/
structure Inputs (aw numSlaves : Nat) where
  wbmAdrI : BitVec aw
  wbmCycI : Bool
  wbmStbI : Bool
  wbsAckI : BitVec numSlaves
  wbsErrI : BitVec numSlaves
  wbsRtyI : BitVec numSlaves

/-- An access is presented. -/
def Inputs.presents {numSlaves : Nat} (i : Inputs aw numSlaves) : Bool := i.wbmCycI && i.wbmStbI

/-- The responses of the slaves, without their data. -/
def Inputs.replies {numSlaves : Nat} (i : Inputs aw numSlaves) : Replies 0 :=
  ⟨fun _ => 0, i.wbsAckI.getLsbD, i.wbsErrI.getLsbD, i.wbsRtyI.getLsbD⟩

namespace Mux

variable (mux : Mux aw)

/-- `|match`. -/
def matched (wbmAdrI : BitVec aw) : Bool :=
  (List.range mux.numSlaves).any (mux.matchAt wbmAdrI)

/-- The register `wbm_err` at a rising edge. -/
def wbmErrNext (_ : Bool) (i : Inputs aw mux.numSlaves) : Bool :=
  mux.wbmErrAfter i.wbmAdrI i.wbmCycI

/-- The master sees an error in the cycle. -/
def errs (wbmErr : Bool) (i : Inputs aw mux.numSlaves) : Bool :=
  mux.wbmErrO i.wbmAdrI wbmErr i.replies

/-- The cycle answers what is presented. -/
def answered (wbmErr : Bool) (i : Inputs aw mux.numSlaves) : Bool :=
  mux.wbmAckO i.wbmAdrI i.replies || mux.errs wbmErr i || mux.wbmRtyO i.wbmAdrI i.replies

/-! ## Runs -/

/-- What is remembered of the cycle before: `cyc`, the address, and whether an access was
presented and not answered. -/
structure Before (aw : Nat) where
  cyc : Bool
  adr : BitVec aw
  pending : Bool

/-- The bus has been idle. -/
def Before.idle : Before aw := ⟨false, 0, false⟩

/-- The last cycle asked for an address that matches no slave. -/
def unmatchedBefore (before : Before aw) : Bool := before.cyc && !mux.matched before.adr

/-- The recorder of the cycle before. -/
def remember (wbmErr : Bool) (i : Inputs aw mux.numSlaves) (_ : Before aw) : Before aw :=
  ⟨i.wbmCycI, i.wbmAdrI, i.presents && !mux.answered wbmErr i⟩

/-- A cycle of the decoder, with the recorder. -/
def cycle : Bool × Before aw → Inputs aw mux.numSlaves → Bool × Before aw :=
  monitored mux.wbmErrNext mux.remember

/-- The master holds an access until it is answered, and no slave asserts `err`. -/
def Permitted (x : Bool × Before aw) (i : Inputs aw mux.numSlaves) : Prop :=
  i.wbsErrI = 0 ∧ (x.2.pending = true → i.presents = true ∧ i.wbmAdrI = x.2.adr)

/-- The error response hits the right access. -/
structure ErrsRight (x : Bool × Before aw) (i : Inputs aw mux.numSlaves) : Prop where
  /-- An error is for an address that matches no slave. -/
  only : i.presents = true → mux.errs x.1 i = true → mux.matched i.wbmAdrI = false
  /-- An access that matches no slave is answered by an error and by nothing else. -/
  byErr : i.presents = true → mux.matched i.wbmAdrI = false → mux.answered x.1 i = true →
    mux.errs x.1 i = true
  /-- It is answered no later than in its second cycle. -/
  ends : x.2.pending = true → mux.matched x.2.adr = false → mux.errs x.1 i = true

/-- No access to a slave follows at once upon a cycle with an address that matches none,
and slave 0 does not answer an access that has just come to such an address. -/
def Apart (x : Bool × Before aw) (i : Inputs aw mux.numSlaves) : Prop :=
  i.presents = true →
    (mux.matched i.wbmAdrI = true → mux.unmatchedBefore x.2 = false) ∧
      (mux.matched i.wbmAdrI = false → mux.unmatchedBefore x.2 = false →
        i.wbsAckI.getLsbD 0 = false ∧ i.wbsRtyI.getLsbD 0 = false)

variable {mux}

instance (x : Bool × Before aw) (i : Inputs aw mux.numSlaves) : Decidable (mux.Permitted x i) :=
  inferInstanceAs (Decidable (_ ∧ (_ → _)))

instance (x : Bool × Before aw) (i : Inputs aw mux.numSlaves) : Decidable (mux.Apart x i) :=
  inferInstanceAs (Decidable (_ → (_ → _) ∧ (_ → _ → _)))

instance (x : Bool × Before aw) (i : Inputs aw mux.numSlaves) :
    Decidable (mux.ErrsRight x i) :=
  decidable_of_iff
    ((i.presents = true → mux.errs x.1 i = true → mux.matched i.wbmAdrI = false) ∧
      (i.presents = true → mux.matched i.wbmAdrI = false → mux.answered x.1 i = true →
        mux.errs x.1 i = true) ∧
      (x.2.pending = true → mux.matched x.2.adr = false → mux.errs x.1 i = true))
    ⟨fun right => ⟨right.1, right.2.1, right.2.2⟩,
      fun right => ⟨right.only, right.byErr, right.ends⟩⟩

/-- When nothing matches, slave 0 is selected. -/
theorem slaveSel_of_unmatched {adr : BitVec aw} (none : mux.matched adr = false) :
    mux.slaveSel adr = 0 := by
  have clear : ∀ idx < mux.numSlaves, mux.matchAt adr idx = false := by
    intro idx inside
    rw [matched, List.any_eq_false] at none
    exact Bool.not_eq_true _ ▸ none idx (List.mem_range.mpr inside)
  have found : ff1 (mux.matchBits adr) mux.numSlaves = 0 := by
    rcases ff1Loop_spec (mux.matchBits adr) mux.numSlaves 0 with ⟨set, below, -⟩ | ⟨zero, -⟩
    · rw [getLsbD_matchBits below, clear _ below, Bool.and_false] at set
      exact absurd set Bool.false_ne_true
    · exact zero
  rw [slaveSel, found, Nat.zero_mod]

/-- The register says what the cycle before asked for, and a pending access was on the
bus in it. -/
structure Registered (mux : Mux aw) (x : Bool × Before aw) : Prop where
  register : x.1 = mux.unmatchedBefore x.2
  pending : x.2.pending = true → x.2.cyc = true

theorem Registered.cycle (x : Bool × Before aw) (i : Inputs aw mux.numSlaves) :
    Registered mux (mux.cycle x i) := by
  refine ⟨rfl, ?_⟩
  intro pending
  have presented : i.presents = true := (Bool.and_eq_true_iff.mp pending).1
  exact (Bool.and_eq_true_iff.mp presented).1

theorem errs_eq {x : Bool × Before aw} {i : Inputs aw mux.numSlaves}
    (registered : Registered mux x) (quiet : i.wbsErrI = 0) :
    mux.errs x.1 i = mux.unmatchedBefore x.2 := by
  have none : i.replies.err (mux.slaveSel i.wbmAdrI) = false := by
    rw [Inputs.replies, quiet]
    exact BitVec.getLsbD_zero
  rw [errs, wbmErrO, none, Bool.false_or, registered.register]

/-- An answer at an address that matches no slave is the error or slave 0's. -/
theorem answered_of_unmatched {wbmErr : Bool} {i : Inputs aw mux.numSlaves}
    (unmatched : mux.matched i.wbmAdrI = false) :
    mux.answered wbmErr i =
      (i.wbsAckI.getLsbD 0 || mux.errs wbmErr i || i.wbsRtyI.getLsbD 0) := by
  rw [answered, wbmAckO, wbmRtyO, slaveSel_of_unmatched unmatched]
  rfl

/-- In a cycle, the responses are right exactly when the access stands apart. -/
theorem errsRight_iff {x : Bool × Before aw} {i : Inputs aw mux.numSlaves}
    (registered : Registered mux x) (permitted : mux.Permitted x i) :
    mux.ErrsRight x i ↔ mux.Apart x i := by
  have err := errs_eq registered permitted.1
  constructor
  · intro right presented
    constructor
    · intro matched
      cases before : mux.unmatchedBefore x.2 with
      | false => rfl
      | true =>
          have other := right.only presented (err.trans before)
          rw [matched] at other
          exact other
    · intro unmatched before
      have silent : mux.answered x.1 i = false := by
        cases answer : mux.answered x.1 i with
        | false => rfl
        | true =>
            have error := right.byErr presented unmatched answer
            rw [err, before] at error
            exact error.symm
      rw [answered_of_unmatched unmatched, err, before, Bool.or_false, Bool.or_eq_false_iff]
        at silent
      exact silent
  · intro apart
    refine ⟨?_, ?_, ?_⟩
    · intro presented error
      cases matched : mux.matched i.wbmAdrI with
      | false => rfl
      | true =>
          rw [err, (apart presented).1 matched] at error
          exact error.symm
    · intro presented unmatched answer
      rw [err]
      cases before : mux.unmatchedBefore x.2 with
      | true => rfl
      | false =>
          obtain ⟨ack, rty⟩ := (apart presented).2 unmatched before
          rw [answered_of_unmatched unmatched, err, before, ack, rty] at answer
          exact answer
    · intro pending unmatched
      rw [err, unmatchedBefore, registered.pending pending, unmatched]
      rfl

/-- **The error responses of a run are right exactly when no access to a slave follows at
once upon an address that matches none, and slave 0 keeps out.** -/
theorem decode_errors_iff (mux : Mux aw) (inputs : List (Inputs aw mux.numSlaves))
    (run : Always mux.cycle mux.Permitted (false, Before.idle) inputs) :
    Always mux.cycle mux.ErrsRight (false, Before.idle) inputs ↔
      Always mux.cycle mux.Apart (false, Before.idle) inputs := by
  have initially : Registered mux (false, Before.idle) := ⟨rfl, fun pending => pending⟩
  refine Always.iff_of_invariant (Registered mux) ?_ ?_ initially run
  · intro x i _ _ _
    exact Registered.cycle x i
  · intro x i registered permitted
    exact errsRight_iff registered permitted

/-- Two slaves, at `0x00000000` and at `0x10000000`. -/
def twoSlaves : Mux 32 where
  numSlaves := 2
  matchAddr := [0x10000000, 0x00000000]
  matchMask := [0xf0000000, 0xf0000000]

/-- An access at an address, with these acknowledgements of the slaves. -/
def accessAt (adr : BitVec 32) (ack : BitVec 2) : Inputs 32 2 := ⟨adr, true, true, ack, 0, 0⟩

/-- A cycle without an access. -/
def pause : Inputs 32 2 := ⟨0, false, false, 0, 0, 0⟩

/-- An access to no slave, a pause, and an access to a slave that answers at once. -/
theorem paused_run_right :
    Always twoSlaves.cycle twoSlaves.ErrsRight (false, Before.idle)
      [accessAt 0x20000000 0, accessAt 0x20000000 0, pause, accessAt 0x10000000 2] :=
  (decode_errors_iff twoSlaves _ (by decide)).mpr (by decide)

/-- Without the pause the access to the slave is answered with the error. -/
theorem back_to_back_wrong :
    Always twoSlaves.cycle twoSlaves.Permitted (false, Before.idle)
        [accessAt 0x20000000 0, accessAt 0x20000000 0, accessAt 0x10000000 0] ∧
      ¬ Always twoSlaves.cycle twoSlaves.ErrsRight (false, Before.idle)
        [accessAt 0x20000000 0, accessAt 0x20000000 0, accessAt 0x10000000 0] := by
  decide

end Mux

end OrpsocCores.WbIntercon
