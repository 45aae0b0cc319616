import OrpsocCores.WbIntercon.Arbiter
import OrpsocCores.WbIntercon.Ident
import OrpsocCores.WbIntercon.Routing

/-!
# What gets through a multiplexer and an arbiter

Whether a signal gets from one side of a core to the other is decided by the core.
Here a position of `wb_mux` passes a signal if it arrives unchanged whenever the slave at
that index is the lowest match, and a position of `wb_arbiter` if it does whenever the
master at that index has the grant.

The first 32 positions pass every signal.  A position beyond them, which `ff1` cannot
see, does not pass `cyc`, so that no access gets through.
-/

set_option autoImplicit false

namespace OrpsocCores.WbIntercon

open Rotation

variable {n aw dw : Nat}

/-! ## Signals by name -/

/-- The value of a request signal. -/
def Request.value (request : Request aw dw) : WbSignal → Nat
  | .adr => request.adr.toNat
  | .dat => request.dat.toNat
  | .sel => request.sel.toNat
  | .we => request.we.toNat
  | .cyc => request.cyc.toNat
  | .stb => request.stb.toNat
  | .cti => request.cti.toNat
  | .bte => request.bte.toNat
  | .ack => 0
  | .err => 0
  | .rty => 0

/-- The four response signals of one Wishbone interface. -/
structure Response (dw : Nat) where
  dat : BitVec dw
  ack : Bool
  err : Bool
  rty : Bool

/-- The value of a response signal. -/
def Response.value (response : Response dw) : WbSignal → Nat
  | .dat => response.dat.toNat
  | .ack => response.ack.toNat
  | .err => response.err.toNat
  | .rty => response.rty.toNat
  | _ => 0

/-- What one slave answers. -/
def Replies.of (replies : Replies dw) (idx : Nat) : Response dw :=
  ⟨replies.dat idx, replies.ack idx, replies.err idx, replies.rty idx⟩

/-! ## The multiplexer -/

namespace Mux

/-- `wbs_adr_o` to `wbs_bte_o` at an index: only `cyc` depends on it. -/
def wbsO (mux : Mux aw) (wbm : Request aw dw) (idx : Nat) : Request aw dw :=
  { wbm with cyc := mux.wbsCycO wbm.adr wbm.cyc idx }

/-- `wbm_dat_o`, `wbm_ack_o`, `wbm_err_o` and `wbm_rty_o`. -/
def wbmO (mux : Mux aw) (wbmAdrI : BitVec aw) (wbmErr : Bool) (replies : Replies dw) :
    Response dw where
  dat := mux.wbmDatO wbmAdrI replies
  ack := mux.wbmAckO wbmAdrI replies
  err := mux.wbmErrO wbmAdrI wbmErr replies
  rty := mux.wbmRtyO wbmAdrI replies

/-- A request signal arrives at the slave with this index, among `n`, whenever that is the
lowest match. -/
def PassesRequest (n : Nat) (p : WbSignal) (idx : Nat) : Prop :=
  ∀ (mux : Mux 32) (wbm : Request 32 32), mux.numSlaves = n → mux.Lowest wbm.adr idx →
    (mux.wbsO wbm idx).value p = wbm.value p

/-- A response signal comes back from there, where the cycle before had a match. -/
def PassesResponse (n : Nat) (p : WbSignal) (idx : Nat) : Prop :=
  ∀ (mux : Mux 32) (adr : BitVec 32) (replies : Replies 32), mux.numSlaves = n →
    mux.Lowest adr idx → (mux.wbmO adr false replies).value p = (replies.of idx).value p

theorem passesRequest_of_lt (p : WbSignal) {idx : Nat} (low : idx < 32) :
    PassesRequest n p idx := by
  intro mux wbm _ lowest
  have raised : mux.wbsCycO wbm.adr wbm.cyc idx = wbm.cyc := by
    rw [wbsCycO, lowest.2.1, lowest.slaveSel_eq low, beq_self_eq_true, Bool.true_and, Bool.and_true]
  rw [wbsO, raised]

theorem passesResponse_of_lt (p : WbSignal) {idx : Nat} (low : idx < 32) :
    PassesResponse n p idx := by
  intro mux adr replies _ lowest
  rw [wbmO, wbmDatO, wbmAckO, wbmErrO, wbmRtyO, lowest.slaveSel_eq low, Bool.or_false, Replies.of]

/-- The mux whose slave at this index, and no other one, matches address 0. -/
def single (n idx : Nat) : Mux 32 where
  numSlaves := n
  matchAddr := ((List.range n).map fun j => if j = idx then 0 else 1).reverse
  matchMask := []

theorem single_matchAt {j idx : Nat} (inside : j < n) :
    (single n idx).matchAt 0 j = decide (j = idx) := by
  have word : slice (single n idx).matchAddr j = if j = idx then 0 else 1 := by
    simp [single, slice, inside]
  rw [matchAt, word]
  split
  case isTrue here => simp [here]
  case isFalse here => simp [here]

theorem single_lowest {idx : Nat} (inside : idx < n) : (single n idx).Lowest 0 idx := by
  refine ⟨inside, by rw [single_matchAt inside, decide_eq_true rfl], fun j below => ?_⟩
  rw [single_matchAt (Nat.lt_trans below inside), decide_eq_false (Nat.ne_of_lt below)]

/-- **No access gets to a slave beyond the first 32.** -/
theorem not_passesRequest_of_le {idx : Nat} (inside : idx < n) (high : 32 ≤ idx) :
    ¬PassesRequest n .cyc idx := by
  intro passes
  have arrives := passes (single n idx) ⟨0, 0, 0, false, true, true, 0, 0⟩ rfl
    (single_lowest inside)
  have raised : (single n idx).wbsCycO 0 true idx = true := by
    rw [← Bool.toNat_eq_one]
    exact arrives
  exact absurd ((wbsCycO_iff inside).mp raised).2.1 (Nat.not_lt.mpr high)

end Mux

/-! ## The arbiter -/

/-- `wbs_dat_i`, `wbs_ack_i`, `wbs_err_i` and `wbs_rty_i`. -/
def ArbiterInputs.wbsI (c : ArbiterInputs n aw dw) : Response dw :=
  ⟨c.wbsDatI, c.wbsAckI, c.wbsErrI, c.wbsRtyI⟩

namespace ArbiterCore

/-- The part of `wbm_dat_o`, which repeats `wbs_dat_i`, of `wbm_ack_o`, `wbm_err_o` and
`wbm_rty_o` that belongs to a master. -/
def wbmO (core : ArbiterCore n) (s : core.Registers) (c : ArbiterInputs n aw dw) (i : Fin n) :
    Response dw where
  dat := c.wbsDatI
  ack := (core.wbmAckO s c).getLsbD i
  err := (core.wbmErrO s c).getLsbD i
  rty := (core.wbmRtyO s c).getLsbD i

/-- A request signal of the master with this index, among `n`, arrives whenever it has the
grant. -/
def PassesRequest (n : Nat) (p : WbSignal) (idx : Nat) : Prop :=
  ∀ (core : ArbiterCore n) (s : core.Registers) (c : ArbiterInputs n 32 32) (g : Fin n),
    g.val = idx → core.Grants s c g → (core.wbs s c).value p = (c.requestOf g).value p

/-- A response signal gets back to it. -/
def PassesResponse (n : Nat) (p : WbSignal) (idx : Nat) : Prop :=
  ∀ (core : ArbiterCore n) (s : core.Registers) (c : ArbiterInputs n 32 32) (g : Fin n),
    g.val = idx → core.Grants s c g → (core.wbmO s c g).value p = c.wbsI.value p

theorem passesRequest_of_lt (p : WbSignal) {idx : Nat} (low : idx < 32) :
    PassesRequest n p idx := by
  rintro core s c g rfl grants
  rw [(grants.serves low).request]

theorem passesResponse_of_lt (p : WbSignal) {idx : Nat} (low : idx < 32) :
    PassesResponse n p idx := by
  rintro core s c g rfl grants
  obtain ⟨-, ack, err, rty⟩ := grants.serves low
  rw [wbmO, ack, err, rty, beq_self_eq_true, Bool.and_true, Bool.and_true, Bool.and_true,
    ArbiterInputs.wbsI]

/-- **No access of a master beyond the first 32 gets through.** -/
theorem not_passesRequest_of_le {idx : Nat} (inside : idx < n) (high : 32 ≤ idx) :
    ¬PassesRequest n .cyc idx := by
  intro passes
  let g : Fin n := ⟨idx, inside⟩
  let alone : ArbiterInputs n 32 32 := { ArbiterInputs.busy with wbmCycI := oneHot g }
  have arrives := passes (constant g) () alone g rfl ⟨rfl, rfl⟩
  have selected : masterSel ((constant g).grantWire () alone) = 0 := masterSel_oneHot_high high
  have asked : (oneHot g).getLsbD g = true := by rw [getLsbD_oneHot, decide_eq_true rfl]
  have quiet : (oneHot g).getLsbD 0 = false := by
    have first : 0 < n := Nat.zero_lt_of_lt inside
    have other : g ≠ ⟨0, first⟩ := by
      intro same
      have zero : idx = 0 := congrArg Fin.val same
      omega
    exact (getLsbD_oneHot g ⟨0, first⟩).trans (decide_eq_false other)
  simp only [Request.value, wbs, selected, ArbiterInputs.requestOf, alone, quiet, asked,
    Bool.false_and, Bool.toNat_false, Bool.toNat_true] at arrives
  exact absurd arrives (by decide)

end ArbiterCore

end OrpsocCores.WbIntercon
