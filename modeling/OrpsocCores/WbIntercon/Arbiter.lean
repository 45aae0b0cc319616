import OrpsocCores.Foundation.Rotation
import OrpsocCores.Foundation.Trace
import OrpsocCores.VerilogUtils

/-!
# The arbiter in front of a shared slave

`wb_arbiter.v` is combinational around the core `arbiter`, which chooses among the
masters that raise `cyc`.  That core comes from another repository, so it is a
parameter here: registers of any type, and `grant` and `active` as functions of the
registers and the requests.  What is asked of it is asked of a run (`Lawful`): the
grant is one-hot when active, and it stays while the granted master keeps its request.

The index of the granted master comes out of `ff1`, which looks at an integer of 32
bits.  A grant beyond them is read as one to master 0 (`isolated_iff`).
-/

set_option autoImplicit false

namespace OrpsocCores.WbIntercon

open Rotation VerilogUtils

/-- The core `arbiter`. -/
structure ArbiterCore (n : Nat) where
  Registers : Type
  /-- An edge of `clk` with `rst` and `request`. -/
  edge : Registers → Bool → BitVec n → Registers
  grant : Registers → BitVec n → BitVec n
  active : Registers → BitVec n → Bool

variable {n aw dw : Nat}

/-- The inputs of `wb_arbiter` in a cycle, with the masters side by side. -/
structure ArbiterInputs (n aw dw : Nat) where
  wbRstI : Bool
  wbmAdrI : BitVec (n * aw)
  wbmDatI : BitVec (n * dw)
  wbmSelI : BitVec (n * 4)
  wbmWeI : BitVec n
  wbmCycI : BitVec n
  wbmStbI : BitVec n
  wbmCtiI : BitVec (n * 3)
  wbmBteI : BitVec (n * 2)
  wbsDatI : BitVec dw
  wbsAckI : Bool
  wbsErrI : Bool
  wbsRtyI : Bool

/-- The eight request signals of one Wishbone interface. -/
structure Request (aw dw : Nat) where
  adr : BitVec aw
  dat : BitVec dw
  sel : BitVec 4
  we : Bool
  cyc : Bool
  stb : Bool
  cti : BitVec 3
  bte : BitVec 2
  deriving DecidableEq

namespace ArbiterInputs

variable (c : ArbiterInputs n aw dw)

/-- The part of every vector that belongs to master `i`. -/
def requestOf (i : Nat) : Request aw dw where
  adr := c.wbmAdrI.extractLsb' (i * aw) aw
  dat := c.wbmDatI.extractLsb' (i * dw) dw
  sel := c.wbmSelI.extractLsb' (i * 4) 4
  we := c.wbmWeI.getLsbD i
  cyc := c.wbmCycI.getLsbD i
  stb := c.wbmStbI.getLsbD i
  cti := c.wbmCtiI.extractLsb' (i * 3) 3
  bte := c.wbmBteI.extractLsb' (i * 2) 2

end ArbiterInputs

/-! ## The outputs of `wb_arbiter` -/

/-- `master_sel_bits`. -/
def masterSelBits (n : Nat) : Nat := if 1 < n then clog2 n else 1

/-- `master_sel`. -/
def masterSel (grant : BitVec n) : Nat := ff1 (grant.setWidth 32) n % 2 ^ masterSelBits n

namespace ArbiterCore

variable (core : ArbiterCore n) (s : core.Registers) (c : ArbiterInputs n aw dw)

/-- The wire `grant`. -/
def grantWire : BitVec n := core.grant s c.wbmCycI

/-- The wire `active`. -/
def activeWire : Bool := core.active s c.wbmCycI

/-- An edge of `wb_clk_i`. -/
def step : core.Registers := core.edge s c.wbRstI c.wbmCycI

/-- `wbs_adr_o`, `wbs_dat_o`, `wbs_sel_o`, `wbs_we_o`, `wbs_cyc_o`, `wbs_stb_o`,
`wbs_cti_o` and `wbs_bte_o`. -/
def wbs : Request aw dw :=
  let selected := c.requestOf (masterSel (core.grantWire s c))
  { selected with cyc := selected.cyc && core.activeWire s c }

/-- A response of the slave, shifted to the selected master. -/
def shifted (wbsI : Bool) : BitVec n :=
  (BitVec.ofBool (wbsI && core.activeWire s c)).setWidth n <<< masterSel (core.grantWire s c)

/-- `wbm_ack_o`. -/
def wbmAckO : BitVec n := core.shifted s c c.wbsAckI

/-- `wbm_err_o`. -/
def wbmErrO : BitVec n := core.shifted s c c.wbsErrI

/-- `wbm_rty_o`. -/
def wbmRtyO : BitVec n := core.shifted s c c.wbsRtyI

/-! ## What is asked of the core and of `wb_arbiter` -/

/-- Master `g` has the grant. -/
def Grants (g : Fin n) : Prop := core.activeWire s c = true ∧ core.grantWire s c = oneHot g

/-- The grant is one-hot when active, and it does not change while the granted master
keeps its request. -/
def Lawful : core.Registers → List (ArbiterInputs n aw dw) → Prop
  | _, [] => True
  | s, c :: run =>
      (core.activeWire s c = true → ∃ g, core.grantWire s c = oneHot g) ∧
        (∀ g, core.Grants s c g → c.wbmCycI.getLsbD g = true →
          ∀ next ∈ run.head?, next.wbmCycI.getLsbD g = true → core.Grants (core.step s c) next g) ∧
        Lawful (core.step s c) run

instance (g : Fin n) : Decidable (core.Grants s c g) := inferInstanceAs (Decidable (_ ∧ _))

instance decidableLawful : (s : core.Registers) → (run : List (ArbiterInputs n aw dw)) →
    Decidable (core.Lawful s run)
  | _, [] => .isTrue trivial
  | s, c :: run =>
      have := decidableLawful (core.step s c) run
      inferInstanceAs (Decidable (_ ∧ _ ∧ _))

/-- The slave sees master `g`, and `g` alone sees the slave's responses. -/
structure Serves (g : Fin n) : Prop where
  request : core.wbs s c = c.requestOf g
  ack : ∀ i : Fin n, (core.wbmAckO s c).getLsbD i = (c.wbsAckI && i == g)
  err : ∀ i : Fin n, (core.wbmErrO s c).getLsbD i = (c.wbsErrI && i == g)
  rty : ∀ i : Fin n, (core.wbmRtyO s c).getLsbD i = (c.wbsRtyI && i == g)

/-- The slave sees `cyc` low, and no master sees a response. -/
structure Silent : Prop where
  cyc : (core.wbs s c).cyc = false
  ack : core.wbmAckO s c = 0
  err : core.wbmErrO s c = 0
  rty : core.wbmRtyO s c = 0

/-- In a run the masters are kept apart. -/
structure Isolated (s : core.Registers) (run : List (ArbiterInputs n aw dw)) : Prop where
  /-- A granted master has the slave to itself as long as its `cyc` is high. -/
  whole : ∀ (before within rest : List (ArbiterInputs n aw dw)) (g : Fin n),
    run = before ++ within ++ rest →
      (∀ c ∈ within.head?, core.Grants (Trace.after core.step s before) c g) →
        (∀ c ∈ within, c.wbmCycI.getLsbD g = true) →
          Trace.Always core.step (core.Serves · · g) (Trace.after core.step s before) within
  /-- An active grant is to a master that is served. -/
  served : Trace.Always core.step
    (fun s c => core.activeWire s c = true → ∃ g, core.Grants s c g ∧ core.Serves s c g) s run
  /-- Without an active grant nothing passes. -/
  silent : Trace.Always core.step (fun s c => core.activeWire s c = false → core.Silent s c) s run

end ArbiterCore

/-! ## The selected master -/

theorem getLsbD_setWidth_oneHot (g : Fin n) {j : Nat} (inside : j < n) :
    ((oneHot g).setWidth 32).getLsbD j = (decide (j < 32) && decide (g.val = j)) := by
  rw [BitVec.getLsbD_setWidth, getLsbD_oneHot g ⟨j, inside⟩]
  simp only [Fin.ext_iff]

/-- The select register is wide enough for what `ff1` returns. -/
theorem masterSel_eq_ff1 (positive : 0 < n) (grant : BitVec n) :
    masterSel grant = ff1 (grant.setWidth 32) n := by
  have below := ff1_lt (x := grant.setWidth 32) positive
  refine Nat.mod_eq_of_lt (Nat.lt_of_lt_of_le below ?_)
  rw [masterSelBits]
  split
  case isTrue => exact le_two_pow_clog2 n
  case isFalse => omega

theorem masterSel_oneHot {g : Fin n} (low : g.val < 32) : masterSel (oneHot g) = g.val := by
  rw [masterSel_eq_ff1 (Nat.zero_lt_of_lt g.isLt), ff1_eq_iff _ g.isLt]
  · intro j below
    rw [getLsbD_setWidth_oneHot g (Nat.lt_trans below g.isLt), decide_eq_false (Nat.ne_of_gt below),
      Bool.and_false]
  · rw [getLsbD_setWidth_oneHot g g.isLt, decide_eq_true low, decide_eq_true rfl, Bool.and_true]

/-- A grant beyond the integer's width is not seen. -/
theorem masterSel_oneHot_high {g : Fin n} (high : 32 ≤ g.val) : masterSel (oneHot g) = 0 := by
  rw [masterSel_eq_ff1 (Nat.zero_lt_of_lt g.isLt), ff1]
  rcases ff1Loop_spec ((oneHot g).setWidth 32) n 0 with ⟨set, below, -⟩ | ⟨zero, -⟩
  · rw [getLsbD_setWidth_oneHot g below, Bool.and_eq_true, decide_eq_true_eq, decide_eq_true_eq] at set
    omega
  · exact zero

namespace ArbiterCore

variable {core : ArbiterCore n} {s : core.Registers} {c : ArbiterInputs n aw dw} {g : Fin n}

/-- A response goes to the selected master while the grant is active. -/
theorem getLsbD_shifted (wbsI : Bool) (i : Fin n) :
    (core.shifted s c wbsI).getLsbD i =
      (wbsI && core.activeWire s c && i.val == masterSel (core.grantWire s c)) := by
  rw [shifted, BitVec.getLsbD_shiftLeft]
  generalize (wbsI && core.activeWire s c) = bit
  generalize masterSel (core.grantWire s c) = k
  have inside := i.isLt
  rcases Nat.lt_trichotomy i.val k with below | rfl | above
  · simp [below, Nat.ne_of_lt below]
  · cases bit <;> simp [Nat.zero_lt_of_lt inside]
  · have shift : 0 < i.val - k := Nat.sub_pos_of_lt above
    cases bit <;> simp [Nat.ne_of_gt above, Nat.ne_of_gt shift]

/-- **A granted master among the first 32 is served.** -/
theorem Grants.serves (grants : core.Grants s c g) (low : g.val < 32) : core.Serves s c g := by
  obtain ⟨active, grant⟩ := grants
  have selected : masterSel (core.grantWire s c) = g.val := by rw [grant, masterSel_oneHot low]
  have responses : ∀ (wbsI : Bool) (i : Fin n),
      (core.shifted s c wbsI).getLsbD i = (wbsI && i == g) := by
    intro wbsI i
    rw [getLsbD_shifted, active, selected, Bool.and_true, Bool.eq_iff_iff]
    simp [Fin.ext_iff]
  exact ⟨by simp [wbs, selected, active, ArbiterInputs.requestOf], responses _, responses _,
    responses _⟩

/-- A master beyond the first 32 does not get the acknowledge of its slave. -/
theorem Grants.not_serves (grants : core.Grants s c g) (high : 32 ≤ g.val)
    (ack : c.wbsAckI = true) : ¬core.Serves s c g := by
  intro serves
  have reaches : (core.shifted s c c.wbsAckI).getLsbD g = (c.wbsAckI && g == g) := serves.ack g
  rw [getLsbD_shifted, grants.2, masterSel_oneHot_high high, ack, grants.1, beq_self_eq_true,
    Bool.true_and, Bool.true_and, beq_iff_eq] at reaches
  omega

/-- Without a grant nothing passes. -/
theorem silent_of_inactive (inactive : core.activeWire s c = false) : core.Silent s c := by
  have responses : ∀ wbsI, core.shifted s c wbsI = 0 := by
    intro wbsI
    simp [shifted, inactive]
  exact ⟨by simp [wbs, inactive], responses _, responses _, responses _⟩

/-! ## Runs -/

theorem Lawful.after {before run : List (ArbiterInputs n aw dw)}
    (lawful : core.Lawful s (before ++ run)) : core.Lawful (Trace.after core.step s before) run := by
  induction before generalizing s with
  | nil => exact lawful
  | cons c before ih => exact ih lawful.2.2

/-- A master that keeps its request keeps the slave. -/
theorem Lawful.serves_within {within rest : List (ArbiterInputs n aw dw)}
    (lawful : core.Lawful s (within ++ rest)) (low : g.val < 32)
    (first : ∀ c ∈ within.head?, core.Grants s c g)
    (cyc : ∀ c ∈ within, c.wbmCycI.getLsbD g = true) :
    Trace.Always core.step (core.Serves · · g) s within := by
  induction within generalizing s with
  | nil => trivial
  | cons c within ih =>
      have grants : core.Grants s c g := first c rfl
      have lawful : core.Lawful s (c :: (within ++ rest)) := lawful
      refine ⟨grants.serves low, ih lawful.2.2 ?_ fun c member => cyc c (List.mem_cons_of_mem _ member)⟩
      intro next head
      have member : next ∈ within := List.mem_of_mem_head? head
      refine lawful.2.1 g grants (cyc c List.mem_cons_self) next ?_
        (cyc next (List.mem_cons_of_mem _ member))
      rw [List.head?_append, Option.mem_def.mp head]
      rfl

theorem Lawful.isolated {run : List (ArbiterInputs n aw dw)} (lawful : core.Lawful s run)
    (few : n ≤ 32) : core.Isolated s run := by
  constructor
  case whole =>
      intro before within rest g split first cyc
      rw [split, List.append_assoc] at lawful
      exact lawful.after.serves_within (Nat.lt_of_lt_of_le g.isLt few) first cyc
  case served =>
      induction run generalizing s with
      | nil => trivial
      | cons c run ih =>
          refine ⟨fun active => ?_, ih lawful.2.2⟩
          obtain ⟨g, grant⟩ := lawful.1 active
          have grants : core.Grants s c g := ⟨active, grant⟩
          exact ⟨g, grants, grants.serves (Nat.lt_of_lt_of_le g.isLt few)⟩
  case silent =>
      clear lawful
      induction run generalizing s with
      | nil => trivial
      | cons c run ih => exact ⟨silent_of_inactive, ih⟩

end ArbiterCore

/-- A core that always grants the same master. -/
def ArbiterCore.constant (g : Fin n) : ArbiterCore n where
  Registers := Unit
  edge := fun _ _ _ => ()
  grant := fun _ _ => oneHot g
  active := fun _ _ => true

/-- A cycle in which every master requests and the slave acknowledges. -/
def ArbiterInputs.busy : ArbiterInputs n aw dw where
  wbRstI := false
  wbmAdrI := 0
  wbmDatI := 0
  wbmSelI := 0
  wbmWeI := 0
  wbmCycI := BitVec.allOnes n
  wbmStbI := BitVec.allOnes n
  wbmCtiI := 0
  wbmBteI := 0
  wbsDatI := 0
  wbsAckI := true
  wbsErrI := false
  wbsRtyI := false

/-- An acknowledge for a master beyond the integer's width goes to master 0. -/
theorem ArbiterCore.constant_not_isolated {g : Fin n} (high : 32 ≤ g.val) :
    ¬(constant g).Isolated () [(ArbiterInputs.busy : ArbiterInputs n aw dw)] := by
  intro isolated
  obtain ⟨h, grants, serves⟩ := isolated.served.1 rfl
  obtain rfl : g = h := oneHot_injective grants.2
  exact grants.not_serves high rfl serves

theorem ArbiterCore.constant_lawful (g : Fin n) (c : ArbiterInputs n aw dw) :
    (constant g).Lawful () [c] := by
  refine ⟨fun _ => ⟨g, rfl⟩, fun h grants cyc next member => ?_, trivial⟩
  cases member

/-- **`wb_arbiter` keeps the masters apart in every run with a lawful core exactly when
there are at most 32 of them.** -/
theorem isolated_iff (n aw dw : Nat) :
    (∀ (core : ArbiterCore n) (s : core.Registers) (run : List (ArbiterInputs n aw dw)),
      core.Lawful s run → core.Isolated s run) ↔ n ≤ 32 := by
  constructor
  · intro isolated
    by_contra many
    have high : 32 < n := Nat.lt_of_not_le many
    exact ArbiterCore.constant_not_isolated (g := ⟨32, high⟩) (Nat.le_refl 32)
      (isolated (.constant ⟨32, high⟩) () [.busy] (ArbiterCore.constant_lawful _ _))
  · intro few core s run lawful
    exact lawful.isolated few

/-- Two masters, with a registered grant that moves on when its master has stopped. -/
abbrev ArbiterCore.alternating : ArbiterCore 2 where
  Registers := Option (Fin 2)
  edge := fun last rst request =>
    if rst then none
    else match last with
      | some g =>
          if request.getLsbD g then some g
          else if request.getLsbD (pred g) then some (pred g)
          else none
      | none => if request.getLsbD 0 then some 0 else if request.getLsbD 1 then some 1 else none
  grant := fun last _ => last.elim 0 oneHot
  active := fun last _ => last.isSome

/-- A cycle with these requests. -/
def ArbiterInputs.raising (cyc : BitVec 2) : ArbiterInputs 2 32 32 :=
  { ArbiterInputs.busy with wbmCycI := cyc }

/-- A run in which the slave is handed over from master 0 to master 1. -/
theorem isolated_two : ArbiterCore.alternating.Isolated none
    [.raising 0b11, .raising 0b11, .raising 0b10, .raising 0b10, .raising 0b00] := by
  refine (isolated_iff 2 32 32).mpr (by decide) .alternating none _ ?_
  decide

/-- **With 33 masters and a grant to the last of them, the acknowledge misses it.** -/
theorem not_isolated_33 :
    ¬ ∀ n ≥ 1, ∀ (core : ArbiterCore n) (s : core.Registers) (run : List (ArbiterInputs n 32 32)),
      core.Lawful s run → core.Isolated s run := by
  intro isolated
  exact ArbiterCore.constant_not_isolated (g := (32 : Fin 33)) (by decide)
    (isolated 33 (by decide) (.constant 32) () [.busy] (ArbiterCore.constant_lawful _ _))

end OrpsocCores.WbIntercon
