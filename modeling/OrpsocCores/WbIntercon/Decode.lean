import OrpsocCores.Foundation.AddressMask
import OrpsocCores.WbIntercon.Config
import OrpsocCores.WbIntercon.Mux

/-!
# From the configured ranges to the decoder

`_gen_mux` writes the offsets and masks of a master's slaves into the parameters of a
`wb_mux`, the first listed slave in the most significant place.  The decoder raises
`cyc` for exactly the configured ranges under a condition on offsets and sizes that
the generator does not check (`Decodable`): `selects_iff_decodable` shows that the
condition is also necessary when the ranges are disjoint.
-/

set_option autoImplicit false

namespace OrpsocCores.WbIntercon

open AddressMask

/-! ## The generated instance -/

/-- The value of `32'h` before a number: digits beyond the width are dropped, and a
minus sign is not a digit. -/
def literal (value : Int) : Option (BitVec 32) :=
  if 0 ≤ value then some (BitVec.ofInt 32 value) else none

/-- The parameters that `_gen_mux` writes, if they are legal: `{}` is not. -/
def muxParameters (slaves : List Slave) : Option (Mux 32) := do
  let matchAddr ← slaves.mapM fun s => literal s.offset
  if slaves = [] then none
  else return { numSlaves := slaves.length, matchAddr, matchMask := slaves.map Slave.mask }

namespace Slave

/-- The range of the configuration contains the address. -/
def Covers (s : Slave) (a : BitVec 32) : Prop :=
  s.offset ≤ a.toNat ∧ (a.toNat : Int) < s.offset + s.size

instance (s : Slave) (a : BitVec 32) : Decidable (s.Covers a) := inferInstanceAs (Decidable (_ ∧ _))

/-- The two ranges have no number in common. -/
def DisjointRanges (s t : Slave) : Prop :=
  ∀ x : Int, ¬((s.offset ≤ x ∧ x < s.offset + s.size) ∧ (t.offset ≤ x ∧ x < t.offset + t.size))

/-- The comparison that the mux makes for the slave. -/
def Matches (s : Slave) (a : BitVec 32) : Prop := a &&& s.mask = BitVec.ofInt 32 s.offset

instance (s : Slave) (a : BitVec 32) : Decidable (s.Matches a) :=
  inferInstanceAs (Decidable (_ = _))

/-- The range has no address of the 32-bit space. -/
def OutOfSpace (s : Slave) : Prop := s.size ≤ 0 ∨ 2 ^ 32 ≤ s.offset

/-- The range, cut at the end of the address space, is an aligned block whose length
is a power of two, and the size agrees with that length on 32 bits. -/
def Block (s : Slave) : Prop :=
  ∃ k ≤ 32, (2 ^ k : Int) ∣ s.offset ∧ min (s.offset + s.size) (2 ^ 32) = s.offset + 2 ^ k ∧
    (2 ^ 32 : Int) ∣ s.size - 2 ^ k

end Slave

/-- `cyc` of the generated mux follows the configured ranges: the slave at position
`i` of the list has index `n - 1 - i`. -/
def Selects (slaves : List Slave) : Prop :=
  ∀ (a : BitVec 32) (cyc : Bool) (i : Nat) (inside : i < slaves.length),
    ∃ mux, muxParameters slaves = some mux ∧
      (mux.wbsCycO a cyc (slaves.length - 1 - i) = true ↔ cyc = true ∧ slaves[i].Covers a)

/-- The decoder meets the configuration: no offset is negative, a range inside the
address space is a block and one of the last 32 slaves, and a slave without a range
in the address space matches at most what a slave listed later covers. -/
def Decodable (slaves : List Slave) : Prop :=
  (∀ s ∈ slaves, 0 ≤ s.offset) ∧
    ∀ (i : Nat) (inside : i < slaves.length),
      (slaves[i].Block ∧ slaves.length - i ≤ 32) ∨
        (slaves[i].OutOfSpace ∧ (slaves.length - i ≤ 32 → ∀ a, slaves[i].Matches a →
          ∃ (j : Nat) (later : j < slaves.length), i < j ∧ slaves[j].Covers a))

/-! ## Ranges and their masks -/

namespace Slave

variable {s : Slave}

theorem toNat_offset (low : 0 ≤ s.offset) (high : s.offset < 2 ^ 32) :
    ((BitVec.ofInt 32 s.offset).toNat : Int) = s.offset := by
  rw [BitVec.toNat_ofInt]
  omega

/-- The mask as a number is the negative of the size on 32 bits. -/
theorem toNat_mask (s : Slave) : (s.mask.toNat : Int) = -s.size % 2 ^ 32 := by
  rw [s.mask_eq_neg, ← BitVec.ofInt_neg, BitVec.toNat_ofInt]
  omega

/-- A size that agrees with a power of two has that power's mask. -/
theorem mask_eq_neg_twoPow {k : Nat} (agree : (2 ^ 32 : Int) ∣ s.size - 2 ^ k) :
    s.mask = -(BitVec.twoPow 32 k) := by
  rw [s.mask_eq_neg]
  congr 1
  apply BitVec.eq_of_toNat_eq
  have power : ((2 ^ k : Nat) : Int) = 2 ^ k := by norm_cast
  rw [BitVec.toNat_ofInt, BitVec.toNat_twoPow]
  omega

/-- A block is decoded as it is configured. -/
theorem matches_iff_covers (low : 0 ≤ s.offset) (block : s.Block) (a : BitVec 32) :
    s.Matches a ↔ s.Covers a := by
  obtain ⟨k, -, aligned, length, agree⟩ := block
  have power : ((2 ^ k : Nat) : Int) = 2 ^ k := by norm_cast
  have positive : 0 < 2 ^ k := Nat.two_pow_pos k
  have value := toNat_offset low (by omega)
  have base : 2 ^ k ∣ (BitVec.ofInt 32 s.offset).toNat := by
    rw [← Int.natCast_dvd_natCast, value, power]
    exact aligned
  rw [Matches, mask_eq_neg_twoPow agree, and_mask_eq_iff base, Covers]
  have bound := a.isLt
  omega

/-- A range inside the address space that is recognised as a whole is a block. -/
theorem block_of_covers_matches (low : 0 ≤ s.offset) (inSpace : ¬s.OutOfSpace)
    (decoded : ∀ a, s.Covers a → s.Matches a) : s.Block := by
  simp only [OutOfSpace, not_or, Int.not_le] at inSpace
  obtain ⟨positive, high⟩ := inSpace
  have value := toNat_offset low high
  -- The part of the range that the address space holds.
  obtain ⟨length, cut⟩ : ∃ length : Nat, (length : Int) = min s.size (2 ^ 32 - s.offset) :=
    ⟨(min s.size (2 ^ 32 - s.offset)).toNat, by omega⟩
  have recognised : ∀ a : BitVec 32, (BitVec.ofInt 32 s.offset).toNat ≤ a.toNat →
      a.toNat < (BitVec.ofInt 32 s.offset).toNat + length → a &&& s.mask = BitVec.ofInt 32 s.offset :=
    fun a first last => decoded a ⟨by omega, by omega⟩
  obtain ⟨base, mask⟩ := dvd_of_decoded (by omega) recognised
  have within : length ≤ 2 ^ Nat.clog 2 length := Nat.le_pow_clog (by decide) length
  have exponent : Nat.clog 2 length ≤ 32 := Nat.clog_le_of_le_pow (by omega)
  generalize Nat.clog 2 length = k at base mask within exponent
  have power : ((2 ^ k : Nat) : Int) = 2 ^ k := by norm_cast
  have space : (2 ^ k : Int) ∣ 2 ^ 32 := by exact_mod_cast Nat.pow_dvd_pow 2 exponent
  rw [← Int.natCast_dvd_natCast, power, value] at base
  rw [← Int.natCast_dvd_natCast, power, toNat_mask] at mask
  refine ⟨k, exponent, base, ?_⟩
  by_cases clipped : s.size ≤ 2 ^ 32 - s.offset
  · have whole : (2 ^ k : Int) ∣ s.size := by
      rw [Int.dvd_iff_emod_eq_zero, Int.emod_emod_of_dvd _ space] at mask
      exact Int.dvd_neg.mp (Int.dvd_of_emod_eq_zero mask)
    have least := Int.le_of_dvd positive whole
    have exact : s.size = 2 ^ k := by omega
    exact ⟨by omega, by rw [exact, Int.sub_self]; exact Int.dvd_zero _⟩
  · -- The last address is in the range, so that the mask is the offset itself.
    have last : BitVec.allOnes 32 &&& s.mask = BitVec.ofInt 32 s.offset :=
      decoded (BitVec.allOnes 32) ⟨by rw [BitVec.toNat_allOnes]; omega,
        by rw [BitVec.toNat_allOnes]; omega⟩
    have same := toNat_mask s
    rw [mask_eq_of_last last, value] at same
    have rest : (2 ^ k : Int) ∣ 2 ^ 32 - s.offset := Int.dvd_sub space base
    have least := Int.le_of_dvd (by omega) rest
    exact ⟨by omega, by omega⟩

theorem not_covers_of_outOfSpace (outside : s.OutOfSpace) (a : BitVec 32) : ¬s.Covers a := by
  rintro ⟨first, last⟩
  have bound := a.isLt
  rcases outside with empty | beyond <;> omega

theorem DisjointRanges.not_covers {s t : Slave} (disjoint : DisjointRanges s t) {a : BitVec 32}
    (left : s.Covers a) (right : t.Covers a) : False :=
  disjoint a.toNat ⟨left, right⟩

end Slave

/-! ## The decoder of a list of slaves -/

/-- The parameters, when they are legal. -/
def muxOf (slaves : List Slave) : Mux 32 where
  numSlaves := slaves.length
  matchAddr := slaves.map fun s => BitVec.ofInt 32 s.offset
  matchMask := slaves.map Slave.mask

section

variable {slaves : List Slave}

theorem mapM_literal (nonneg : ∀ s ∈ slaves, 0 ≤ s.offset) :
    (slaves.mapM fun s => literal s.offset) =
      some (slaves.map fun s => BitVec.ofInt 32 s.offset) := by
  induction slaves with
  | nil => rfl
  | cons s rest ih =>
      have head : literal s.offset = some (BitVec.ofInt 32 s.offset) :=
        if_pos (nonneg s List.mem_cons_self)
      rw [List.mapM_cons, head, ih fun t member => nonneg t (List.mem_cons_of_mem s member)]
      rfl

theorem nonneg_of_mapM_literal {values : List (BitVec 32)}
    (legal : (slaves.mapM fun s => literal s.offset) = some values) :
    ∀ s ∈ slaves, 0 ≤ s.offset := by
  induction slaves generalizing values with
  | nil => exact fun s member => absurd member List.not_mem_nil
  | cons s rest ih =>
      rw [List.mapM_cons] at legal
      obtain ⟨value, first, legal⟩ := Option.bind_eq_some_iff.mp legal
      obtain ⟨others, remaining, -⟩ := Option.bind_eq_some_iff.mp legal
      intro t member
      rcases List.mem_cons.mp member with rfl | later
      · by_contra negative
        rw [literal, if_neg negative] at first
        cases first
      · exact ih remaining t later

theorem muxParameters_eq (nonneg : ∀ s ∈ slaves, 0 ≤ s.offset) (nonempty : slaves ≠ []) :
    muxParameters slaves = some (muxOf slaves) := by
  simp only [muxParameters, mapM_literal nonneg, Option.bind_eq_bind, Option.bind_some, if_neg nonempty]
  rfl

theorem nonneg_of_muxParameters {mux : Mux 32} (legal : muxParameters slaves = some mux) :
    ∀ s ∈ slaves, 0 ≤ s.offset := by
  obtain ⟨values, literals, -⟩ := Option.bind_eq_some_iff.mp legal
  exact nonneg_of_mapM_literal literals

/-- Index `n - 1 - i` of the mux is position `i` of the list. -/
theorem matchAt_muxOf {i : Nat} (inside : i < slaves.length) (a : BitVec 32) :
    (muxOf slaves).matchAt a (slaves.length - 1 - i) = true ↔ slaves[i].Matches a := by
  have place : slaves.length - 1 - (slaves.length - 1 - i) = i := by omega
  have bound : slaves.length - 1 - i < slaves.length := by omega
  rw [Mux.matchAt, beq_iff_eq, Slave.Matches]
  simp [Mux.slice, muxOf, List.getD_eq_getElem?_getD, bound, place]

/-- The mux raises `cyc` for the last slave of the list that matches. -/
theorem wbsCycO_muxOf {i : Nat} (inside : i < slaves.length) (a : BitVec 32) :
    (muxOf slaves).wbsCycO a true (slaves.length - 1 - i) = true ↔
      slaves[i].Matches a ∧ slaves.length - i ≤ 32 ∧
        ∀ (j : Nat) (bound : j < slaves.length), i < j → ¬slaves[j].Matches a := by
  rw [Mux.wbsCycO_iff (show slaves.length - 1 - i < slaves.length by omega), matchAt_muxOf inside]
  refine and_congr_right fun _ => and_congr (by omega) ?_
  constructor
  · intro clear j bound later matched
    have lower := clear (slaves.length - 1 - j) (by omega)
    rw [(matchAt_muxOf bound a).mpr matched] at lower
    cases lower
  · intro clear j below
    have bound : slaves.length - 1 - j < slaves.length := by omega
    have place : slaves.length - 1 - (slaves.length - 1 - j) = j := by omega
    have unmatched := clear (slaves.length - 1 - j) bound (by omega)
    rw [← matchAt_muxOf bound a, place] at unmatched
    exact Bool.eq_false_iff.mpr unmatched

/-- `Selects` in terms of the list alone. -/
theorem selects_iff (nonneg : ∀ s ∈ slaves, 0 ≤ s.offset) :
    Selects slaves ↔ ∀ (a : BitVec 32) (i : Nat) (inside : i < slaves.length),
      (slaves[i].Matches a ∧ slaves.length - i ≤ 32 ∧
        ∀ (j : Nat) (bound : j < slaves.length), i < j → ¬slaves[j].Matches a) ↔
      slaves[i].Covers a := by
  constructor
  · intro selects a i inside
    have nonempty : slaves ≠ [] := List.ne_nil_of_length_pos (Nat.zero_lt_of_lt inside)
    obtain ⟨mux, generated, raised⟩ := selects a true i inside
    obtain rfl : muxOf slaves = mux := by simpa [muxParameters_eq nonneg nonempty] using generated
    rw [← wbsCycO_muxOf inside, raised]
    simp
  · intro decoded a cyc i inside
    have nonempty : slaves ≠ [] := List.ne_nil_of_length_pos (Nat.zero_lt_of_lt inside)
    refine ⟨muxOf slaves, muxParameters_eq nonneg nonempty, ?_⟩
    cases cyc with
    | false => simp [Mux.wbsCycO]
    | true => rw [wbsCycO_muxOf inside, decoded a i inside]; simp

/-- A slave of the list that matches has a last one at or behind it. -/
theorem exists_last_match {a : BitVec 32} {i : Nat} (inside : i < slaves.length)
    (matched : slaves[i].Matches a) :
    ∃ (j : Nat) (bound : j < slaves.length), i ≤ j ∧ slaves[j].Matches a ∧
      ∀ (k : Nat) (bound : k < slaves.length), j < k → ¬slaves[k].Matches a := by
  induction left : slaves.length - i using Nat.strong_induction_on generalizing i with
  | _ left ih =>
      by_cases last : ∀ (k : Nat) (bound : k < slaves.length), i < k → ¬slaves[k].Matches a
      · exact ⟨i, inside, le_rfl, matched, last⟩
      · push Not at last
        obtain ⟨k, bound, later, also⟩ := last
        obtain ⟨j, within, behind, found, final⟩ :=
          ih (slaves.length - k) (by omega) bound also rfl
        exact ⟨j, within, by omega, found, final⟩

/-! ## When the decoder follows the ranges -/

theorem decodable_of_selects (selects : Selects slaves) : Decodable slaves := by
  have nonneg : ∀ s ∈ slaves, 0 ≤ s.offset := by
    intro s member
    obtain ⟨i, inside, -⟩ := List.getElem_of_mem member
    obtain ⟨mux, legal, -⟩ := selects 0 true i inside
    exact nonneg_of_muxParameters legal s member
  have decoded := (selects_iff nonneg).mp selects
  refine ⟨nonneg, fun i inside => ?_⟩
  have low := nonneg slaves[i] (List.getElem_mem inside)
  by_cases outside : slaves[i].OutOfSpace
  · refine Or.inr ⟨outside, fun near a matched => ?_⟩
    obtain ⟨j, bound, behind, found, final⟩ := exists_last_match inside matched
    have covered := (decoded a j bound).mp ⟨found, by omega, final⟩
    rcases Nat.eq_or_lt_of_le behind with rfl | later
    · exact absurd covered (Slave.not_covers_of_outOfSpace outside a)
    · exact ⟨j, bound, later, covered⟩
  · have block : slaves[i].Block :=
      Slave.block_of_covers_matches low outside fun a covered => ((decoded a i inside).mpr covered).1
    refine Or.inl ⟨block, ?_⟩
    simp only [Slave.OutOfSpace, not_or, Int.not_le] at outside
    have value := Slave.toNat_offset low outside.2
    exact ((decoded (BitVec.ofInt 32 slaves[i].offset) i inside).mpr ⟨by omega, by omega⟩).2.1

theorem selects_of_decodable (disjoint : slaves.Pairwise Slave.DisjointRanges)
    (decodable : Decodable slaves) : Selects slaves := by
  obtain ⟨nonneg, slots⟩ := decodable
  have low : ∀ (i : Nat) (inside : i < slaves.length), 0 ≤ slaves[i].offset :=
    fun i inside => nonneg slaves[i] (List.getElem_mem inside)
  have apart := List.pairwise_iff_getElem.mp disjoint
  refine (selects_iff nonneg).mpr fun a i inside => ?_
  rcases slots i inside with ⟨block, near⟩ | ⟨outside, hidden⟩
  · rw [Slave.matches_iff_covers (low i inside) block]
    refine ⟨fun raised => raised.1, fun covered => ⟨covered, near, ?_⟩⟩
    -- A later match would be a later range that covers the address too.
    intro j bound later matched
    rcases slots j bound with ⟨other, -⟩ | ⟨-, hidden⟩
    · rw [Slave.matches_iff_covers (low j bound) other] at matched
      exact (apart i j inside bound later).not_covers covered matched
    · obtain ⟨k, within, behind, also⟩ := hidden (by omega) a matched
      exact (apart i k inside within (later.trans behind)).not_covers covered also
  · refine iff_of_false ?_ (Slave.not_covers_of_outOfSpace outside a)
    rintro ⟨matched, near, final⟩
    obtain ⟨j, bound, later, covered⟩ := hidden near a matched
    rcases slots j bound with ⟨block, -⟩ | ⟨empty, -⟩
    · exact final j bound later ((Slave.matches_iff_covers (low j bound) block a).mpr covered)
    · exact Slave.not_covers_of_outOfSpace empty a covered

end

/-- **The mux of a master raises `cyc` for exactly the configured ranges if and only
if the ranges are decodable.** -/
theorem selects_iff_decodable (sections : List Section) (intercon : WbIntercon)
    (_accepted : load sections = .ok intercon) (master : Master)
    (_member : master ∈ intercon.masters.values)
    (disjoint : (intercon.slavesOf master).Pairwise Slave.DisjointRanges) :
    Selects (intercon.slavesOf master) ↔ Decodable (intercon.slavesOf master) :=
  ⟨decodable_of_selects, selects_of_decodable disjoint⟩

/-- The instruction bus of the Atlys board. -/
def atlysInstructionBus : List Section :=
  [⟨"master or1k_i", [("slaves", "\nddr2_ibus\nrom0")]⟩,
   ⟨"slave ddr2_ibus", [("offset", "0"), ("size", "0x8000000")]⟩,
   ⟨"slave rom0", [("offset", "0xf0000000"), ("size", "1024")]⟩]

/-- What the generator makes of `atlysInstructionBus`. -/
def instructionBusIntercon : WbIntercon where
  masters := ⟨[{ name := "or1k_i", listed := ["ddr2_ibus", "rom0"] }], by decide⟩
  slaves := ⟨[{ name := "ddr2_ibus", size := 0x8000000, mask := 0xf8000000 },
    { name := "rom0", offset := 0xf0000000, size := 1024, mask := 0xfffffc00 }], by decide⟩
  slave_of_listed := by decide

theorem instructionBus_selects : ∃ master ∈ instructionBusIntercon.masters.values,
    Selects (instructionBusIntercon.slavesOf master) := by
  refine ⟨_, List.mem_cons_self, (selects_iff_decodable atlysInstructionBus instructionBusIntercon
    rfl _ List.mem_cons_self ?_).mpr ⟨by decide, ?_⟩⟩
  · refine List.pairwise_pair.mpr fun x both => ?_
    simp only at both
    omega
  · intro i inside
    refine Or.inl ⟨?_, by change 2 - i ≤ 32; omega⟩
    match i with
    | 0 => exact ⟨27, by decide, by decide +revert, by decide +revert, by decide +revert⟩
    | 1 => exact ⟨10, by decide, by decide +revert, by decide +revert, by decide +revert⟩

/-- The debug bus of the Atlys board with the region that is not a power of two. -/
def atlysDebugBus : List Section :=
  [⟨"master dbg", [("slaves", "\ndiila")]⟩,
   ⟨"slave diila", [("offset", "0x96000000"), ("size", "0x500000")]⟩]

/-- What the generator makes of `atlysDebugBus`. -/
def debugBusIntercon : WbIntercon where
  masters := ⟨[{ name := "dbg", listed := ["diila"] }], by decide⟩
  slaves := ⟨[{ name := "diila", offset := 0x96000000, size := 0x500000, mask := 0xffb00000 }],
    by decide⟩
  slave_of_listed := by decide

/-- The second megabyte of the region is not decoded. -/
theorem debugBus_not_selects : load atlysDebugBus = .ok debugBusIntercon ∧
    ∃ master ∈ debugBusIntercon.masters.values,
      (debugBusIntercon.slavesOf master).Pairwise Slave.DisjointRanges ∧
        ¬Selects (debugBusIntercon.slavesOf master) := by
  refine ⟨rfl, _, List.mem_cons_self, List.pairwise_singleton _ _, fun selects => ?_⟩
  obtain ⟨mux, generated, raised⟩ := selects 0x96100000#32 true 0 (by decide)
  obtain rfl : Mux.mk 1 [0x96000000#32] [0xffb00000#32] = mux := Option.some.inj generated
  exact absurd (raised.mpr (by decide)) (by decide)

end OrpsocCores.WbIntercon
