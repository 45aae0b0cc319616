import OrpsocCores.WbBfm.Transactor

/-!
# The address range of a burst

`adr_range` returns the aligned block of a wrap burst, the word of a constant one, and for a
linear burst the words from the first to the last.  Two things go wrong with the last.  The
length is passed in `$clog2(MAX_BURST_LEN)` bits, which do not hold a `MAX_BURST_LEN` that is
a power of two; and a burst that goes on behind the end of the address space comes back at
its beginning.

`adrRange_iff` says when the range is right, and with it the check of the transactor.
-/

set_option autoImplicit false

namespace OrpsocCores.WbBfm

open VerilogUtils AlignedBlock

variable {aw : Nat}

/-! ## What the range is for -/

/-- Every byte of the burst is between the two. -/
def Within (low high : Nat) (args : Burst aw) : Prop :=
  ∀ k < args.beats, ∀ b < 4,
    low ≤ (args.drives k).toNat + b ∧ (args.drives k).toNat + b ≤ high

/-- The burst stays in its range, and in the memory if it is not drawn again. -/
structure RangeHolds (maxBurstLen memLow memHigh : Nat) (args : Burst aw) : Prop where
  covers :
    let range := adrRange maxBurstLen args.addrI args.burstLengthI args.burstTypeI
    Within range.2.toNat range.1.toNat args
  accepted :
    let range := adrRange maxBurstLen args.addrI args.burstLengthI args.burstTypeI
    Accepted memLow memHigh range → Within memLow memHigh args

/-- The check is as good as the range. -/
theorem rangeHolds_iff {maxBurstLen memLow memHigh : Nat} {args : Burst aw} :
    RangeHolds maxBurstLen memLow memHigh args ↔
      Within (adrRange maxBurstLen args.addrI args.burstLengthI args.burstTypeI).2.toNat
        (adrRange maxBurstLen args.addrI args.burstLengthI args.burstTypeI).1.toNat args := by
  constructor
  · exact RangeHolds.covers
  · intro covers
    refine ⟨covers, fun accepted k less b inWord => ?_⟩
    obtain ⟨low, high⟩ := covers k less b inWord
    rw [Accepted, not_or] at accepted
    omega

/-! ## Bytes and words -/

theorem shift_eq (adr : BitVec aw) (bits : Nat) :
    adr >>> bits = BitVec.ofNat aw (adr.toNat / 2 ^ bits) := by
  have small : adr.toNat / 2 ^ bits < 2 ^ aw := lt_of_le_of_lt (Nat.div_le_self _ _) adr.isLt
  apply BitVec.eq_of_toNat_eq
  rw [BitVec.toNat_ushiftRight, Nat.shiftRight_eq_div_pow, BitVec.toNat_ofNat,
    Nat.mod_eq_of_lt small]

/-- `adr_i[aw-1:2]`. -/
theorem word_eq (adr : BitVec aw) : adr >>> 2 = BitVec.ofNat aw (adr.toNat / 4) := shift_eq adr 2

/-- The first byte of a word. -/
theorem toNat_firstByte (wide : 6 ≤ aw) {m : Nat} (inside : m < 2 ^ (aw - 2)) :
    (BitVec.ofNat aw m * 4).toNat = 4 * m := by
  have whole := space_eq wide
  have product : BitVec.ofNat aw m * 4 = BitVec.ofNat aw (m * 4) := (BitVec.ofNat_mul ..).symm
  rw [product, BitVec.toNat_ofNat, Nat.mod_eq_of_lt (by omega), Nat.mul_comm]

/-- The last byte in front of a word. -/
theorem toNat_byteBefore (wide : 6 ≤ aw) (m : Nat) :
    (BitVec.ofNat aw m * 4 - 1).toNat = 4 * ((m + 2 ^ (aw - 2) - 1) % 2 ^ (aw - 2)) + 3 := by
  have whole := space_eq wide
  have positive := Nat.two_pow_pos (aw - 2)
  have small := Nat.mod_lt m positive
  have product : BitVec.ofNat aw m * 4 = BitVec.ofNat aw (m * 4) := (BitVec.ofNat_mul ..).symm
  have one : (1 : BitVec aw).toNat = 1 := by
    show 1 % 2 ^ aw = 1
    exact Nat.mod_eq_of_lt (by omega)
  have scaled : m * 4 % 2 ^ aw = 4 * (m % 2 ^ (aw - 2)) := by
    rw [whole, Nat.mul_comm m, Nat.mul_mod_mul_left]
  rw [product, BitVec.toNat_sub, one, BitVec.toNat_ofNat, scaled, mod_before positive]
  split
  case isTrue zero =>
    rw [zero, Nat.mul_zero, Nat.add_zero, Nat.mod_eq_of_lt (by omega)]
    omega
  case isFalse some =>
    rw [Nat.mod_eq_sub_mod (by omega), Nat.mod_eq_of_lt (by omega)]
    omega

variable {args : Burst aw}

/-- A range of whole words. -/
theorem within_iff (wide : 6 ≤ aw) (aligned : args.addrI.toNat % 4 = 0) (first last : Nat) :
    Within (4 * first) (4 * last + 3) args ↔
      ∀ k < args.beats,
        first ≤ (next (args.burstTypeI.blockWords aw))^[k] (args.addrI.toNat / 4) ∧
          (next (args.burstTypeI.blockWords aw))^[k] (args.addrI.toNat / 4) ≤ last := by
  refine forall₂_congr fun k less => ?_
  rw [toNat_drives wide aligned]
  constructor
  · intro bytes
    obtain ⟨low, -⟩ := bytes 0 (by decide)
    obtain ⟨-, high⟩ := bytes 3 (by decide)
    omega
  · intro words b inWord
    omega

/-! ## The range of a block -/

variable {adr : BitVec aw} {burstType : BurstType}

theorem toNat_lastByte (wide : 6 ≤ aw) {m : Nat} (some : 0 < m) (inside : m ≤ 2 ^ (aw - 2)) :
    (BitVec.ofNat aw m * 4 - 1).toNat = 4 * (m - 1) + 3 := by
  rw [toNat_byteBefore wide, Nat.sub_add_comm some, Nat.add_mod_right,
    Nat.mod_eq_of_lt (by omega)]

theorem block_eq (adr : BitVec aw) (bits : Nat) :
    adr >>> 2 >>> bits * BitVec.ofNat aw (2 ^ bits) =
      BitVec.ofNat aw (adr.toNat / 4 / 2 ^ bits * 2 ^ bits) := by
  have shifted : adr >>> 2 >>> bits = BitVec.ofNat aw (adr.toNat / 4 / 2 ^ bits) := by
    rw [← BitVec.shiftRight_add, shift_eq, Nat.pow_add, ← Nat.div_div_eq_div_mul]
  rw [shifted, BitVec.ofNat_mul]

/-- Bytes of the block of `2 ^ bits` words around an address. -/
theorem toNat_block (wide : 6 ≤ aw) (burstType : BurstType) {bits : Nat}
    (whole : burstType.blockWords aw = 2 ^ bits) :
    let first := adr.toNat / 4 / 2 ^ bits * 2 ^ bits
    ((adr >>> 2 >>> bits * BitVec.ofNat aw (2 ^ bits) + BitVec.ofNat aw (2 ^ bits)) * 4
        - 1).toNat = 4 * (first + 2 ^ bits - 1) + 3 ∧
      (adr >>> 2 >>> bits * BitVec.ofNat aw (2 ^ bits) * 4).toNat = 4 * first := by
  have inside := block_le wide burstType adr
  have positive := Nat.two_pow_pos bits
  rw [whole] at inside
  rw [block_eq, ← BitVec.ofNat_add]
  exact ⟨toNat_lastByte wide (Nat.add_pos_right _ positive) inside,
    toNat_firstByte wide (by omega)⟩

/-- The bytes of its block, except in a linear burst. -/
theorem toNat_adrRange_block (wide : 6 ≤ aw) (maxBurstLen : Nat) (burstLength : BitVec 32)
    (adr : BitVec aw) (round : burstType ≠ .linear) :
    let first := adr.toNat / 4 / burstType.blockWords aw * burstType.blockWords aw
    (adrRange maxBurstLen adr burstLength burstType).1.toNat =
        4 * (first + burstType.blockWords aw - 1) + 3 ∧
      (adrRange maxBurstLen adr burstLength burstType).2.toNat = 4 * first := by
  cases burstType with
  | linear => exact absurd rfl round
  | wrap4 => exact toNat_block wide .wrap4 (rfl : 4 = 2 ^ 2)
  | wrap8 => exact toNat_block wide .wrap8 (rfl : 8 = 2 ^ 3)
  | wrap16 => exact toNat_block wide .wrap16 (rfl : 16 = 2 ^ 4)
  | constant =>
      have small := word_lt wide adr
      have next : adr >>> 2 + 1 = BitVec.ofNat aw (adr.toNat / 4 + 1) := by
        rw [word_eq, BitVec.ofNat_add]
        rfl
      constructor
      · show ((adr >>> 2 + 1) * 4 - 1).toNat = 4 * (adr.toNat / 4 / 1 * 1 + 1 - 1) + 3
        rw [next, toNat_lastByte wide (Nat.succ_pos _) small, Nat.div_one, Nat.mul_one]
      · show (adr >>> 2 * 4).toNat = 4 * (adr.toNat / 4 / 1 * 1)
        rw [word_eq, toNat_firstByte wide small, Nat.div_one, Nat.mul_one]

/-- **The block of a burst holds all of it.** -/
theorem within_block (wide : 6 ≤ aw) (aligned : args.addrI.toNat % 4 = 0) (maxBurstLen : Nat)
    (round : args.burstTypeI ≠ .linear) :
    Within (adrRange maxBurstLen args.addrI args.burstLengthI args.burstTypeI).2.toNat
      (adrRange maxBurstLen args.addrI args.burstLengthI args.burstTypeI).1.toNat args := by
  obtain ⟨high, low⟩ := toNat_adrRange_block wide maxBurstLen args.burstLengthI args.addrI round
  have positive : 0 < args.burstTypeI.blockWords aw := BurstType.blockWords_pos
  rw [high, low, within_iff wide aligned]
  intro k _
  have place := Nat.mod_lt (args.addrI.toNat / 4 + k) positive
  rw [iterate_next positive]
  omega

/-! ## The range of a linear burst -/

/-- The length does not fit in `len_i`. -/
def Cut (maxBurstLen : Nat) (burstLength : BitVec 32) : Prop :=
  burstLength.toNat = maxBurstLen ∧ maxBurstLen = 2 ^ lenWidth maxBurstLen

theorem le_two_pow_lenWidth (maxBurstLen : Nat) : maxBurstLen ≤ 2 ^ lenWidth maxBurstLen := by
  have fits := le_two_pow_clog2 maxBurstLen
  rw [lenWidth]
  split
  case isTrue zero =>
    rw [zero] at fits
    omega
  case isFalse => exact fits

/-- What passes of the length: all of it, or nothing. -/
theorem toNat_lenI {maxBurstLen : Nat} {burstLength : BitVec 32}
    (fits : burstLength.toNat ≤ maxBurstLen) :
    (Cut maxBurstLen burstLength ∧ (lenI maxBurstLen burstLength).toNat = 0) ∨
      (¬ Cut maxBurstLen burstLength ∧
        (lenI maxBurstLen burstLength).toNat = burstLength.toNat) := by
  have bound := le_two_pow_lenWidth maxBurstLen
  rw [lenI, BitVec.toNat_setWidth]
  by_cases full : burstLength.toNat = 2 ^ lenWidth maxBurstLen
  · refine Or.inl ⟨⟨by omega, by omega⟩, ?_⟩
    rw [full, Nat.mod_self]
  · refine Or.inr ⟨fun ⟨whole, power⟩ => full (whole.trans power), Nat.mod_eq_of_lt (by omega)⟩

/-- The bytes from the first word to the one before the length that is passed. -/
theorem toNat_adrRange_linear (wide : 6 ≤ aw) (maxBurstLen : Nat) (burstLength : BitVec 32)
    (adr : BitVec aw) :
    (adrRange maxBurstLen adr burstLength .linear).1.toNat =
        4 * ((adr.toNat / 4 + (lenI maxBurstLen burstLength).toNat + 2 ^ (aw - 2) - 1) %
          2 ^ (aw - 2)) + 3 ∧
      (adrRange maxBurstLen adr burstLength .linear).2.toNat = 4 * (adr.toNat / 4) := by
  constructor
  · show ((adr >>> 2 + (lenI maxBurstLen burstLength).setWidth aw) * 4 - 1).toNat = _
    rw [word_eq, ← BitVec.ofNat_toNat, ← BitVec.ofNat_add, toNat_byteBefore wide]
  · show (adr >>> 2 * 4).toNat = _
    rw [word_eq, toNat_firstByte wide (word_lt wide adr)]

theorem within_linear_iff (wide : 6 ≤ aw) (aligned : args.addrI.toNat % 4 = 0)
    {maxBurstLen : Nat} (some : 1 ≤ args.beats) (fits : args.beats ≤ maxBurstLen)
    (linear : args.burstTypeI = .linear) :
    Within (adrRange maxBurstLen args.addrI args.burstLengthI args.burstTypeI).2.toNat
        (adrRange maxBurstLen args.addrI args.burstLengthI args.burstTypeI).1.toNat args ↔
      (args.addrI.toNat / 4 + args.beats ≤ 2 ^ (aw - 2) ∧
          (lenI maxBurstLen args.burstLengthI).toNat = args.beats) ∨
        (args.addrI.toNat / 4 = 0 ∧
          2 ^ (aw - 2) ∣ (lenI maxBurstLen args.burstLengthI).toNat) := by
  have inside := word_lt wide args.addrI
  obtain ⟨high, low⟩ := toNat_adrRange_linear wide maxBurstLen args.burstLengthI args.addrI
  have walk (k : Nat) :
      (next (BurstType.linear.blockWords aw))^[k] (args.addrI.toNat / 4) =
        (args.addrI.toNat / 4 + k) % 2 ^ (aw - 2) := by
    show (next (2 ^ (aw - 2)))^[k] _ = _
    rw [iterate_next (Nat.two_pow_pos _), Nat.div_eq_of_lt inside, Nat.zero_mul, Nat.zero_add]
  rw [linear, high, low, within_iff wide aligned, linear]
  simp only [walk]
  exact between_iff inside some ((toNat_lenI fits).imp And.right And.right)

/-- **The range holds but for linear bursts whose length is cut off or that come round the end
of the address space.** -/
theorem adrRange_iff (wide : 6 ≤ aw) {maxBurstLen memLow memHigh : Nat} {args : Burst aw}
    (aligned : args.addrI.toNat % 4 = 0) (some : 1 ≤ args.beats)
    (fits : args.beats ≤ maxBurstLen) :
    RangeHolds maxBurstLen memLow memHigh args ↔
      args.burstTypeI ≠ .linear ∨
        (args.addrI.toNat / 4 + args.beats ≤ 2 ^ (aw - 2) ∧
          ¬ Cut maxBurstLen args.burstLengthI) ∨
        (args.addrI.toNat / 4 = 0 ∧
          (Cut maxBurstLen args.burstLengthI ∨ 2 ^ (aw - 2) ∣ args.beats)) := by
  rw [rangeHolds_iff]
  by_cases linear : args.burstTypeI = .linear
  case neg => exact iff_of_true (within_block wide aligned maxBurstLen linear) (Or.inl linear)
  case pos =>
    rw [within_linear_iff wide aligned some fits linear, linear]
    rcases toNat_lenI fits with ⟨cut, none⟩ | ⟨whole, all⟩
    · have zero : ¬ 0 = args.beats := by omega
      simp [none, cut, zero]
    · have all : (lenI maxBurstLen args.burstLengthI).toNat = args.beats := all
      simp [all, whole]

/-- A burst of four words passes as one of none if there are no longer ones, and goes on behind
the memory. -/
theorem adrRange_four :
    let args := transaction (0xfc : BitVec 32) (fun _ => 0) 4 .linear
    ¬ RangeHolds 4 0 0xff args ∧
      Accepted 0 0xff (adrRange 4 args.addrI args.burstLengthI args.burstTypeI) ∧
      ¬ Within 0 0xff args := by
  refine ⟨fun holds => ?_, ?_, fun inside => ?_⟩
  · exact absurd (holds.covers 0 (by decide) 0 (by decide)).2 (by decide)
  · rw [Accepted]
    decide
  · exact absurd (inside 1 (by decide) 0 (by decide)).2 (by decide)

/-- With the burst length that the module has by default. -/
theorem adrRange_five :
    RangeHolds 5 0 0xffffffff (transaction (0x100 : BitVec 32) (fun _ => 0) 5 .linear) :=
  (adrRange_iff (by decide) (by decide) (by decide) (by decide)).2
    (Or.inr (Or.inl ⟨by decide, fun cut => absurd cut.2 (by decide)⟩))

end OrpsocCores.WbBfm
