import Mathlib.Data.Nat.Log
import OrpsocCores.Wishbone.Bus

/-!
# The functions of `wb_common.v`

`wb_next_adr` computes the address a burst prescribes on 32-bit byte addresses.
It is compared with the word index of `Cti.nextWord` in `wbNextAdr_toNat`.  The
step of a wrap burst replaces the low bits of the index and keeps the others; what
that is on numbers is `toNat_wrapAdd`.  Other cores replace the low bits of the byte
address, by `toNat_wrapNext`.
-/

set_option autoImplicit false

namespace OrpsocCores.Wishbone

/-- The step of a wrap burst: the high part stays, the low bits move on. -/
theorem toNat_wrapAdd {w : Nat} (k m : Nat) (width : w = m + k) (x : BitVec w) (c : BitVec k) :
    (x.extractLsb' k m ++ (x.extractLsb' 0 k + c)).toNat =
      x.toNat / 2 ^ k * 2 ^ k + (x.toNat + c.toNat) % 2 ^ k := by
  have below : x.toNat / 2 ^ k < 2 ^ m := by
    rw [Nat.div_lt_iff_lt_mul (Nat.two_pow_pos k), ← Nat.pow_add, ← width]
    exact x.isLt
  have low : (x.extractLsb' 0 k + c).toNat = (x.toNat + c.toNat) % 2 ^ k := by
    rw [BitVec.toNat_add, BitVec.extractLsb'_toNat, Nat.shiftRight_zero, Nat.mod_add_mod]
  rw [BitVec.toNat_append, BitVec.extractLsb'_toNat, Nat.shiftRight_eq_div_pow,
    Nat.mod_eq_of_lt below, ← Nat.shiftLeft_add_eq_or_of_lt (BitVec.isLt _), Nat.shiftLeft_eq, low]

/-- The byte address of the next word in an aligned block of `2 ^ k` bytes. -/
theorem toNat_wrapNext {w k : Nat} (bits : 3 ≤ k) (wide : k ≤ w) (x : BitVec w) :
    ((x.extractLsb' k (w - k) ++ (x.extractLsb' 0 k + 4#k)).setWidth w).toNat =
      (x.toNat / 2 ^ k * 2 ^ k + (x.toNat + 4) % 2 ^ k) % 2 ^ w := by
  have four : (4#k).toNat = 4 := by
    rw [BitVec.toNat_ofNat]
    exact Nat.mod_eq_of_lt
      (lt_of_lt_of_le (by decide : 4 < 2 ^ 3) (Nat.pow_le_pow_right (by decide) bits))
  rw [BitVec.toNat_setWidth, toNat_wrapAdd k (w - k) (by omega), four]

/-- `wb_is_last`. -/
def wbIsLast (cti : Cti) : Bool :=
  match cti with
  | .classic => true
  | .constBurst => false
  | .incBurst => false
  | .endBurst => true

@[simp] theorem wbIsLast_eq_isLast (cti : Cti) : wbIsLast cti = cti.isLast := by cases cti <;> rfl

/-- `wb_next_adr`. -/
def wbNextAdr (adrI : BitVec 32) (ctiI : Cti) (bteI : Bte) (dw : Nat) : BitVec 32 :=
  let shift := Nat.clog 2 (dw / 8)
  let adr := adrI >>> shift
  let adr :=
    if ctiI = .incBurst then
      match bteI with
      | .linear => adr + 1#32
      | .wrap4 => adr.extractLsb' 2 30 ++ (adr.extractLsb' 0 2 + 1#2)
      | .wrap8 => adr.extractLsb' 3 29 ++ (adr.extractLsb' 0 3 + 1#3)
      | .wrap16 => adr.extractLsb' 4 28 ++ (adr.extractLsb' 0 4 + 1#4)
    else adr
  adr <<< shift

/-- **On 32-bit data `wb_next_adr` goes to the prescribed word.** -/
theorem wbNextAdr_toNat (adr : BitVec 32) (cti : Cti) (bte : Bte) :
    (wbNextAdr adr cti bte 32).toNat = 4 * (cti.nextWord bte (adr.toNat / 4) % 2 ^ 30) := by
  have shift : Nat.clog 2 (32 / 8) = 2 := by decide
  have index : (adr >>> 2).toNat = adr.toNat / 4 := by
    rw [BitVec.toNat_ushiftRight, Nat.shiftRight_eq_div_pow]
  have bound := adr.isLt
  simp only [wbNextAdr, shift, Cti.nextWord]
  rw [BitVec.toNat_shiftLeft, Nat.shiftLeft_eq]
  split
  · cases bte with
    | linear =>
        rw [Bte.nextWord, BitVec.toNat_add, index, BitVec.toNat_ofNat]
        omega
    | wrap4 =>
        rw [Bte.nextWord, toNat_wrapAdd 2 30 rfl, index, BitVec.toNat_ofNat]
        omega
    | wrap8 =>
        rw [Bte.nextWord, toNat_wrapAdd 3 29 rfl, index, BitVec.toNat_ofNat]
        omega
    | wrap16 =>
        rw [Bte.nextWord, toNat_wrapAdd 4 28 rfl, index, BitVec.toNat_ofNat]
        omega
  · rw [index]
    omega

/-! ## Codes -/

/-- `CTI_CLASSIC` to `CTI_END_OF_BURST`. -/
def Cti.code : Cti → BitVec 3
  | .classic => 0b000
  | .constBurst => 0b001
  | .incBurst => 0b010
  | .endBurst => 0b111

/-- `BTE_LINEAR` to `BTE_WRAP_16`. -/
def Bte.code : Bte → BitVec 2
  | .linear => 0
  | .wrap4 => 1
  | .wrap8 => 2
  | .wrap16 => 3

/-- `wb_next_adr` on the codes that it is given: three bits for the burst type, and cycle
types that are reserved. -/
def wbNextAdrCoded (adrI : BitVec 32) (ctiI bteI : BitVec 3) (dw : Nat) : BitVec 32 :=
  let shift := Nat.clog 2 (dw / 8)
  let adr := adrI >>> shift
  let adr :=
    if ctiI = Cti.code .incBurst then
      if bteI = (Bte.code .linear).setWidth 3 then adr + 1#32
      else if bteI = (Bte.code .wrap4).setWidth 3 then
        adr.extractLsb' 2 30 ++ (adr.extractLsb' 0 2 + 1#2)
      else if bteI = (Bte.code .wrap8).setWidth 3 then
        adr.extractLsb' 3 29 ++ (adr.extractLsb' 0 3 + 1#3)
      else if bteI = (Bte.code .wrap16).setWidth 3 then
        adr.extractLsb' 4 28 ++ (adr.extractLsb' 0 4 + 1#4)
      else adr
    else adr
  adr <<< shift

theorem wbNextAdrCoded_code (adrI : BitVec 32) (cti : Cti) (bte : Bte) (dw : Nat) :
    wbNextAdrCoded adrI cti.code (bte.code.setWidth 3) dw = wbNextAdr adrI cti bte dw := by
  cases cti <;> cases bte <;> rfl

/-- Other cycle types clear what is below the word. -/
theorem wbNextAdrCoded_still {ctiI : BitVec 3} (still : ctiI ≠ Cti.code .incBurst)
    (adrI : BitVec 32) (bteI : BitVec 3) (dw : Nat) :
    wbNextAdrCoded adrI ctiI bteI dw =
      adrI >>> Nat.clog 2 (dw / 8) <<< Nat.clog 2 (dw / 8) := by
  unfold wbNextAdrCoded
  dsimp only
  rw [if_neg still]

end OrpsocCores.Wishbone
