import OrpsocCores.Foundation.AlignedBlock
import OrpsocCores.VerilogUtils
import OrpsocCores.WbAvalonBridge.Model
import OrpsocCores.WbBfm.Bursts

/-!
# The transactor

`wb_bfm_transactor.v` draws a burst, asks `adr_range` whether it stays in the memory that it
may use, writes it, reads it back and compares what it gets with `expected_data`, which a
loop computes backwards from the data written.

The addresses that `next_addr` goes through are those of a walk round an aligned block of
words, whatever the type of the burst: the block of a linear burst is the address space and
that of a constant burst a single word (`toNat_drives`).
-/

set_option autoImplicit false

namespace OrpsocCores.WbBfm

open Wishbone VerilogUtils AlignedBlock

variable {aw : Nat}

/-! ## `wb_bfm_transactor.v` -/

/-- The bits of `[$clog2(MAX_BURST_LEN)-1:0]`; the range `[-1:0]` has two. -/
def lenWidth (maxBurstLen : Nat) : Nat := if clog2 maxBurstLen = 0 then 2 else clog2 maxBurstLen

/-- `len_i`, as `burst_length` is passed to it. -/
def lenI (maxBurstLen : Nat) (burstLength : BitVec 32) : BitVec (lenWidth maxBurstLen) :=
  burstLength.setWidth _

/-- `adr_range`: `adr_high` and `adr_low`. -/
def adrRange (maxBurstLen : Nat) (adrI : BitVec aw) (burstLength : BitVec 32)
    (burstTypeI : BurstType) : BitVec aw × BitVec aw :=
  let adr := adrI >>> 2
  match burstTypeI with
  | .linear => ((adr + (lenI maxBurstLen burstLength).setWidth aw) * 4 - 1, adr * 4)
  | .wrap4 => (((adr >>> 2) * 4 + 4) * 4 - 1, (adr >>> 2) * 4 * 4)
  | .wrap8 => (((adr >>> 3) * 8 + 8) * 4 - 1, (adr >>> 3) * 8 * 4)
  | .wrap16 => (((adr >>> 4) * 16 + 16) * 4 - 1, (adr >>> 4) * 16 * 4)
  | .constant => ((adr + 1) * 4 - 1, adr * 4)

/-- The burst is not drawn again: `adr_high` and `adr_low` are between `MEM_LOW` and
`MEM_HIGH`. -/
def Accepted (memLow memHigh : Nat) (range : BitVec aw × BitVec aw) : Prop :=
  ¬ (range.1.toNat > memHigh ∨ range.2.toNat < memLow)

/-- `burst_wrap`. -/
def burstWrap (burstLength : Int) : BurstType → Int
  | .linear => burstLength
  | .wrap4 => 4
  | .wrap8 => 8
  | .wrap16 => 16
  | .constant => 1

/-- The loop that fills `expected_data`, with so many words to go; the vectors are taken word
by word. -/
def expectedLoop (writeData : BitVec 32 → BitVec 32) (burstLength burstWrap : Int) :
    Nat → Int → (BitVec 32 → BitVec 32) → BitVec 32 → BitVec 32
  | 0, _, expectedData => expectedData
  | word + 1, tmp, expectedData =>
      let expectedData := Function.update expectedData (BitVec.ofInt 32 word)
        (writeData (BitVec.ofInt 32 tmp))
      let tmp := tmp - 1
      let tmp := if tmp < burstLength - burstWrap then burstLength - 1 else tmp
      expectedLoop writeData burstLength burstWrap word tmp expectedData

/-- `expected_data` after a transaction, from what it was before. -/
def expectedData (burstLength : BitVec 32) (burstType : BurstType)
    (writeData before : BitVec 32 → BitVec 32) : BitVec 32 → BitVec 32 :=
  expectedLoop writeData burstLength.toInt (burstWrap burstLength.toInt burstType)
    burstLength.toNat (burstLength.toInt - 1) before

/-- The burst of a transaction. -/
def transaction (address : BitVec aw) (writeData : BitVec 32 → BitVec 32)
    (burstLength : BitVec 32) (burstType : BurstType) : Burst aw :=
  ⟨address, writeData, 0xf, burstLength, burstType⟩

/-! ## The words of a burst -/

/-- The words that a burst of this type goes round. -/
def BurstType.blockWords (aw : Nat) : BurstType → Nat
  | .linear => 2 ^ (aw - 2)
  | .wrap4 => 4
  | .wrap8 => 8
  | .wrap16 => 16
  | .constant => 1

variable {burstType : BurstType} {adr : BitVec aw}

theorem BurstType.blockWords_pos : 0 < burstType.blockWords aw := by
  cases burstType with
  | linear => exact Nat.two_pow_pos _
  | _ => exact Nat.succ_pos _

/-- The address space consists of such blocks. -/
theorem BurstType.blockWords_dvd (wide : 6 ≤ aw) : burstType.blockWords aw ∣ 2 ^ (aw - 2) := by
  have blocks {n : Nat} (small : n ≤ 4) : 2 ^ n ∣ 2 ^ (aw - 2) := Nat.pow_dvd_pow 2 (by omega)
  cases burstType with
  | linear => exact Nat.dvd_refl _
  | wrap4 => exact blocks (by decide : 2 ≤ 4)
  | wrap8 => exact blocks (by decide : 3 ≤ 4)
  | wrap16 => exact blocks (by decide : 4 ≤ 4)
  | constant => exact Nat.one_dvd _

theorem space_eq (wide : 6 ≤ aw) : 2 ^ aw = 4 * 2 ^ (aw - 2) := by
  rw [show (4 : Nat) = 2 ^ 2 from rfl, ← Nat.pow_add]
  congr 1
  omega

theorem word_lt (wide : 6 ≤ aw) (adr : BitVec aw) : adr.toNat / 4 < 2 ^ (aw - 2) := by
  have whole := space_eq wide
  have bound := adr.isLt
  omega

/-- The block of a word does not reach over the end of the address space. -/
theorem block_le (wide : 6 ≤ aw) (burstType : BurstType) (adr : BitVec aw) :
    adr.toNat / 4 / burstType.blockWords aw * burstType.blockWords aw +
      burstType.blockWords aw ≤ 2 ^ (aw - 2) := by
  obtain ⟨blocks, space⟩ : burstType.blockWords aw ∣ 2 ^ (aw - 2) := BurstType.blockWords_dvd wide
  have inside : adr.toNat / 4 / burstType.blockWords aw < blocks := by
    rw [Nat.div_lt_iff_lt_mul BurstType.blockWords_pos, Nat.mul_comm, ← space]
    exact word_lt wide adr
  calc adr.toNat / 4 / burstType.blockWords aw * burstType.blockWords aw +
        burstType.blockWords aw
      = (adr.toNat / 4 / burstType.blockWords aw + 1) * burstType.blockWords aw := by
        rw [Nat.add_one_mul]
    _ ≤ blocks * burstType.blockWords aw := Nat.mul_le_mul_right _ inside
    _ = 2 ^ (aw - 2) := by rw [Nat.mul_comm, space]

/-- A walk does not leave the address space. -/
theorem iterate_next_lt (wide : 6 ≤ aw) (adr : BitVec aw) (k : Nat) :
    (next (burstType.blockWords aw))^[k] (adr.toNat / 4) < 2 ^ (aw - 2) := by
  have whole := block_le wide burstType adr
  have positive : 0 < burstType.blockWords aw := BurstType.blockWords_pos
  have place := Nat.mod_lt (adr.toNat / 4 + k) positive
  rw [iterate_next positive]
  omega

/-- The types with a burst type extension step as the bridge to Avalon does. -/
theorem nextAddr_ofBte (bte : Bte) (adr : BitVec aw) :
    nextAddr adr (.ofBte bte) = WbAvalonBridge.nextAdr bte adr := by
  cases bte <;> rfl

theorem toNat_nextAddr_ofBte (wide : 6 ≤ aw) (bte : Bte) (aligned : adr.toNat % 4 = 0) :
    (nextAddr adr (.ofBte bte)).toNat =
      4 * next ((BurstType.ofBte bte).blockWords aw) (adr.toNat / 4) := by
  rw [nextAddr_ofBte, WbAvalonBridge.toNat_nextAdr wide, aligned, Nat.add_zero]
  congr 1
  have inside : next ((BurstType.ofBte bte).blockWords aw) (adr.toNat / 4) < 2 ^ (aw - 2) :=
    iterate_next_lt wide adr 1
  cases bte with
  | linear =>
      have small := word_lt wide adr
      show (adr.toNat / 4 + 1) % 2 ^ (aw - 2) = adr.toNat / 4 / 2 ^ (aw - 2) * 2 ^ (aw - 2) + _
      rw [Nat.div_eq_of_lt small, Nat.zero_mul, Nat.zero_add]
      rfl
  | _ => exact Nat.mod_eq_of_lt inside

/-- **`next_addr` goes on in the block.** -/
theorem toNat_nextAddr (wide : 6 ≤ aw) (aligned : adr.toNat % 4 = 0) :
    (nextAddr adr burstType).toNat = 4 * next (burstType.blockWords aw) (adr.toNat / 4) := by
  cases burstType with
  | linear => exact toNat_nextAddr_ofBte wide .linear aligned
  | wrap4 => exact toNat_nextAddr_ofBte wide .wrap4 aligned
  | wrap8 => exact toNat_nextAddr_ofBte wide .wrap8 aligned
  | wrap16 => exact toNat_nextAddr_ofBte wide .wrap16 aligned
  | constant =>
      show adr.toNat = 4 * (adr.toNat / 4 / 1 * 1 + (adr.toNat / 4 + 1) % 1)
      omega

variable {args : Burst aw}

/-- **The `k`-th beat is at the `k`-th word of the walk.** -/
theorem toNat_drives (wide : 6 ≤ aw) (aligned : args.addrI.toNat % 4 = 0) (k : Nat) :
    (args.drives k).toNat =
      4 * (next (args.burstTypeI.blockWords aw))^[k] (args.addrI.toNat / 4) := by
  induction k with
  | zero =>
      show args.addrI.toNat = 4 * (args.addrI.toNat / 4)
      omega
  | succ k ih =>
      have aligned' : (args.drives k).toNat % 4 = 0 := by
        rw [ih, Nat.mul_mod_right]
      rw [Burst.drives_succ, toNat_nextAddr wide aligned', ih,
        Nat.mul_div_cancel_left _ (by decide), Function.iterate_succ_apply']

/-- Two beats are at one word if they are whole rounds apart. -/
theorem drives_eq_iff (wide : 6 ≤ aw) (aligned : args.addrI.toNat % 4 = 0) (j k : Nat) :
    args.drives j = args.drives k ↔
      j % args.burstTypeI.blockWords aw = k % args.burstTypeI.blockWords aw := by
  rw [← BitVec.toNat_inj, toNat_drives wide aligned, toNat_drives wide aligned,
    Nat.mul_right_inj (by decide), iterate_next_eq_iff BurstType.blockWords_pos]

end OrpsocCores.WbBfm
