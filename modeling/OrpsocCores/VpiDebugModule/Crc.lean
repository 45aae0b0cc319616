import Mathlib.Tactic.IntervalCases
import OrpsocCores.Foundation.Crc

/-!
# The check registers of the debug link

Three pieces of code check what goes over the debug link: the task `calculate_crc` of the
simulated debugger, its receiver register `crc_in`, and the function `crc_calc` of the C
client.  The first two are networks with one line for each bit, the third shifts a word
and masks the polynomial.  All three are the step of one register (`calculateCrc_eq`,
`crcIn_eq`, `crcCalc_eq`), although the masks of the third have only 28 bits: the
polynomial has no higher ones.
-/

set_option autoImplicit false

namespace OrpsocCores.VpiDebugModule

open Crc

/-- `DBG_CRC_POLY`. -/
def DBG_CRC_POLY : BitVec 32 := 0x04c11db7#32

/-- `calculate_crc`: the next value of `crc_out`, bit 0 first. -/
def calculateCrc (crcOut : BitVec 32) (data : Bool) : BitVec 32 :=
  BitVec.ofBoolListLE [
    xor data (crcOut.getLsbD 31),
    xor (xor data (crcOut.getLsbD 0)) (crcOut.getLsbD 31),
    xor (xor data (crcOut.getLsbD 1)) (crcOut.getLsbD 31),
    crcOut.getLsbD 2,
    xor (xor data (crcOut.getLsbD 3)) (crcOut.getLsbD 31),
    xor (xor data (crcOut.getLsbD 4)) (crcOut.getLsbD 31),
    crcOut.getLsbD 5,
    xor (xor data (crcOut.getLsbD 6)) (crcOut.getLsbD 31),
    xor (xor data (crcOut.getLsbD 7)) (crcOut.getLsbD 31),
    crcOut.getLsbD 8,
    xor (xor data (crcOut.getLsbD 9)) (crcOut.getLsbD 31),
    xor (xor data (crcOut.getLsbD 10)) (crcOut.getLsbD 31),
    xor (xor data (crcOut.getLsbD 11)) (crcOut.getLsbD 31),
    crcOut.getLsbD 12,
    crcOut.getLsbD 13,
    crcOut.getLsbD 14,
    xor (xor data (crcOut.getLsbD 15)) (crcOut.getLsbD 31),
    crcOut.getLsbD 16,
    crcOut.getLsbD 17,
    crcOut.getLsbD 18,
    crcOut.getLsbD 19,
    crcOut.getLsbD 20,
    xor (xor data (crcOut.getLsbD 21)) (crcOut.getLsbD 31),
    xor (xor data (crcOut.getLsbD 22)) (crcOut.getLsbD 31),
    crcOut.getLsbD 23,
    crcOut.getLsbD 24,
    xor (xor data (crcOut.getLsbD 25)) (crcOut.getLsbD 31),
    crcOut.getLsbD 26,
    crcOut.getLsbD 27,
    crcOut.getLsbD 28,
    crcOut.getLsbD 29,
    crcOut.getLsbD 30]

/-- The register `crc_in` at a rising edge of `tck`, bit 0 first. -/
def crcIn (crcIn : BitVec 32) (tdo : Bool) : BitVec 32 :=
  BitVec.ofBoolListLE [
    xor tdo (crcIn.getLsbD 31),
    xor (xor tdo (crcIn.getLsbD 0)) (crcIn.getLsbD 31),
    xor (xor tdo (crcIn.getLsbD 1)) (crcIn.getLsbD 31),
    crcIn.getLsbD 2,
    xor (xor tdo (crcIn.getLsbD 3)) (crcIn.getLsbD 31),
    xor (xor tdo (crcIn.getLsbD 4)) (crcIn.getLsbD 31),
    crcIn.getLsbD 5,
    xor (xor tdo (crcIn.getLsbD 6)) (crcIn.getLsbD 31),
    xor (xor tdo (crcIn.getLsbD 7)) (crcIn.getLsbD 31),
    crcIn.getLsbD 8,
    xor (xor tdo (crcIn.getLsbD 9)) (crcIn.getLsbD 31),
    xor (xor tdo (crcIn.getLsbD 10)) (crcIn.getLsbD 31),
    xor (xor tdo (crcIn.getLsbD 11)) (crcIn.getLsbD 31),
    crcIn.getLsbD 12,
    crcIn.getLsbD 13,
    crcIn.getLsbD 14,
    xor (xor tdo (crcIn.getLsbD 15)) (crcIn.getLsbD 31),
    crcIn.getLsbD 16,
    crcIn.getLsbD 17,
    crcIn.getLsbD 18,
    crcIn.getLsbD 19,
    crcIn.getLsbD 20,
    xor (xor tdo (crcIn.getLsbD 21)) (crcIn.getLsbD 31),
    xor (xor tdo (crcIn.getLsbD 22)) (crcIn.getLsbD 31),
    crcIn.getLsbD 23,
    crcIn.getLsbD 24,
    xor (xor tdo (crcIn.getLsbD 25)) (crcIn.getLsbD 31),
    crcIn.getLsbD 26,
    crcIn.getLsbD 27,
    crcIn.getLsbD 28,
    crcIn.getLsbD 29,
    crcIn.getLsbD 30]

/-- `crc_match_in`. -/
def crcMatchIn (crcIn : BitVec 32) : Bool := crcIn == 0#32

/-- `crc_calc`. -/
def crcCalc (crc inputBit : BitVec 32) : BitVec 32 :=
  let d := if inputBit &&& 1#32 ≠ 0#32 then 0xfffffff#32 else 0x0000000#32
  let crc32 := if (crc >>> 31) &&& 1#32 ≠ 0#32 then 0xfffffff#32 else 0x0000000#32
  let crc := crc <<< 1
  crc ^^^ ((d ^^^ crc32) &&& DBG_CRC_POLY)

/-- A bit as an `int`. -/
def intBit (bit : Bool) : BitVec 32 := (BitVec.ofBool bit).setWidth 32

/-! ## One register -/

theorem calculateCrc_eq (crc : BitVec 32) (data : Bool) :
    calculateCrc crc data = step DBG_CRC_POLY crc data := by
  apply BitVec.eq_of_getLsbD_eq
  intro i inside
  rw [getLsbD_step DBG_CRC_POLY crc data inside, calculateCrc, BitVec.getLsbD_ofBoolListLE,
    BitVec.msb_eq_getLsbD_last]
  interval_cases i <;> simp only [List.getD_cons_zero, List.getD_cons_succ] <;>
    simp [DBG_CRC_POLY, Bool.xor_comm, Bool.xor_left_comm]

theorem crcIn_eq (crc : BitVec 32) (tdo : Bool) : crcIn crc tdo = step DBG_CRC_POLY crc tdo := by
  apply BitVec.eq_of_getLsbD_eq
  intro i inside
  rw [getLsbD_step DBG_CRC_POLY crc tdo inside, crcIn, BitVec.getLsbD_ofBoolListLE,
    BitVec.msb_eq_getLsbD_last]
  interval_cases i <;> simp only [List.getD_cons_zero, List.getD_cons_succ] <;>
    simp [DBG_CRC_POLY, Bool.xor_comm, Bool.xor_left_comm]

/-- The lowest bit of a word, as C tests it. -/
theorem and_one_ne_zero_iff (x : BitVec 32) : x &&& 1#32 ≠ 0#32 ↔ x.getLsbD 0 = true := by
  rw [BitVec.and_one_eq_setWidth_ofBool_getLsbD]
  cases x.getLsbD 0 with
  | false => decide
  | true => decide

theorem crcCalc_eq (crc inputBit : BitVec 32) :
    crcCalc crc inputBit = step DBG_CRC_POLY crc (inputBit.getLsbD 0) := by
  have high : (crc >>> 31).getLsbD 0 = crc.msb := by
    rw [BitVec.getLsbD_ushiftRight, BitVec.msb_eq_getLsbD_last]
  simp only [crcCalc, step, and_one_ne_zero_iff, high]
  cases crc.msb <;> cases inputBit.getLsbD 0 <;> rfl

theorem getLsbD_intBit (bit : Bool) : (intBit bit).getLsbD 0 = bit := by
  cases bit <;> rfl

/-! ## Messages -/

theorem foldl_calculateCrc (crc : BitVec 32) (bits : List Bool) :
    bits.foldl calculateCrc crc = feed DBG_CRC_POLY crc bits := by
  have same : calculateCrc = step DBG_CRC_POLY := by
    funext crc data
    exact calculateCrc_eq crc data
  rw [same, feed]

theorem foldl_crcIn (crc : BitVec 32) (bits : List Bool) :
    bits.foldl crcIn crc = feed DBG_CRC_POLY crc bits := by
  have same : crcIn = step DBG_CRC_POLY := by
    funext crc tdo
    exact crcIn_eq crc tdo
  rw [same, feed]

theorem foldl_crcCalc (crc : BitVec 32) (bits : List Bool) :
    (bits.map intBit).foldl crcCalc crc = feed DBG_CRC_POLY crc bits := by
  have same : (fun crc bit => crcCalc crc (intBit bit)) = step DBG_CRC_POLY := by
    funext crc bit
    rw [crcCalc_eq, getLsbD_intBit]
  rw [List.foldl_map, same, feed]

/-- **The three agree on every message, and the receiver register is zero behind a message
exactly when the 32 bits that follow it are its check.** -/
theorem crc_agreement :
    (∀ (crc : BitVec 32) (bits : List Bool),
      bits.foldl crcIn crc = bits.foldl calculateCrc crc ∧
      (bits.map intBit).foldl crcCalc crc = bits.foldl calculateCrc crc) ∧
    ∀ (message : List Bool) (check : BitVec 32),
      crcMatchIn ((message ++ msbFirst check).foldl crcIn (BitVec.allOnes 32)) = true ↔
        check = message.foldl calculateCrc (BitVec.allOnes 32) := by
  constructor
  · intro crc bits
    rw [foldl_crcIn, foldl_crcCalc, foldl_calculateCrc]
    exact ⟨rfl, rfl⟩
  · intro message check
    have constant : DBG_CRC_POLY.getLsbD 0 = true := rfl
    rw [foldl_crcIn, foldl_calculateCrc, crcMatchIn, beq_iff_eq,
      feed_append_eq_zero_iff constant _ message (length_msbFirst check),
      msbFirst_injective.eq_iff]

end OrpsocCores.VpiDebugModule
