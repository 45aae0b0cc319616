import OrpsocCores.Gdb.Target

/-!
# The cached debug registers

The debug server keeps a copy of the debug group of the processor: eight pairs
of a value register (DVR) and a control register (DCR), the two mode registers,
two counters, the stop register and the reason register.  A hardware breakpoint
at an address is a pair with the address in its DVR, the compare condition
"equal" in its DCR, and the bit of the pair set in the field WGB of DMR2.

The copy is an array of words in the static memory of the process and the code
computes indices into it, so that `DbgGroupRegs` is the memory around the
structure: the structure itself are the words `0` to `21`, word `-1` is what
happens to lie in front of it.  The control register of pair `-1` is therefore
the value register of pair `7`.
-/

set_option autoImplicit false

namespace OrpsocCores.Gdb

/-- The words of `or1k_dbg_group_regs_cache` and of the memory around it. -/
abbrev DbgGroupRegs := Int → BitVec 32

/-- The number of words of the structure. -/
def dbgGroupWords : Nat := 22

/-- The number of pairs of registers, `OR1K_MAX_MATCHPOINTS`. -/
def or1kMaxMatchpoints : Nat := 8

/-! ## Layout -/

def dvr (i : Int) : Int := i
def dcr (i : Int) : Int := 8 + i
def dmr1 : Int := 16
def dmr2 : Int := 17
def dsr : Int := 20
def drr : Int := 21

/-- The compare conditions in use. -/
def or1kCcMasked : BitVec 3 := 0
def or1kCcEq : BitVec 3 := 1

/-- Compare to the address of an instruction fetch. -/
def or1kCtFetch : BitVec 3 := 1

/-- The pair is present. -/
def dcrDp (word : BitVec 32) : Bool := word.getLsbD 0

/-- The compare condition of a control register. -/
def dcrCc (word : BitVec 32) : BitVec 3 := word.extractLsb' 1 3

/-- Assign the compare condition. -/
def setCc (word : BitVec 32) (cc : BitVec 3) : BitVec 32 :=
  (word &&& ~~~(7#32 <<< 1)) ||| (cc.setWidth 32 <<< 1)

/-- Assign the bit for signed comparison. -/
def setSc (word : BitVec 32) (sc : BitVec 1) : BitVec 32 :=
  (word &&& ~~~(1#32 <<< 4)) ||| (sc.setWidth 32 <<< 4)

/-- Assign what is compared. -/
def setCt (word : BitVec 32) (ct : BitVec 3) : BitVec 32 :=
  (word &&& ~~~(7#32 <<< 5)) ||| (ct.setWidth 32 <<< 5)

/-- Where the field WGB begins in DMR2. -/
def sprDmr2WgbOff : Int := 12

def sprDmr2Wgb : BitVec 32 := 0x003ff000
def sprDmr1St : BitVec 32 := 0x00400000
def sprDsrTe : BitVec 32 := 0x00002000

/-- The bit of a pair in DMR2. -/
def wgbBit (wpNum : Int) : BitVec 32 := 1#32 <<< (sprDmr2WgbOff + wpNum).toNat

/-! ## Operations on the pairs -/

/-- `-1` when the loop has found nothing. -/
def foundPair : Option Nat → Int
  | some i => i
  | none => -1

def findMatchingDcrdvrPair (regs : DbgGroupRegs) (addr : BitVec 32) (cc : BitVec 3) : Int :=
  foundPair <| (List.range or1kMaxMatchpoints).find? fun i =>
    regs (dvr i) = addr ∧ dcrCc (regs (dcr i)) = cc

def findFreeDcrdvrPair (regs : DbgGroupRegs) : Int :=
  foundPair <| (List.range or1kMaxMatchpoints).find? fun i =>
    dcrCc (regs (dcr i)) = or1kCcMasked ∧ dcrDp (regs (dcr i))

def insertHwWatchpoint (regs : DbgGroupRegs) (wpNum : Int) (address : BitVec 32)
    (cc : BitVec 3) : DbgGroupRegs :=
  let regs := Function.update regs (dvr wpNum) address
  Function.update regs (dcr wpNum) (setCt (setSc (setCc (regs (dcr wpNum)) cc) 0) or1kCtFetch)

def enableHwBreakpoint (regs : DbgGroupRegs) (wpNum : Int) : DbgGroupRegs :=
  Function.update regs dmr2 (regs dmr2 ||| wgbBit wpNum)

def disableHwBreakpoint (regs : DbgGroupRegs) (wpNum : Int) : DbgGroupRegs :=
  Function.update regs dmr2 (regs dmr2 &&& ~~~wgbBit wpNum)

def removeHwWatchpoint (regs : DbgGroupRegs) (wpNum : Int) : DbgGroupRegs :=
  let regs := Function.update regs (dvr wpNum) 0
  let regs := Function.update regs (dcr wpNum) (setSc (setCc (regs (dcr wpNum)) or1kCcMasked) 0)
  disableHwBreakpoint regs wpNum

/-- What `Z1` does to the registers. -/
def insertHwBreakpoint (regs : DbgGroupRegs) (addr : BitVec 32) : DbgGroupRegs :=
  let wpNum := findFreeDcrdvrPair regs
  enableHwBreakpoint (insertHwWatchpoint regs wpNum addr or1kCcEq) wpNum

/-- What `z1` does to the registers. -/
def removeHwBreakpoint (regs : DbgGroupRegs) (addr : BitVec 32) : DbgGroupRegs :=
  let wpNum := findMatchingDcrdvrPair regs addr or1kCcEq
  let regs := removeHwWatchpoint regs wpNum
  if wpNum < 0 then regs else disableHwBreakpoint (removeHwWatchpoint regs wpNum) wpNum

/-- What a continue request writes back. -/
def continueRegs (regs : DbgGroupRegs) : DbgGroupRegs :=
  let regs := Function.update regs drr 0
  let regs := Function.update regs dmr1 (regs dmr1 &&& ~~~sprDmr1St)
  Function.update regs dsr (regs dsr ||| sprDsrTe)

/-- What a step request writes back. -/
def stepRegs (regs : DbgGroupRegs) : DbgGroupRegs :=
  let regs := Function.update regs drr 0
  let regs := Function.update regs dmr1 (regs dmr1 ||| sprDmr1St)
  let regs := Function.update regs dsr (regs dsr ||| sprDsrTe)
  Function.update regs dmr2 (regs dmr2 &&& ~~~sprDmr2Wgb)

/-! ## The fields -/

@[simp] theorem dcrCc_setCc (word : BitVec 32) (cc : BitVec 3) : dcrCc (setCc word cc) = cc := by
  apply BitVec.eq_of_getLsbD_eq
  intro i inside
  simp only [dcrCc, setCc, BitVec.getLsbD_extractLsb', BitVec.getLsbD_or, BitVec.getLsbD_and,
    BitVec.getLsbD_not, BitVec.getLsbD_shiftLeft, BitVec.getLsbD_setWidth]
  interval_cases i <;> simp

@[simp] theorem dcrCc_setSc (word : BitVec 32) (sc : BitVec 1) :
    dcrCc (setSc word sc) = dcrCc word := by
  apply BitVec.eq_of_getLsbD_eq
  intro i inside
  simp only [dcrCc, setSc, BitVec.getLsbD_extractLsb', BitVec.getLsbD_or, BitVec.getLsbD_and,
    BitVec.getLsbD_not, BitVec.getLsbD_shiftLeft, BitVec.getLsbD_setWidth]
  interval_cases i <;> simp

@[simp] theorem dcrCc_setCt (word : BitVec 32) (ct : BitVec 3) :
    dcrCc (setCt word ct) = dcrCc word := by
  apply BitVec.eq_of_getLsbD_eq
  intro i inside
  simp only [dcrCc, setCt, BitVec.getLsbD_extractLsb', BitVec.getLsbD_or, BitVec.getLsbD_and,
    BitVec.getLsbD_not, BitVec.getLsbD_shiftLeft, BitVec.getLsbD_setWidth]
  interval_cases i <;> simp

/-- The bit of a pair is bit `12` and the number of the pair. -/
theorem getLsbD_wgbBit (i k : Nat) :
    (wgbBit i).getLsbD k = (decide (k < 32) && decide (k = 12 + i)) := by
  have offset : (sprDmr2WgbOff + (i : Int)).toNat = 12 + i := by
    simp only [sprDmr2WgbOff]
    omega
  rw [wgbBit, offset, BitVec.getLsbD_shiftLeft, BitVec.getLsbD_one, Bool.eq_iff_iff]
  simp only [Bool.and_eq_true, Bool.not_eq_true', decide_eq_true_eq, decide_eq_false_iff_not]
  omega

/-! ## The pairs -/

/-- A pair with this address and the compare condition "equal". -/
def SetFor (regs : DbgGroupRegs) (addr : BitVec 32) (i : Nat) : Prop :=
  regs (dvr i) = addr ∧ dcrCc (regs (dcr i)) = or1kCcEq

instance (regs : DbgGroupRegs) (addr : BitVec 32) (i : Nat) : Decidable (SetFor regs addr i) :=
  inferInstanceAs (Decidable (_ ∧ _))

/-- A pair that is present and not in use. -/
def FreePair (regs : DbgGroupRegs) (i : Nat) : Prop :=
  dcrCc (regs (dcr i)) = or1kCcMasked ∧ dcrDp (regs (dcr i)) = true

instance (regs : DbgGroupRegs) (i : Nat) : Decidable (FreePair regs i) :=
  inferInstanceAs (Decidable (_ ∧ _))

/-- A match of the pair stops the processor. -/
def enabled (regs : DbgGroupRegs) (i : Nat) : Bool := (regs dmr2).getLsbD (12 + i)

/-- Two contents of the registers agree on a pair. -/
structure SamePair (regs regs' : DbgGroupRegs) (i : Nat) : Prop where
  value : regs' (dvr i) = regs (dvr i)
  control : regs' (dcr i) = regs (dcr i)
  enable : enabled regs' i = enabled regs i

instance (regs regs' : DbgGroupRegs) (i : Nat) : Decidable (SamePair regs regs' i) :=
  decidable_of_iff
    (regs' (dvr i) = regs (dvr i) ∧ regs' (dcr i) = regs (dcr i) ∧ enabled regs' i = enabled regs i)
    ⟨fun ⟨value, control, enable⟩ => ⟨value, control, enable⟩,
      fun same => ⟨same.value, same.control, same.enable⟩⟩

theorem SamePair.setFor_iff {regs regs' : DbgGroupRegs} {i : Nat} (same : SamePair regs regs' i)
    (addr : BitVec 32) : SetFor regs' addr i ↔ SetFor regs addr i := by
  rw [SetFor, SetFor, same.value, same.control]

/-- What a search loop returns: the first pair with the property, or `-1`. -/
theorem foundPair_spec (p : Nat → Bool) :
    (∃ i, i < or1kMaxMatchpoints ∧ p i = true ∧ (∀ j < i, p j = false) ∧
      foundPair ((List.range or1kMaxMatchpoints).find? p) = i) ∨
    ((∀ i < or1kMaxMatchpoints, p i = false) ∧
      foundPair ((List.range or1kMaxMatchpoints).find? p) = -1) := by
  cases found : (List.range or1kMaxMatchpoints).find? p with
  | none =>
      right
      rw [List.find?_range_eq_none] at found
      exact ⟨fun i inside => by simpa using found i inside, rfl⟩
  | some i =>
      left
      rw [List.find?_range_eq_some] at found
      obtain ⟨holds, inside, first⟩ := found
      exact ⟨i, List.mem_range.mp inside, holds, fun j before => by simpa using first j before, rfl⟩

theorem findFreeDcrdvrPair_spec (regs : DbgGroupRegs) :
    (∃ i, i < or1kMaxMatchpoints ∧ FreePair regs i ∧ findFreeDcrdvrPair regs = i) ∨
    ((∀ i < or1kMaxMatchpoints, ¬ FreePair regs i) ∧ findFreeDcrdvrPair regs = -1) := by
  rcases foundPair_spec fun i =>
      decide (dcrCc (regs (dcr i)) = or1kCcMasked ∧ dcrDp (regs (dcr i)) = true) with
    ⟨i, inside, free, -, found⟩ | ⟨none, found⟩
  · exact .inl ⟨i, inside, of_decide_eq_true free, found⟩
  · exact .inr ⟨fun i inside => of_decide_eq_false (none i inside), found⟩

theorem findMatchingDcrdvrPair_spec (regs : DbgGroupRegs) (addr : BitVec 32) :
    (∃ i, i < or1kMaxMatchpoints ∧ SetFor regs addr i ∧ (∀ j < i, ¬ SetFor regs addr j) ∧
      findMatchingDcrdvrPair regs addr or1kCcEq = i) ∨
    ((∀ i < or1kMaxMatchpoints, ¬ SetFor regs addr i) ∧
      findMatchingDcrdvrPair regs addr or1kCcEq = -1) := by
  rcases foundPair_spec fun i =>
      decide (regs (dvr i) = addr ∧ dcrCc (regs (dcr i)) = or1kCcEq) with
    ⟨i, inside, set, first, found⟩ | ⟨none, found⟩
  · exact .inl ⟨i, inside, of_decide_eq_true set,
      fun j before => of_decide_eq_false (first j before), found⟩
  · exact .inr ⟨fun i inside => of_decide_eq_false (none i inside), found⟩

theorem SamePair.trans {regs regs' regs'' : DbgGroupRegs} {i : Nat}
    (first : SamePair regs regs' i) (second : SamePair regs' regs'' i) : SamePair regs regs'' i :=
  ⟨second.value.trans first.value, second.control.trans first.control,
    second.enable.trans first.enable⟩

/-- Setting up a pair inside the array. -/
theorem insertPair_spec (regs : DbgGroupRegs) (addr : BitVec 32) {i : Nat}
    (inside : i < or1kMaxMatchpoints) :
    SetFor (enableHwBreakpoint (insertHwWatchpoint regs i addr or1kCcEq) i) addr i ∧
      enabled (enableHwBreakpoint (insertHwWatchpoint regs i addr or1kCcEq) i) i = true ∧
      ∀ j < or1kMaxMatchpoints, j ≠ i →
        SamePair regs (enableHwBreakpoint (insertHwWatchpoint regs i addr or1kCcEq) i) j := by
  simp only [or1kMaxMatchpoints] at inside ⊢
  refine ⟨⟨?_, ?_⟩, ?_, fun j insideJ other => ⟨?_, ?_, ?_⟩⟩
  · simp only [enableHwBreakpoint, insertHwWatchpoint, Function.update_apply, dvr, dcr, dmr2]
    rw [if_neg (by omega), if_neg (by omega), if_pos trivial]
  · simp only [enableHwBreakpoint, insertHwWatchpoint, Function.update_apply, dvr, dcr, dmr2]
    rw [if_neg (by omega), if_pos trivial, dcrCc_setCt, dcrCc_setSc, dcrCc_setCc]
  · rw [enabled, enableHwBreakpoint, Function.update_self, BitVec.getLsbD_or, getLsbD_wgbBit]
    simp only [decide_true, Bool.and_true, Bool.or_eq_true, decide_eq_true_eq]
    omega
  · simp only [enableHwBreakpoint, insertHwWatchpoint, Function.update_apply, dvr, dcr, dmr2]
    rw [if_neg (by omega), if_neg (by omega), if_neg (by omega)]
  · simp only [enableHwBreakpoint, insertHwWatchpoint, Function.update_apply, dvr, dcr, dmr2]
    rw [if_neg (by omega), if_neg (by omega), if_neg (by omega)]
  · rw [enabled, enabled, enableHwBreakpoint, Function.update_self, BitVec.getLsbD_or,
      getLsbD_wgbBit]
    simp only [insertHwWatchpoint, Function.update_apply, dvr, dcr, dmr2]
    rw [if_neg (by omega), if_neg (by omega), decide_eq_false (show ¬ 12 + j = 12 + i by omega),
      Bool.and_false, Bool.or_false]

/-- Disabling a pair inside the array. -/
theorem disablePair_spec (regs : DbgGroupRegs) {i : Nat} (inside : i < or1kMaxMatchpoints) :
    disableHwBreakpoint regs i (dcr i) = regs (dcr i) ∧
      ∀ j < or1kMaxMatchpoints, j ≠ i → SamePair regs (disableHwBreakpoint regs i) j := by
  simp only [or1kMaxMatchpoints] at inside ⊢
  refine ⟨?_, fun j insideJ other => ⟨?_, ?_, ?_⟩⟩
  · simp only [disableHwBreakpoint, Function.update_apply, dcr, dmr2]
    rw [if_neg (by omega)]
  · simp only [disableHwBreakpoint, Function.update_apply, dvr, dmr2]
    rw [if_neg (by omega)]
  · simp only [disableHwBreakpoint, Function.update_apply, dcr, dmr2]
    rw [if_neg (by omega)]
  · rw [enabled, enabled, disableHwBreakpoint, Function.update_self,
      BitVec.getLsbD_and, BitVec.getLsbD_not, getLsbD_wgbBit,
      decide_eq_false (show ¬ 12 + j = 12 + i by omega), Bool.and_false, Bool.not_false,
      Bool.and_true, decide_eq_true (show 12 + j < 32 by omega), Bool.and_true]

/-- Removing a pair inside the array. -/
theorem removePair_spec (regs : DbgGroupRegs) {i : Nat} (inside : i < or1kMaxMatchpoints) :
    dcrCc (removeHwWatchpoint regs i (dcr i)) = or1kCcMasked ∧
      ∀ j < or1kMaxMatchpoints, j ≠ i → SamePair regs (removeHwWatchpoint regs i) j := by
  simp only [or1kMaxMatchpoints] at inside ⊢
  refine ⟨?_, fun j insideJ other => ⟨?_, ?_, ?_⟩⟩
  · simp only [removeHwWatchpoint, disableHwBreakpoint, Function.update_apply, dvr, dcr, dmr2]
    rw [if_neg (by omega), if_pos trivial, dcrCc_setSc, dcrCc_setCc]
  · simp only [removeHwWatchpoint, disableHwBreakpoint, Function.update_apply, dvr, dcr, dmr2]
    rw [if_neg (by omega), if_neg (by omega), if_neg (by omega)]
  · simp only [removeHwWatchpoint, disableHwBreakpoint, Function.update_apply, dvr, dcr, dmr2]
    rw [if_neg (by omega), if_neg (by omega), if_neg (by omega)]
  · rw [enabled, enabled, removeHwWatchpoint, disableHwBreakpoint, Function.update_self,
      BitVec.getLsbD_and, BitVec.getLsbD_not, getLsbD_wgbBit]
    simp only [Function.update_apply, dvr, dcr, dmr2]
    rw [if_neg (by omega), if_neg (by omega), decide_eq_false (show ¬ 12 + j = 12 + i by omega),
      Bool.and_false, Bool.not_false, Bool.and_true, decide_eq_true (show 12 + j < 32 by omega),
      Bool.and_true]

end OrpsocCores.Gdb
