import OrpsocCores.BootLoader.Model

/-!
# A transfer of the boot loader

`spi_xfer` sends as many bytes as `r5` says and shifts the answers into `r2`.  The first
byte is in `r3`, and an answer is what is sent next.  It waits for every answer, however
long the flash takes, and comes back to the caller with everything but `r1`, `r2` and `r3`
unchanged (`call_xfer`).
-/

set_option autoImplicit false

namespace OrpsocCores.BootLoader

open Or1k

variable (spi : Spi)

/-- The address of an instruction of the program. -/
def addr (k : Nat) : Word := romBase + BitVec.ofNat 32 (4 * k)

/-- The processor before the instruction `k`, with the instruction `j` behind it. -/
def located (g : Registers) (f : Bool) (k j : Nat) (c : spi.Core) (m : Memory) :
    State (spi.Core × Memory) := ⟨g, f, addr k, addr j, (c, m)⟩

/-- The program comes from one state to another. -/
abbrev Runs (P : State (spi.Core × Memory) → Prop) : State (spi.Core × Memory) → Prop :=
  Leads (State.step (bus spi) · code) P

theorem addr_add (k j : Nat) : addr k + BitVec.ofNat 32 (4 * j) = addr (k + j) := by
  rw [addr, addr, BitVec.add_assoc, Nat.mul_add, BitVec.ofNat_add]

theorem addr_succ (k : Nat) : addr k + 4 = addr (k + 1) := addr_add k 1

theorem addr_return (k : Nat) : addr k + 8 = addr (k + 2) := addr_add k 2

theorem toNat_addr {k : Nat} (inside : k < 1024) : (addr k).toNat = 0xf0000000 + 4 * k := by
  have base : romBase.toNat = 0xf0000000 := rfl
  rw [addr, BitVec.toNat_add, base, BitVec.toNat_ofNat]
  omega

/-- What the processor fetches is the program. -/
theorem code_addr {k : Nat} {i : Instr} (instr : program[k]? = some i) : code (addr k) = some i := by
  have inside : k < 64 := (List.getElem?_eq_some_iff.mp instr).1
  have place := toNat_addr (k := k) (by omega)
  have offset : (addr k - romBase).toNat / 4 = k := by
    have base : romBase.toNat = 0xf0000000 := rfl
    rw [BitVec.toNat_sub, place, base]
    omega
  have aligned : Aligned (addr k) := by
    rw [Aligned, place]
    omega
  have fetched : (rom.map decode)[k]? = some (some i) := by
    rw [decode_rom, List.getElem?_map, instr]
    rfl
  rw [List.getElem?_map] at fetched
  obtain ⟨word, here, decoded⟩ := Option.map_eq_some_iff.mp fetched
  rw [code, if_pos aligned, offset, here, Option.bind_some, decoded]

/-! ## The instructions of the program -/

section Instructions

variable {spi} {P : State (spi.Core × Memory) → Prop} {g : Registers} {f : Bool} {k j : Nat}
  {c : spi.Core} {m : Memory}

theorem next_located : (located spi g f k j c m).next = located spi g f j (j + 1) c m := by
  rw [located, State.next, State.go, located]
  simp only [addr_succ]

theorem run_alu (i : Instr) (instr : program[k]? = some i) {g' : Registers}
    (alu : i.alu g = some g') (rest : Runs spi P (located spi g' f j (j + 1) c m)) :
    Runs spi P (located spi g f k j c m) := by
  refine Leads.alu i (code_addr instr) alu ?_
  rw [next_located]
  exact rest

theorem run_sfeqi (a : Reg) (i : BitVec 16) (instr : program[k]? = some (.sfeqi a i))
    (rest : Runs spi P (located spi g (g a == i.signExtend 32) j (j + 1) c m)) :
    Runs spi P (located spi g f k j c m) := by
  refine Leads.exec _ (code_addr instr) rfl ?_
  rw [next_located]
  exact rest

theorem run_sfgeu (a b : Reg) (instr : program[k]? = some (.sfgeu a b))
    (rest : Runs spi P (located spi g (decide (g b ≤ g a)) j (j + 1) c m)) :
    Runs spi P (located spi g f k j c m) := by
  refine Leads.exec _ (code_addr instr) rfl ?_
  rw [next_located]
  exact rest

theorem run_bf_taken (n : BitVec 26) (instr : program[k]? = some (.bf n)) (t : Nat)
    (aim : target (addr k) n = addr t) (rest : Runs spi P (located spi g true j t c m)) :
    Runs spi P (located spi g true k j c m) := by
  refine Leads.exec _ (code_addr instr) (congrArg some (if_pos rfl)) ?_
  rw [State.go]
  simp only [located, aim]
  exact rest

theorem run_bf (n : BitVec 26) (instr : program[k]? = some (.bf n))
    (rest : Runs spi P (located spi g false j (j + 1) c m)) :
    Runs spi P (located spi g false k j c m) := by
  refine Leads.exec _ (code_addr instr) (congrArg some (if_neg Bool.false_ne_true)) ?_
  rw [next_located]
  exact rest

theorem run_bnf_taken (n : BitVec 26) (instr : program[k]? = some (.bnf n)) (t : Nat)
    (aim : target (addr k) n = addr t) (rest : Runs spi P (located spi g false j t c m)) :
    Runs spi P (located spi g false k j c m) := by
  refine Leads.exec _ (code_addr instr) (congrArg some (if_neg Bool.false_ne_true)) ?_
  rw [State.go]
  simp only [located, aim]
  exact rest

theorem run_bnf (n : BitVec 26) (instr : program[k]? = some (.bnf n))
    (rest : Runs spi P (located spi g true j (j + 1) c m)) :
    Runs spi P (located spi g true k j c m) := by
  refine Leads.exec _ (code_addr instr) (congrArg some (if_pos rfl)) ?_
  rw [next_located]
  exact rest

theorem run_jal (n : BitVec 26) (instr : program[k]? = some (.jal n)) (t : Nat)
    (aim : target (addr k) n = addr t)
    (rest : Runs spi P (located spi (g.set 9 (addr (k + 2))) f j t c m)) :
    Runs spi P (located spi g f k j c m) := by
  refine Leads.exec _ (code_addr instr) rfl ?_
  rw [State.go]
  simp only [located, aim, addr_return]
  exact rest

theorem run_jr (b : Reg) (instr : program[k]? = some (.jr b)) (aligned : Aligned (g b))
    (rest : Runs spi P ⟨g, f, addr j, g b, (c, m)⟩) :
    Runs spi P (located spi g f k j c m) := by
  refine Leads.exec _ (code_addr instr) (if_pos aligned) ?_
  exact rest

/-- A register of the SPI core is read. -/
theorem run_lbz (d a : Reg) (i : BitVec 16) (instr : program[k]? = some (.lbz d a i))
    (base : g a = spiBase) (r : BitVec 3) (inside : InSpi (spiBase + i.signExtend 32))
    (register : (spiBase + i.signExtend 32).setWidth 3 = r)
    (rest : Runs spi P (located spi (g.set d ((spi.read c r).1.setWidth 32)) f j (j + 1)
      (spi.read c r).2 m)) :
    Runs spi P (located spi g f k j c m) := by
  have loaded : (bus spi).loadByte (c, m) (g a + i.signExtend 32) =
      some ((spi.read c r).1, ((spi.read c r).2, m)) := by
    rw [base, ← register]
    exact if_pos inside
  refine Leads.exec _ (code_addr instr) (congrArg (Option.map _) loaded) ?_
  rw [next_located]
  exact rest

theorem storeByte_spi {i : BitVec 16} {r : BitVec 3} (inside : InSpi (spiBase + i.signExtend 32))
    (register : (spiBase + i.signExtend 32).setWidth 3 = r) (x : Byte) :
    (bus spi).storeByte (c, m) (spiBase + i.signExtend 32) x = some (spi.write c r x, m) := by
  rw [← register]
  exact if_pos inside

/-- A register of the SPI core is written. -/
theorem run_sb (i : BitVec 16) (a b : Reg) (instr : program[k]? = some (.sb i a b))
    (base : g a = spiBase) (r : BitVec 3) (inside : InSpi (spiBase + i.signExtend 32))
    (register : (spiBase + i.signExtend 32).setWidth 3 = r)
    (rest : Runs spi P (located spi g f j (j + 1) (spi.write c r ((g b).setWidth 8)) m)) :
    Runs spi P (located spi g f k j c m) := by
  have stored : (bus spi).storeByte (c, m) (g a + i.signExtend 32) ((g b).setWidth 8) =
      some (spi.write c r ((g b).setWidth 8), m) := by
    rw [base, storeByte_spi inside register]
  refine Leads.exec _ (code_addr instr) (congrArg (Option.map _) stored) ?_
  rw [next_located]
  exact rest

/-- A word of the memory is written. -/
theorem run_sw (a b : Reg) (instr : program[k]? = some (.sw 0 a b)) (aligned : Aligned (g a))
    (inside : InRam (g a))
    (rest : Runs spi P (located spi g f j (j + 1) c (writeWord m (g a) (g b)))) :
    Runs spi P (located spi g f k j c m) := by
  have offset : g a + (0 : BitVec 16).signExtend 32 = g a := BitVec.add_zero _
  have stored : (bus spi).storeWord (c, m) (g a + (0 : BitVec 16).signExtend 32) (g b) =
      some (c, writeWord m (g a) (g b)) := by
    rw [offset]
    exact if_pos inside
  refine Leads.exec _ (code_addr instr)
    ((if_pos (offset.symm ▸ aligned)).trans (congrArg (Option.map _) stored)) ?_
  rw [next_located]
  exact rest

end Instructions

/-! ## Waiting for an answer -/

/-- The registers are the same but for some. -/
def SameBut (changed : List Reg) (g g' : Registers) : Prop := ∀ r ∉ changed, g' r = g r

theorem SameBut.refl (changed : List Reg) (g : Registers) : SameBut changed g g := fun _ _ => rfl

theorem SameBut.set {changed : List Reg} {g g' : Registers} (same : SameBut changed g g')
    {d : Reg} (member : d ∈ changed) (x : Word) : SameBut changed g (g'.set d x) := by
  intro r other
  have apart : r ≠ d := fun equal => other (equal ▸ member)
  rw [Registers.set_of_ne g' x apart, same r other]

theorem SameBut.trans {changed changed' : List Reg} {g g' g'' : Registers}
    (same : SameBut changed g g') (same' : SameBut changed' g' g'')
    (fewer : ∀ r ∈ changed, r ∈ changed') : SameBut changed' g g'' := by
  intro r other
  rw [same' r other, same r fun member => other (fewer r member)]

/-- What the program tests of the status. -/
theorem status_bit (x : Byte) :
    x.setWidth 32 &&& 1#32 = if x.getLsbD 0 then 1#32 else 0#32 := by
  have whole : ((x.setWidth 32 &&& 1#32) : Word).toNat = x.toNat % 2 := by
    rw [BitVec.toNat_and, BitVec.toNat_setWidth]
    have below := x.isLt
    rw [Nat.mod_eq_of_lt (by omega)]
    exact Nat.and_one_is_mod _
  have bit : x.getLsbD 0 = decide (x.toNat % 2 = 1) := by
    rw [BitVec.getLsbD, Nat.testBit_zero]
  apply BitVec.eq_of_toNat_eq
  rw [whole, bit]
  by_cases odd : x.toNat % 2 = 1
  · simp [odd]
  · have even : x.toNat % 2 = 0 := by omega
    simp [even]

section Poll

variable {spi} {contents : Nat → Byte} (flash : spi.Documented contents) {g : Registers} {f : Bool}
  {c : spi.Core} {m : Memory} {sent : List Byte} {b : Byte}

/-- Before a test of the status, `n` more tests fail. -/
def Polling (g : Registers) (m : Memory) (sent : List Byte) (b : Byte) (turns : Nat)
    (s : State (spi.Core × Memory)) : Prop :=
  ∃ g' f' c', s = located spi g' f' 52 53 c' m ∧ SameBut [3] g g' ∧
    ((∃ n, turns = n + 1 ∧ g' 3 &&& 1#32 = 1#32 ∧ flash.Busy n c' sent b) ∨
      (turns = 0 ∧ g' 3 &&& 1#32 = 0#32 ∧ flash.Busy 0 c' sent b))

/-- **The status is read until the answer is there.** -/
theorem poll {n : Nat} (base : g 4 = spiBase) (busy : flash.Busy n c sent b)
    (first : g 3 &&& 1#32 = 1#32) :
    Runs spi (fun s => ∃ g' f' c', s = located spi g' f' 56 57 c' m ∧ SameBut [3] g g' ∧
      flash.Busy 0 c' sent b) (located spi g f 52 53 c m) := by
  have initially : Polling flash g m sent b (n + 1) (located spi g f 52 53 c m) :=
    ⟨g, f, c, rfl, .refl _ _, .inl ⟨n, rfl, first, busy⟩⟩
  refine Leads.loop (Polling flash g m sent b) ?_ initially
  rintro turns s ⟨g', f', c', rfl, same, ⟨n, rfl, set, busy⟩ | ⟨rfl, clear, busy⟩⟩
  · -- The bit is set: the branch is taken, and the status is read behind it.
    have base' : g' 4 = spiBase := (same 4 (by decide)).trans base
    refine run_alu (.andi 3 3 1) rfl rfl (run_sfeqi 3 1 rfl ?_)
    have flag : (g'.set 3 (g' 3 &&& (1 : BitVec 16).setWidth 32) 3 ==
        (1 : BitVec 16).signExtend 32) = true := by
      rw [Registers.set_self]
      exact beq_iff_eq.mpr set
    rw [flag]
    refine run_bf_taken (-2) rfl 52 (by decide) (run_lbz 3 4 1 rfl ?_ SPSR (by decide) rfl (.here ?_))
    · rw [Registers.set_of_ne _ _ (by decide)]
      exact base'
    · refine .inr ?_
      have same' := (same.set (d := 3) (by decide) (g' 3 &&& (1 : BitVec 16).setWidth 32)).set
        (d := 3) (by decide) ((spi.read c' SPSR).1.setWidth 32)
      cases n with
      | zero =>
          obtain ⟨bit, busy⟩ := flash.answered busy
          refine ⟨0, by decide, _, _, _, rfl, same', .inr ⟨rfl, ?_, busy⟩⟩
          rw [Registers.set_self, status_bit, bit]
          rfl
      | succ n =>
          obtain ⟨bit, busy⟩ := flash.waiting busy
          refine ⟨n + 1, by omega, _, _, _, rfl, same', .inl ⟨n, rfl, ?_, busy⟩⟩
          rw [Registers.set_self, status_bit, bit]
          rfl
  · -- The bit is clear: the status is read once more behind the branch.
    have base' : g' 4 = spiBase := (same 4 (by decide)).trans base
    refine run_alu (.andi 3 3 1) rfl rfl (run_sfeqi 3 1 rfl ?_)
    have flag : (g'.set 3 (g' 3 &&& (1 : BitVec 16).setWidth 32) 3 ==
        (1 : BitVec 16).signExtend 32) = false := by
      rw [Registers.set_self]
      have zero : g' 3 &&& (1 : BitVec 16).setWidth 32 = 0#32 := clear
      rw [zero]
      rfl
    rw [flag]
    refine run_bf (-2) rfl (run_lbz 3 4 1 rfl ?_ SPSR (by decide) rfl (.here (.inl ?_)))
    · rw [Registers.set_of_ne _ _ (by decide)]
      exact base'
    · exact ⟨_, _, _, rfl, (same.set (by decide) _).set (by decide) _, (flash.answered busy).2⟩

/-! ## Bytes -/

/-- The answers, shifted into a register. -/
def shiftIn (acc : Word) (answers : List Byte) : Word :=
  answers.foldl (fun acc x => acc <<< 8 ||| x.setWidth 32) acc

/-- A byte more is sent. -/
theorem Reads.concat {a n : Nat} (reads : Reads sent a n) (b : Byte) :
    Reads (sent ++ [b]) a (n + 1) := by
  obtain ⟨a2, a1, a0, rest, rfl, length, address⟩ := reads
  exact ⟨a2, a1, a0, rest ++ [b], List.append_assoc _ _ _, by simp [length], address⟩

/-- A byte is sent, and the answer is shifted into `r2`. -/
theorem xfer_byte (zero : g 0 = 0) (base : g 4 = spiBase) (idle : flash.Idle c sent) :
    Runs spi (fun s => ∃ g' f' c' x, s = located spi g' f' 59 60 c' m ∧ SameBut [2, 3] g g' ∧
      flash.Idle c' (sent ++ [(g 3).setWidth 8]) ∧ g' 2 = shiftIn (g 2) [x] ∧
      ∀ a n, Reads sent a n → x = contents (a + n)) (located spi g f 50 51 c m) := by
  obtain ⟨n, busy⟩ := flash.started ((g 3).setWidth 8) idle
  refine run_sb 2 4 3 rfl base SPDR (by decide) rfl (run_alu (.ori 3 0 1) rfl rfl ?_)
  have base' : g.set 3 (g 0 ||| (1 : BitVec 16).setWidth 32) 4 = spiBase := by
    rw [Registers.set_of_ne _ _ (by decide)]
    exact base
  have first : g.set 3 (g 0 ||| (1 : BitVec 16).setWidth 32) 3 &&& 1#32 = 1#32 := by
    rw [Registers.set_self, zero]
    rfl
  refine (poll flash base' busy first).trans ?_
  rintro _ ⟨g', f', c', rfl, same, busy⟩
  have same' : SameBut [3] g g' := (SameBut.refl _ _).set (by decide) _ |>.trans same fun _ => id
  refine run_lbz 3 4 2 rfl ((same' 4 (by decide)).trans base) SPDR (by decide) rfl
    (run_alu (.slli 2 2 8) rfl rfl (run_alu (.or 2 2 3) rfl rfl (.here ?_)))
  refine ⟨_, _, _, (spi.read c' SPDR).1, rfl, ?_, flash.received busy, ?_, fun a n reads => ?_⟩
  · have wider : SameBut [2, 3] g g' := same'.trans (.refl _ _) (by decide)
    exact ((wider.set (by decide) _).set (by decide) _).set (by decide) _
  · have two : g' 2 = g 2 := same' 2 (by decide)
    simp only [Registers.set_self, Registers.set_of_ne _ _ (show (2 : Reg) ≠ 3 by decide),
      Registers.set_of_ne _ _ (show (3 : Reg) ≠ 2 by decide), two, shiftIn, List.foldl_cons,
      List.foldl_nil]
    rfl
  · exact flash.contents busy reads

/-- What a transfer of some bytes leaves. -/
structure Transferred (g : Registers) (sent : List Byte) (count : Nat) (g' : Registers)
    (c' : spi.Core) (bytes answers : List Byte) : Prop where
  same : SameBut [1, 2, 3] g g'
  length : bytes.length = count
  first : bytes.head? = some ((g 3).setWidth 8)
  idle : flash.Idle c' (sent ++ bytes)
  answer : g' 2 = shiftIn (g 2) answers
  contents : ∀ a n, Reads sent a n → answers = (List.range' (a + n) count).map contents

/-- **As many bytes are sent as `r1` says.** -/
theorem xfer_loop (n : Nat) (few : n < 4) (zero : g 0 = 0) (base : g 4 = spiBase)
    (counter : g 1 = BitVec.ofNat 32 (n + 1)) (idle : flash.Idle c sent) :
    Runs spi (fun s => ∃ g' f' c' bytes answers, s = located spi g' f' 62 63 c' m ∧
      Transferred flash g sent (n + 1) g' c' bytes answers) (located spi g f 50 51 c m) := by
  induction n generalizing g f c sent with
  | zero =>
      refine (xfer_byte flash zero base idle).trans ?_
      rintro _ ⟨g', f', c', x, rfl, same, idle, answer, read⟩
      have one : g' 1 = 1#32 := (same 1 (by decide)).trans counter
      refine run_sfeqi 1 1 rfl ?_
      have flag : (g' 1 == (1 : BitVec 16).signExtend 32) = true := beq_iff_eq.mpr one
      rw [flag]
      refine run_bnf (-10) rfl (run_alu (.addi 1 1 (-1)) rfl rfl (.here ?_))
      have wider : SameBut [1, 2, 3] g g' := same.trans (.refl _ _) (by decide)
      refine ⟨_, _, _, [(g 3).setWidth 8], [x], rfl, wider.set (by decide) _, rfl, rfl, idle,
        ?_, fun a n reads => ?_⟩
      · rw [Registers.set_of_ne _ _ (by decide), answer]
      · rw [read a n reads]
        rfl
  | succ n ih =>
      refine (xfer_byte flash zero base idle).trans ?_
      rintro _ ⟨g', f', c', x, rfl, same, idle, answer, read⟩
      have more : g' 1 = BitVec.ofNat 32 (n + 2) := (same 1 (by decide)).trans counter
      refine run_sfeqi 1 1 rfl ?_
      have flag : (g' 1 == (1 : BitVec 16).signExtend 32) = false := by
        apply beq_false_of_ne
        intro one
        have values := congrArg BitVec.toNat (more.symm.trans one)
        rw [BitVec.toNat_ofNat] at values
        have one' : ((1 : BitVec 16).signExtend 32).toNat = 1 := rfl
        omega
      rw [flag]
      refine run_bnf_taken (-10) rfl 50 (by decide) (run_alu (.addi 1 1 (-1)) rfl rfl ?_)
      have less : g' 1 + (-1 : BitVec 16).signExtend 32 = BitVec.ofNat 32 (n + 1) := by
        rw [more]
        have minus : (-1 : BitVec 16).signExtend 32 = -1#32 := rfl
        rw [minus, BitVec.ofNat_add]
        bv_omega
      refine (ih (by omega) ?_ ?_ ?_ idle).trans ?_
      · rw [Registers.set_of_ne _ _ (by decide), same 0 (by decide)]
        exact zero
      · rw [Registers.set_of_ne _ _ (by decide), same 4 (by decide)]
        exact base
      · rw [Registers.set_self, less]
      · rintro _ ⟨g'', f'', c'', bytes, answers, rfl, moved⟩
        have wider : SameBut [1, 2, 3] g g' := same.trans (.refl _ _) (by decide)
        refine .here ⟨g'', f'', c'', (g 3).setWidth 8 :: bytes, x :: answers, rfl,
          (wider.set (by decide) _).trans moved.same fun _ => id, ?_, rfl, ?_, ?_, ?_⟩
        · rw [List.length_cons, moved.length]
        · have idle := moved.idle
          rwa [List.append_assoc] at idle
        · rw [moved.answer, Registers.set_of_ne _ _ (by decide), answer]
          rfl
        · intro a p reads
          have later := moved.contents a (p + 1) (reads.concat _)
          rw [← Nat.add_assoc] at later
          rw [List.range'_succ, List.map_cons, ← read a p reads, ← later]

/-- **A call of `spi_xfer`, with the instruction in its delay slot.** -/
theorem call_xfer {k : Nat} (n : BitVec 26) (instr : program[k]? = some (.jal n))
    (aim : target (addr k) n = addr 49) (i : Instr) (slot : program[k + 1]? = some i)
    {g' : Registers} (alu : i.alu (g.set 9 (addr (k + 2))) = some g') (count : Nat) (few : count < 4)
    (zero : g' 0 = 0) (base : g' 4 = spiBase) (counter : g' 5 = BitVec.ofNat 32 (count + 1))
    (back : g' 9 = addr (k + 2)) (idle : flash.Idle c sent) :
    Runs spi (fun s => ∃ g'' f' c' bytes answers, s = located spi g'' f' (k + 2) (k + 3) c' m ∧
      Transferred flash g' sent (count + 1) g'' c' bytes answers)
      (located spi g f k (k + 1) c m) := by
  have inside : k < 64 := (List.getElem?_eq_some_iff.mp instr).1
  refine run_jal n instr 49 aim (run_alu i slot alu (run_alu (.or 1 5 0) rfl rfl ?_))
  refine (xfer_loop flash count few ?_ ?_ ?_ idle).trans ?_
  · rw [Registers.set_of_ne _ _ (by decide)]
    exact zero
  · rw [Registers.set_of_ne _ _ (by decide)]
    exact base
  · rw [Registers.set_self, zero, counter]
    exact BitVec.or_zero
  · rintro _ ⟨g'', f', c', bytes, answers, rfl, moved⟩
    have same : SameBut [1, 2, 3] g' g'' :=
      ((SameBut.refl _ g').set (by decide) _).trans moved.same fun _ => id
    have back' : g'' 9 = addr (k + 2) := (same 9 (by decide)).trans back
    have aligned : Aligned (g'' 9) := by
      rw [back', Aligned, toNat_addr (by omega)]
      omega
    refine run_jr 9 rfl aligned ?_
    rw [back']
    refine run_alu (.nop 0) rfl rfl (.here ⟨g'', f', c', bytes, answers, rfl, same, moved.length,
      ?_, moved.idle, ?_, moved.contents⟩)
    · rw [moved.first, Registers.set_of_ne _ _ (by decide)]
    · rw [moved.answer, Registers.set_of_ne _ _ (by decide)]

end Poll

end OrpsocCores.BootLoader
