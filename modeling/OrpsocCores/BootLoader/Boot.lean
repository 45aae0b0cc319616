import OrpsocCores.BootLoader.Transfer

/-!
# The boot loader loads the image

From the reset vector the program selects the flash, asks to read from the size in the
header of the image, takes the size, the load address and the entry point out of the
header, skips the rest of it, copies the image word by word, and jumps to the entry point
with the flash released (`boots`).  That holds whatever the registers and the memory held
before and however long the flash takes for a byte.  The SPI core is as its reset has left
it: the program does not empty what the core may have received before.
-/

set_option autoImplicit false

namespace OrpsocCores.BootLoader

open Or1k

variable {spi : Spi} {contents : Nat → Byte} (flash : spi.Documented contents) {g : Registers}
  {f : Bool} {c : spi.Core} {m : Memory} {sent : List Byte}

/-! ## Initialization -/

/-- What every call of `spi_xfer` relies on. -/
structure Ready (g : Registers) (count : Nat) : Prop where
  zero : g 0 = 0
  base : g 4 = spiBase
  counter : g 5 = BitVec.ofNat 32 count

theorem Ready.sameBut {g g' : Registers} {count : Nat} {changed : List Reg} (ready : Ready g count)
    (same : SameBut changed g g') (zero : 0 ∉ changed) (base : 4 ∉ changed) (counter : 5 ∉ changed) :
    Ready g' count :=
  ⟨(same 0 zero).trans ready.zero, (same 4 base).trans ready.base,
    (same 5 counter).trans ready.counter⟩

/-- The delay of the start. -/
theorem wait (zero : g 0 = 0) :
    Runs spi (fun s => ∃ g' f', s = located spi g' f' 8 9 c m ∧ g' 0 = 0)
      (located spi g f 5 6 c m) := by
  refine Leads.loop (fun turns s => ∃ g' f', s = located spi g' f' 5 6 c m ∧ g' 0 = 0 ∧
    (g' 1).toNat = turns) ?_ ⟨g, f, rfl, zero, rfl⟩
  rintro turns s ⟨g', f', rfl, zero, counter⟩
  refine run_sfeqi 1 0 rfl ?_
  have zero' : g'.set 1 (g' 1 + (-1 : BitVec 16).signExtend 32) 0 = 0 := by
    rw [Registers.set_of_ne _ _ (by decide)]
    exact zero
  cases flag : (g' 1 == (0 : BitVec 16).signExtend 32) with
  | true => exact run_bnf (-1) rfl (run_alu (.addi 1 1 (-1)) rfl rfl (.here (.inl ⟨_, _, rfl, zero'⟩)))
  | false =>
      refine run_bnf_taken (-1) rfl 5 (by decide) (run_alu (.addi 1 1 (-1)) rfl rfl (.here (.inr ?_)))
      have positive : g' 1 ≠ 0#32 := fun equal => by
        rw [equal] at flag
        exact absurd flag (by decide)
      have minus : (-1 : BitVec 16).signExtend 32 = -1#32 := rfl
      have less : (g' 1 + (-1 : BitVec 16).signExtend 32).toNat < turns := by
        rw [minus]
        bv_omega
      exact ⟨_, less, _, _, rfl, zero', by rw [Registers.set_self]⟩

/-- The flash is selected. -/
theorem init (atReset : flash.AtReset c) :
    Runs spi (fun s => ∃ g' f' c', s = located spi g' f' 15 16 c' m ∧ Ready g' 1 ∧
      flash.Idle c' []) (located spi g f 0 1 c m) := by
  refine run_alu (.movhi 0 0) rfl rfl (run_alu (.movhi 2 0) rfl rfl (run_alu (.movhi 5 0) rfl rfl
    (run_alu (.movhi 1 0) rfl rfl (run_alu (.ori 1 1 1250) rfl rfl ((wait ?_).trans ?_)))))
  · simp only [Registers.set_of_ne _ _ (show (0 : Reg) ≠ 1 by decide),
      Registers.set_of_ne _ _ (show (0 : Reg) ≠ 5 by decide),
      Registers.set_of_ne _ _ (show (0 : Reg) ≠ 2 by decide), Registers.set_self]
    rfl
  · rintro _ ⟨g', f', rfl, zero⟩
    have none : g' 0#5 = 0 := zero
    refine run_alu (.movhi 4 0xb000) rfl rfl (run_alu (.ori 2 0 0x51) rfl rfl ?_)
    refine run_sb 0 4 2 rfl rfl SPCR (by decide) rfl (run_sb 4 4 0 rfl rfl SPSS (by decide) rfl
      (run_alu (.ori 6 0 1) rfl rfl (run_sb 4 4 6 rfl rfl SPSS (by decide) rfl
        (run_alu (.ori 5 0 1) rfl rfl (.here ⟨_, _, _, rfl, ⟨?_, rfl, ?_⟩, ?_⟩)))))
    · simpa [Registers.set] using zero
    · simp [Registers.set, none]
    · have selected := flash.selected atReset
      simpa [Registers.set, none] using selected

/-! ## The command -/

/-- A byte of the command is sent. -/
theorem send_byte {k : Nat} (n : BitVec 26) (instr : program[k]? = some (.jal n))
    (aim : target (addr k) n = addr 49) (x : BitVec 16)
    (slot : program[k + 1]? = some (.ori 3 0 x)) (ready : Ready g 1) (idle : flash.Idle c sent) :
    Runs spi (fun s => ∃ g' f' c', s = located spi g' f' (k + 2) (k + 3) c' m ∧ Ready g' 1 ∧
      flash.Idle c' (sent ++ [x.setWidth 8])) (located spi g f k (k + 1) c m) := by
  have called : SameBut [3, 9] g ((g.set 9 (addr (k + 2))).set 3
      (g.set 9 (addr (k + 2)) 0 ||| x.setWidth 32)) :=
    ((SameBut.refl _ g).set (by decide) _).set (by decide) _
  have ready' := ready.sameBut called (by decide) (by decide) (by decide)
  refine (call_xfer flash n instr aim _ slot rfl 0 (by decide) ready'.zero ready'.base
    ready'.counter ?_ idle).trans ?_
  · rw [Registers.set_of_ne _ _ (by decide), Registers.set_self]
  · rintro _ ⟨g', f', c', bytes, answers, rfl, moved⟩
    have byte : bytes = [x.setWidth 8] := by
      have first := moved.first
      obtain ⟨b, rfl⟩ := List.length_eq_one_iff.mp moved.length
      rw [Registers.set_self, Registers.set_of_ne _ _ (by decide), ready.zero] at first
      rw [Option.some.inj first]
      simp
    exact .here ⟨g', f', c', rfl, ready'.sameBut moved.same (by decide) (by decide) (by decide),
      byte ▸ moved.idle⟩

/-- Where the header has the size of the image: `HEADER_ADDR`. -/
def headerAddr : Nat := 0x8000c

/-- The flash is asked to read from the size on. -/
theorem command (ready : Ready g 1) (idle : flash.Idle c []) :
    Runs spi (fun s => ∃ g' f' c' sent', s = located spi g' f' 24 25 c' m ∧ Ready g' 4 ∧
      flash.Idle c' sent' ∧ Reads sent' headerAddr 0) (located spi g f 15 16 c m) := by
  refine (send_byte flash 34 rfl (by decide) 0x3 rfl ready idle).trans ?_
  rintro _ ⟨g, f, c, rfl, ready, idle⟩
  refine (send_byte flash 32 rfl (by decide) 0x8 rfl ready idle).trans ?_
  rintro _ ⟨g, f, c, rfl, ready, idle⟩
  refine (send_byte flash 30 rfl (by decide) 0x0 rfl ready idle).trans ?_
  rintro _ ⟨g, f, c, rfl, ready, idle⟩
  refine (send_byte flash 28 rfl (by decide) 0xc rfl ready idle).trans ?_
  rintro _ ⟨g, f, c, rfl, ready, idle⟩
  refine run_alu (.ori 5 0 4) rfl rfl (.here ⟨_, _, _, _, rfl, ⟨?_, ?_, ?_⟩, idle, ?_⟩)
  · rw [Registers.set_of_ne _ _ (by decide)]
    exact ready.zero
  · rw [Registers.set_of_ne _ _ (by decide)]
    exact ready.base
  · rw [Registers.set_self, ready.zero]
    rfl
  · exact ⟨0x08, 0x00, 0x0c, [], rfl, rfl, rfl⟩

/-! ## Words -/

/-- The word at an address of the flash. -/
def flashWord (contents : Nat → Byte) (a : Nat) : Word :=
  contents a ++ contents (a + 1) ++ contents (a + 2) ++ contents (a + 3)

/-- Four answers fill the register. -/
theorem shiftIn_four (acc : Word) (w x y z : Byte) : shiftIn acc [w, x, y, z] = w ++ x ++ y ++ z := by
  apply BitVec.eq_of_getLsbD_eq
  intro i inside
  have high (b : Byte) (j : Nat) (beyond : 8 ≤ j) : b.getLsbD j = false :=
    BitVec.getLsbD_of_ge b j beyond
  simp only [shiftIn, List.foldl_cons, List.foldl_nil, BitVec.getLsbD_or, BitVec.getLsbD_append,
    BitVec.getLsbD_shiftLeft, BitVec.getLsbD_setWidth]
  -- One case for each byte of the register.
  obtain low | ⟨_, low⟩ | ⟨_, low⟩ | _ :
      i < 8 ∨ (8 ≤ i ∧ i < 16) ∨ (16 ≤ i ∧ i < 24) ∨ 24 ≤ i := by omega
  · simp [low, inside]
  · simp [inside, show ¬ i < 8 by omega, show i - 8 < 8 by omega, show i - 8 < 32 by omega,
      high z i (by omega)]
  · simp [inside, show ¬ i < 8 by omega, show ¬ i - 8 < 8 by omega, show i - 8 - 8 < 8 by omega,
      show i - 8 < 32 by omega, show i - 8 - 8 < 32 by omega, high z i (by omega),
      high y (i - 8) (by omega)]
  · simp [inside, show ¬ i < 8 by omega, show ¬ i - 8 < 8 by omega,
      show ¬ i - 8 - 8 < 8 by omega, show i - 8 - 8 - 8 < 8 by omega, show i - 8 < 32 by omega,
      show i - 8 - 8 < 32 by omega, show i - 8 - 8 - 8 < 32 by omega, high z i (by omega),
      high y (i - 8) (by omega), high x (i - 8 - 8) (by omega)]

/-- More bytes are sent. -/
theorem Reads.append {a n : Nat} (reads : Reads sent a n) (bytes : List Byte) :
    Reads (sent ++ bytes) a (n + bytes.length) := by
  obtain ⟨a2, a1, a0, rest, rfl, length, address⟩ := reads
  exact ⟨a2, a1, a0, rest ++ bytes, List.append_assoc _ _ _, by simp [length], address⟩

/-- **A word is read from the flash.** -/
theorem read_word {k : Nat} (n : BitVec 26) (instr : program[k]? = some (.jal n))
    (aim : target (addr k) n = addr 49) (i : Instr) (slot : program[k + 1]? = some i)
    {g' : Registers} (alu : i.alu (g.set 9 (addr (k + 2))) = some g')
    (same : SameBut [7, 9] g g') (back : g' 9 = addr (k + 2)) (ready : Ready g 4)
    (idle : flash.Idle c sent) {a p : Nat} (reads : Reads sent a p) :
    Runs spi (fun s => ∃ g'' f' c' sent', s = located spi g'' f' (k + 2) (k + 3) c' m ∧
      SameBut [1, 2, 3] g' g'' ∧ Ready g'' 4 ∧ flash.Idle c' sent' ∧ Reads sent' a (p + 4) ∧
      g'' 2 = flashWord contents (a + p)) (located spi g f k (k + 1) c m) := by
  have ready' := ready.sameBut same (by decide) (by decide) (by decide)
  refine (call_xfer flash n instr aim i slot alu 3 (by decide) ready'.zero ready'.base
    ready'.counter back idle).trans ?_
  rintro _ ⟨g'', f', c', bytes, answers, rfl, moved⟩
  refine .here ⟨g'', f', c', _, rfl, moved.same,
    ready'.sameBut moved.same (by decide) (by decide) (by decide), moved.idle, ?_, ?_⟩
  · have reads' := reads.append bytes
    rwa [moved.length] at reads'
  · rw [moved.answer, moved.contents a p reads]
    exact shiftIn_four _ _ _ _ _

/-! ## The header -/

/-- The registers that hold what the header says. -/
structure Header (contents : Nat → Byte) (g : Registers) : Prop where
  size : g 11 = flashWord contents headerAddr
  load : g 12 = flashWord contents (headerAddr + 4)
  entry : g 13 = flashWord contents (headerAddr + 8)

theorem Header.sameBut {g g' : Registers} {changed : List Reg} (header : Header contents g)
    (same : SameBut changed g g') (size : 11 ∉ changed) (load : 12 ∉ changed)
    (entry : 13 ∉ changed) : Header contents g' :=
  ⟨(same 11 size).trans header.size, (same 12 load).trans header.load,
    (same 13 entry).trans header.entry⟩

theorem sameBut_called (g : Registers) (k : Nat) : SameBut [7, 9] g (g.set 9 (addr k)) :=
  (SameBut.refl _ g).set (by decide) _

/-- A word that was read goes to a register. -/
theorem or_zero {g : Registers} (zero : g 0 = 0) : g 2 ||| g 0 = g 2 := by
  rw [zero]
  exact BitVec.or_zero

/-- The size, the load address and the entry point are read. -/
theorem header (ready : Ready g 4) (idle : flash.Idle c sent) (reads : Reads sent headerAddr 0) :
    Runs spi (fun s => ∃ g' f' c' sent', s = located spi g' f' 34 35 c' m ∧ Ready g' 4 ∧
      Header contents g' ∧ g' 6 = BitVec.ofNat 32 9 ∧ flash.Idle c' sent' ∧
      Reads sent' headerAddr 12) (located spi g f 24 25 c m) := by
  refine (read_word flash 25 rfl (by decide) (.nop 0) rfl rfl (sameBut_called g _)
    (Registers.set_self _ _ _) ready idle reads).trans ?_
  rintro _ ⟨g, f, c, sent, rfl, _, ready, idle, reads, size⟩
  have ready₁ := ready.sameBut ((SameBut.refl [11] g).set (d := 11) (by decide) (g 2 ||| g 0))
    (by decide) (by decide) (by decide)
  refine run_alu (.or 11 2 0) rfl rfl ((read_word flash 22 rfl (by decide) (.nop 0) rfl rfl
    (sameBut_called _ _) (Registers.set_self _ _ _) ready₁ idle reads).trans ?_)
  rintro _ ⟨g₂, f, c, sent, rfl, same₂, ready₂, idle, reads, load⟩
  have size₂ : g₂ 11 = flashWord contents headerAddr := by
    rw [same₂ 11 (by decide), Registers.set_of_ne _ _ (by decide), Registers.set_self,
      or_zero ready.zero, size]
    rfl
  have ready₃ := ready₂.sameBut ((SameBut.refl [12] g₂).set (d := 12) (by decide) (g₂ 2 ||| g₂ 0))
    (by decide) (by decide) (by decide)
  refine run_alu (.or 12 2 0) rfl rfl ((read_word flash 19 rfl (by decide) (.nop 0) rfl rfl
    (sameBut_called _ _) (Registers.set_self _ _ _) ready₃ idle reads).trans ?_)
  rintro _ ⟨g₄, f, c, sent, rfl, same₄, ready₄, idle, reads, entry⟩
  have same₅ : SameBut [6, 13] g₄ ((g₄.set 13 (g₄ 2 ||| g₄ 0)).set 6
      ((g₄.set 13 (g₄ 2 ||| g₄ 0)) 0 ||| (9 : BitVec 16).setWidth 32)) :=
    ((SameBut.refl _ g₄).set (by decide) _).set (by decide) _
  refine run_alu (.or 13 2 0) rfl rfl (run_alu (.ori 6 0 9) rfl rfl (.here ⟨_, _, _, _, rfl,
    ready₄.sameBut same₅ (by decide) (by decide) (by decide), ⟨?_, ?_, ?_⟩, ?_, idle, reads⟩))
  · rw [same₅ 11 (by decide), same₄ 11 (by decide), Registers.set_of_ne _ _ (by decide),
      Registers.set_of_ne _ _ (by decide), size₂]
  · rw [same₅ 12 (by decide), same₄ 12 (by decide), Registers.set_of_ne _ _ (by decide),
      Registers.set_self, or_zero ready₂.zero, load]
  · rw [Registers.set_of_ne _ _ (by decide), Registers.set_self, or_zero ready₄.zero, entry]
  · rw [Registers.set_self, Registers.set_of_ne _ _ (by decide), ready₄.zero]
    rfl

/-- The rest of the header is skipped. -/
theorem skip (ready : Ready g 4) (header : Header contents g) (counter : g 6 = BitVec.ofNat 32 9)
    (idle : flash.Idle c sent) (reads : Reads sent headerAddr 12) :
    Runs spi (fun s => ∃ g' f' c' sent', s = located spi g' f' 40 41 c' m ∧ Ready g' 4 ∧
      Header contents g' ∧ g' 6 = 0 ∧ flash.Idle c' sent' ∧ Reads sent' headerAddr 52)
      (located spi g f 34 35 c m) := by
  refine Leads.loop (fun turns s => ∃ g' f' c' sent', s = located spi g' f' 34 35 c' m ∧
    Ready g' 4 ∧ Header contents g' ∧ turns ≤ 9 ∧ g' 6 = BitVec.ofNat 32 turns ∧
    flash.Idle c' sent' ∧ Reads sent' headerAddr (48 - 4 * turns)) ?_
    ⟨g, f, c, sent, rfl, ready, header, Nat.le_refl 9, counter, idle, by exact reads⟩
  rintro turns _ ⟨g, f, c, sent, rfl, ready, header, few, counter, idle, reads⟩
  refine (read_word flash 15 rfl (by decide) (.nop 0) rfl rfl (sameBut_called g _)
    (Registers.set_self _ _ _) ready idle reads).trans ?_
  rintro _ ⟨g', f', c', sent', rfl, same, ready', idle', reads', _⟩
  have header' : Header contents g' := (header.sameBut (sameBut_called g _) (by decide)
    (by decide) (by decide)).sameBut same (by decide) (by decide) (by decide)
  have counter' : g' 6 = BitVec.ofNat 32 turns := by
    rw [same 6 (by decide), Registers.set_of_ne _ _ (by decide), counter]
  have kept (x : Word) : SameBut [6] g' (g'.set 6 x) := (SameBut.refl _ g').set (by decide) x
  refine run_sfeqi 6 0 rfl ?_
  cases turns with
  | zero =>
      have flag : (g' 6 == (0 : BitVec 16).signExtend 32) = true := beq_iff_eq.mpr counter'
      rw [flag]
      refine run_bnf (-3) rfl (run_alu (.addi 6 6 (-1)) rfl rfl (run_alu (.movhi 6 0) rfl rfl
        (.here (.inl ⟨_, _, _, _, rfl, ?_, ?_, ?_, idle', reads'⟩))))
      · exact (ready'.sameBut (kept _) (by decide) (by decide) (by decide)).sameBut
          ((SameBut.refl [6] _).set (by decide) _) (by decide) (by decide) (by decide)
      · exact (header'.sameBut (kept _) (by decide) (by decide) (by decide)).sameBut
          ((SameBut.refl [6] _).set (by decide) _) (by decide) (by decide) (by decide)
      · exact Registers.set_self _ _ _
  | succ turns =>
      have flag : (g' 6 == (0 : BitVec 16).signExtend 32) = false := by
        apply beq_false_of_ne
        intro none
        have values := congrArg BitVec.toNat (counter'.symm.trans none)
        rw [BitVec.toNat_ofNat] at values
        have zero : ((0 : BitVec 16).signExtend 32).toNat = 0 := rfl
        omega
      rw [flag]
      refine run_bnf_taken (-3) rfl 34 (by decide) (run_alu (.addi 6 6 (-1)) rfl rfl
        (.here (.inr ⟨turns, Nat.lt_succ_self turns, _, _, _, _, rfl, ?_, ?_, by omega, ?_, idle',
          ?_⟩)))
      · exact ready'.sameBut (kept _) (by decide) (by decide) (by decide)
      · exact header'.sameBut (kept _) (by decide) (by decide) (by decide)
      · have minus : (-1 : BitVec 16).signExtend 32 = -1#32 := rfl
        rw [Registers.set_self, counter', minus, BitVec.ofNat_add]
        bv_omega
      · have length : 48 - 4 * (turns + 1) + 4 = 48 - 4 * turns := by omega
        rwa [length] at reads'

/-! ## The image -/

/-- The memory with the first bytes of the flash from `source` on stored from `load` on. -/
def loaded (contents : Nat → Byte) (source : Nat) (load : Word) (bytes : Nat) (m : Memory) :
    Memory := fun x => if (x - load).toNat < bytes then contents (source + (x - load).toNat) else m x

theorem extract_flashWord (a : Nat) {i : Nat} (inside : i < 4) :
    (flashWord contents a).extractLsb' (8 * (3 - i)) 8 = contents (a + i) := by
  have lanes := lane_append (fun b : Fin 4 => contents (a + (3 - b.val))) ⟨3 - i, by omega⟩
  have place : 3 - (3 - i) = i := by omega
  rw [lane] at lanes
  simp only [place] at lanes
  exact lanes

/-- A word more is stored. -/
theorem writeWord_loaded (source : Nat) (load : Word) (n : Nat) (m : Memory)
    (room : load.toNat + 4 * (n + 1) < 2 ^ 32) :
    writeWord (loaded contents source load (4 * n) m) (load + BitVec.ofNat 32 (4 * n))
      (flashWord contents (source + 4 * n)) = loaded contents source load (4 * (n + 1)) m := by
  funext x
  rw [writeWord, loaded, loaded]
  by_cases before : (x - load).toNat < 4 * n
  · have apart : ¬ (x - (load + BitVec.ofNat 32 (4 * n))).toNat < 4 := by bv_omega
    rw [if_neg apart, if_pos before, if_pos (by omega)]
  · by_cases here : (x - load).toNat < 4 * (n + 1)
    · have inside : (x - (load + BitVec.ofNat 32 (4 * n))).toNat < 4 := by bv_omega
      have place : source + 4 * n + (x - (load + BitVec.ofNat 32 (4 * n))).toNat =
          source + (x - load).toNat := by bv_omega
      rw [if_pos inside, if_pos here, extract_flashWord _ inside, place]
    · have apart : ¬ (x - (load + BitVec.ofNat 32 (4 * n))).toNat < 4 := by bv_omega
      rw [if_neg apart, if_neg before, if_neg here]

/-- How many words the program copies for an image of this size. -/
def words (size : Word) : Nat := max 1 ((size.toNat + 3) / 4)

/-- Where the image is in the flash, behind its header. -/
def imageAddr : Nat := 0x80040

/-- Before a turn of the copying loop, with `left` words to come. -/
def Copying (size load : Word) (m : Memory) (left : Nat) (s : State (spi.Core × Memory)) : Prop :=
  ∃ g f c sent n, left + n = words size ∧ 0 < left ∧
    s = located spi g f 40 41 c (loaded contents imageAddr load (4 * n) m) ∧ Ready g 4 ∧
    Header contents g ∧ g 6 = BitVec.ofNat 32 (4 * n) ∧ flash.Idle c sent ∧
    Reads sent headerAddr (52 + 4 * n)

/-- **The image is copied.** -/
theorem copied (size load : Word) (isSize : size = flashWord contents headerAddr)
    (isLoad : load = flashWord contents (headerAddr + 4)) (aligned : Aligned load)
    (fits : load.toNat + 4 * words size ≤ 0x2000000) (ready : Ready g 4)
    (header : Header contents g) (counter : g 6 = 0) (idle : flash.Idle c sent)
    (reads : Reads sent headerAddr 52) :
    Runs spi (fun s => ∃ g' f' c' sent',
      s = located spi g' f' 47 48 c' (loaded contents imageAddr load (4 * words size) m) ∧
      Ready g' 4 ∧ Header contents g' ∧ flash.Idle c' sent') (located spi g f 40 41 c m) := by
  have one : 1 ≤ words size := Nat.le_max_left _ _
  have empty : loaded contents imageAddr load 0 m = m := by
    funext x
    exact if_neg (Nat.not_lt_zero _)
  refine Leads.loop (Copying flash size load m) ?_ (n := words size)
    ⟨g, f, c, sent, 0, rfl, by omega, by rw [Nat.mul_zero, empty], ready, header, counter, idle, reads⟩
  rintro left _ ⟨g, f, c, sent, n, all, more, rfl, ready, header, counter, idle, reads⟩
  have more' : words size = n + left := by omega
  have called : SameBut [7, 9] g ((g.set 9 (addr 42)).set 7
      (g.set 9 (addr 42) 12 + g.set 9 (addr 42) 6)) :=
    ((SameBut.refl _ g).set (by decide) _).set (by decide) _
  refine (read_word flash 9 rfl (by decide) (.add 7 12 6) rfl rfl called
    (by rw [Registers.set_of_ne _ _ (by decide), Registers.set_self]) ready idle reads).trans ?_
  rintro _ ⟨g', f', c', sent', rfl, same, ready', idle', reads', word⟩
  have header' : Header contents g' := (header.sameBut called (by decide) (by decide)
    (by decide)).sameBut same (by decide) (by decide) (by decide)
  have place : g' 7 = load + BitVec.ofNat 32 (4 * n) := by
    rw [same 7 (by decide), Registers.set_self, Registers.set_of_ne _ _ (by decide),
      Registers.set_of_ne _ _ (by decide), header.load, counter, isLoad]
  have source : headerAddr + (52 + 4 * n) = imageAddr + 4 * n := by
    rw [headerAddr, imageAddr]
    omega
  have index : (g' 7).toNat = load.toNat + 4 * n := by
    rw [place, BitVec.toNat_add, BitVec.toNat_ofNat]
    omega
  have aligned' : Aligned (g' 7) := by
    rw [Aligned] at aligned ⊢
    omega
  have inside : InRam (g' 7) := by
    rw [InRam]
    omega
  refine run_sw 7 2 rfl aligned' inside ?_
  rw [word, source, place, writeWord_loaded imageAddr load n m (by omega)]
  have counter' : g' 6 = BitVec.ofNat 32 (4 * n) := by
    rw [same 6 (by decide), Registers.set_of_ne _ _ (by decide), Registers.set_of_ne _ _ (by decide),
      counter]
  have next : g' 6 + (4 : BitVec 16).signExtend 32 = BitVec.ofNat 32 (4 * (n + 1)) := by
    rw [counter', Nat.mul_add, BitVec.ofNat_add]
    rfl
  have kept : SameBut [6] g' (g'.set 6 (g' 6 + (4 : BitVec 16).signExtend 32)) :=
    (SameBut.refl _ g').set (by decide) _
  have ready'' := ready'.sameBut kept (by decide) (by decide) (by decide)
  have header'' := header'.sameBut kept (by decide) (by decide) (by decide)
  refine run_alu (.addi 6 6 4) rfl rfl (run_sfgeu 6 11 rfl ?_)
  have compared : (g'.set 6 (g' 6 + (4 : BitVec 16).signExtend 32) 11 ≤
      g'.set 6 (g' 6 + (4 : BitVec 16).signExtend 32) 6) ↔ size.toNat ≤ 4 * (n + 1) := by
    rw [header''.size, Registers.set_self, next, ← isSize, BitVec.le_def, BitVec.toNat_ofNat,
      Nat.mod_eq_of_lt (by omega)]
  by_cases last : size.toNat ≤ 4 * (n + 1)
  · rw [decide_eq_true (compared.mpr last)]
    have all' : words size = n + 1 := by
      rw [words] at more' ⊢
      omega
    refine run_bnf (-5) rfl (run_alu (.nop 0) rfl rfl (.here (.inl
      ⟨_, _, _, _, by rw [all'], ready'', header'', idle'⟩)))
  · rw [decide_eq_false fun holds => last (compared.mp holds)]
    have left' : n + 1 < words size := by
      rw [words]
      omega
    refine run_bnf_taken (-5) rfl 40 (by decide) (run_alu (.nop 0) rfl rfl (.here (.inr
      ⟨left - 1, by omega, _, _, _, _, n + 1, by omega, by omega, rfl, ready'', header'', ?_, idle',
        ?_⟩)))
    · rw [Registers.set_self, next]
    · rw [Nat.mul_add, ← Nat.add_assoc]
      exact reads'

/-! ## The whole program -/

/-- **The image is loaded and started.** -/
theorem boots (size load entry : Word) (isSize : size = flashWord contents headerAddr)
    (isLoad : load = flashWord contents (headerAddr + 4))
    (isEntry : entry = flashWord contents (headerAddr + 8)) (alignedLoad : Aligned load)
    (alignedEntry : Aligned entry) (fits : load.toNat + 4 * words size ≤ 0x2000000)
    (atReset : flash.AtReset c) :
    Leads (State.step (bus spi) · code)
      (fun s => s.pc = entry ∧ s.npc = entry + 4 ∧
        s.bus.2 = loaded contents imageAddr load (4 * words size) m ∧ flash.Released s.bus.1)
      ⟨g, f, romBase, romBase + 4, (c, m)⟩ := by
  refine (init flash atReset).trans ?_
  rintro _ ⟨g, f, c, rfl, ready, idle⟩
  refine (command flash ready idle).trans ?_
  rintro _ ⟨g, f, c, sent, rfl, ready, idle, reads⟩
  refine (BootLoader.header flash ready idle reads).trans ?_
  rintro _ ⟨g, f, c, sent, rfl, ready, header, counter, idle, reads⟩
  refine (skip flash ready header counter idle reads).trans ?_
  rintro _ ⟨g, f, c, sent, rfl, ready, header, counter, idle, reads⟩
  refine (copied flash size load isSize isLoad alignedLoad fits ready header counter idle
    reads).trans ?_
  rintro _ ⟨g, f, c, sent, rfl, ready, header, idle⟩
  have start : g 13 = entry := header.entry.trans isEntry.symm
  refine run_jr 13 rfl (start ▸ alignedEntry) ?_
  -- The flash is released in the delay slot of the jump.
  have stored : (bus spi).storeByte (c, loaded contents imageAddr load (4 * words size) m)
      (g 4 + (4 : BitVec 16).signExtend 32) ((g 0).setWidth 8) =
        some (spi.write c SPSS 0, loaded contents imageAddr load (4 * words size) m) := by
    rw [ready.base, ready.zero, storeByte_spi (r := SPSS) (by decide) rfl]
    rfl
  refine Leads.exec (.sb 4 4 0) (code_addr (k := 48) rfl) (congrArg (Option.map _) stored)
    (.here ⟨start, ?_, rfl, flash.released idle⟩)
  exact congrArg (· + 4) start

/-- A core that sends one byte at a time, each within three looks at the status. -/
structure PlainCore where
  selected : Bool
  sent : List Byte
  asked : Option Byte
  waits : Nat

/-- The answer of the flash to the next byte. -/
def answer (contents : Nat → Byte) : List Byte → Byte
  | op :: a2 :: a1 :: a0 :: rest =>
      if op = 0x03 then contents ((a2 ++ a1 ++ a0).toNat + rest.length) else 0
  | _ => 0

def plainSpi (contents : Nat → Byte) : Spi where
  Core := PlainCore
  read := fun c r =>
    if r = SPSR then
      (if 0 < c.waits then 0x01 else 0x00, { c with waits := c.waits - 1 })
    else if r = SPDR then
      (answer contents c.sent, { c with sent := c.sent ++ c.asked.toList, asked := none })
    else (0, c)
  write := fun c r x =>
    if r = SPDR then { c with asked := some x, waits := 2 }
    else if r = SPSS then ⟨x.getLsbD 0, [], none, 0⟩
    else c

def plainFlash (contents : Nat → Byte) : (plainSpi contents).Documented contents where
  AtReset := fun c => c.selected = false ∧ c.asked = none
  Idle := fun c sent => c.selected = true ∧ c.sent = sent ∧ c.asked = none
  Busy := fun n c sent b => c.selected = true ∧ c.sent = sent ∧ c.asked = some b ∧ c.waits = n
  Released := fun c => c.selected = false
  selected := fun _ => ⟨rfl, rfl, rfl⟩
  started := fun _ idle => ⟨2, idle.1, idle.2.1, rfl, rfl⟩
  waiting := by
    rintro n ⟨selected, sent, asked, waits⟩ _ b ⟨rfl, rfl, rfl, rfl⟩
    simp [plainSpi]
  answered := by
    rintro ⟨selected, sent, asked, waits⟩ _ b ⟨rfl, rfl, rfl, rfl⟩
    simp [plainSpi]
  received := by
    rintro ⟨selected, sent, asked, waits⟩ _ b ⟨rfl, rfl, rfl, rfl⟩
    exact ⟨rfl, rfl, rfl⟩
  contents := by
    rintro ⟨selected, sent, asked, waits⟩ _ b a n ⟨rfl, rfl, rfl, rfl⟩ ⟨a2, a1, a0, rest, rfl, rfl, rfl⟩
    simp [plainSpi, SPSR, SPDR, answer]
  released := fun _ => rfl

/-- An image of eight bytes, for the address 0 and started at 0x100. -/
def smallImage (a : Nat) : Byte :=
  if a = 0x8000f then 8 else if a = 0x80016 then 1 else if a < imageAddr then 0 else 0x15

theorem boots_smallImage :
    Leads (State.step (bus (plainSpi smallImage)) · code)
      (fun s => s.pc = 0x100 ∧ s.npc = 0x100 + 4 ∧
        s.bus.2 = loaded smallImage imageAddr 0 (4 * words 8) (fun _ => 0xff) ∧
        s.bus.1.selected = false)
      ⟨fun _ => 7, true, romBase, romBase + 4, (⟨false, [1], none, 0⟩, fun _ => 0xff)⟩ :=
  boots (plainFlash smallImage) 8 0 0x100 (by decide) (by decide) (by decide) (by decide) (by decide)
    (by decide) ⟨rfl, rfl⟩

end OrpsocCores.BootLoader
