import Mathlib.Data.Fin.VecNotation
import OrpsocCores.ElfLoader.Image
import OrpsocCores.Foundation.ByteStore

/-!
# Preloading the simulated memory

`verilator_tb_utils.cpp` copies an image into the memory of the simulation, from an ELF
file (`loadElf`) or from a binary one (`loadBin`).  Both loops go through the image by
words and read each of them with `read_32` of the ELF loader, whatever the size of the
image: the last word of a size that is no multiple of four reaches behind the buffer.
And `read_32` takes its byte order from a variable that only loading an ELF file sets, so
that a binary file is read in the order of the last ELF file.

`preloads_iff` says when each of the two does what it is for.  The simulated memory is
taken to be large enough; its words are numbered as in the source.
-/

set_option autoImplicit false

namespace OrpsocCores.ElfLoader

open FixedBuffer GrownBlock

/-! ## The two functions -/

/-- The byte order that the loader keeps, and the memory. -/
structure Sim where
  bigEndian : Bool
  mem : Nat → BitVec 32

/-- The body of the loops of `loadElf` and `loadBin`, at `i = 4 * k`. -/
def loadWord (bigEndian : Bool) (binData : List (BitVec 8)) (mem : Nat → BitVec 32) (k : Nat) :
    Except Fault (Nat → BitVec 32) := do
  let w ← read32 bigEndian binData (4 * k)
  .ok (Function.update mem k w)

/-- The loop, for `i` from zero below `size` in steps of four. -/
def loadWords (bigEndian : Bool) (binData : List (BitVec 8)) (size : Int)
    (mem : Nat → BitVec 32) : Except Fault (Nat → BitVec 32) :=
  (List.range ((size.toNat + 3) / 4)).foldlM (loadWord bigEndian binData) mem

/-- `loadElf`; `size` is what the variable of that name holds before. -/
def loadElf (heap heap' : Heap (BitVec 8)) (size : Int) (s : Sim) (file : Option Elf) :
    Except Fault (Bool × Sim) := do
  let loaded ← loadElfFile heap heap' s.bigEndian size file
  match loaded.buf with
  | none => .ok (false, { s with bigEndian := loaded.bigEndian })
  | some binData =>
      let mem ← loadWords loaded.bigEndian binData loaded.size s.mem
      .ok (true, ⟨loaded.bigEndian, mem⟩)

/-- A binary file, of a size that an `int` holds, and whether `fread` gives all of it. -/
structure BinFile where
  bytes : List (BitVec 8)
  fits : bytes.length < 2 ^ 31
  readable : Bool

/-- `loadBin`; a file that cannot be opened is `none`. -/
def loadBin (s : Sim) (file : Option BinFile) : Except Fault (Bool × Sim) :=
  match file with
  | none => .ok (false, s)
  | some file =>
      if file.readable then do
        let mem ← loadWords s.bigEndian file.bytes file.bytes.length s.mem
        .ok (true, { s with mem := mem })
      else .ok (false, s)

/-! ## What they are for -/

/-- A word of an image, filled up with zeros. -/
def imageWord (bigEndian : Bool) (image : List (BitVec 8)) (i : Nat) : BitVec 32 :=
  let byte (k : Nat) : BitVec 8 := image[4 * i + k]?.getD 0
  if bigEndian then word (byte 0) (byte 1) (byte 2) (byte 3)
  else word (byte 3) (byte 2) (byte 1) (byte 0)

/-- The memory with an image in its first words. -/
def preloaded (bigEndian : Bool) (image : List (BitVec 8)) (mem : Nat → BitVec 32) :
    Nat → BitVec 32 :=
  fun i => if i < (image.length + 3) / 4 then imageWord bigEndian image i else mem i

/-- Every word of the image reads the same in both byte orders. -/
def Symmetric (image : List (BitVec 8)) : Prop :=
  ∀ i < image.length / 4,
    image[4 * i]? = image[4 * i + 3]? ∧ image[4 * i + 1]? = image[4 * i + 2]?

instance (image : List (BitVec 8)) : Decidable (Symmetric image) :=
  inferInstanceAs (Decidable (∀ i < _, _))

/-! ## One word -/

theorem word_eq_append (b₀ b₁ b₂ b₃ : BitVec 8) : word b₀ b₁ b₂ b₃ = b₀ ++ b₁ ++ b₂ ++ b₃ := by
  ext i inside
  simp only [word]
  grind

/-- A word determines its bytes. -/
theorem word_inj {b₀ b₁ b₂ b₃ c₀ c₁ c₂ c₃ : BitVec 8} :
    word b₀ b₁ b₂ b₃ = word c₀ c₁ c₂ c₃ ↔ b₀ = c₀ ∧ b₁ = c₁ ∧ b₂ = c₂ ∧ b₃ = c₃ := by
  constructor
  · intro same
    rw [word_eq_append, word_eq_append] at same
    have lanes (b : Fin 4) : ![b₃, b₂, b₁, b₀] b = ![c₃, c₂, c₁, c₀] b := by
      rw [← lane_append ![b₃, b₂, b₁, b₀] b, ← lane_append ![c₃, c₂, c₁, c₀] b]
      exact congrArg (lane · b) same
    exact ⟨lanes 3, lanes 2, lanes 1, lanes 0⟩
  · rintro ⟨rfl, rfl, rfl, rfl⟩
    rfl

variable {bigEndian order : Bool} {image : List (BitVec 8)}

theorem read32_of_lt {k : Nat} (inside : 4 * k + 3 < image.length) :
    read32 bigEndian image (4 * k) = .ok (imageWord bigEndian image k) := by
  have here (j : Nat) (small : j ≤ 3) :
      byteAt image (4 * k + j) = .ok (image[4 * k + j]?.getD 0) := by
    rw [byteAt, List.getElem?_eq_getElem (by omega)]
    rfl
  have first := here 0 (by omega)
  rw [Nat.add_zero] at first
  simp only [read32, first, here 1 (by omega), here 2 (by omega), here 3 (by omega), imageWord,
    Nat.add_zero]
  cases bigEndian <;> rfl

/-- A word that is not inside the buffer is a read outside. -/
theorem read32_of_ge {a : Nat} (short : image.length ≤ a + 3) :
    ∃ fault, read32 bigEndian image a = .error fault := by
  have behind : byteAt image (a + 3) = .error .outOfBounds := by
    rw [byteAt, List.getElem?_eq_none (by omega)]
  rw [read32, behind]
  cases byteAt image a <;> cases byteAt image (a + 1) <;> cases byteAt image (a + 2) <;>
    exact ⟨_, rfl⟩

/-- Both byte orders give the same word when the bytes are symmetric. -/
theorem imageWord_eq_iff {k : Nat} (inside : 4 * k + 3 < image.length) (other : bigEndian ≠ order) :
    imageWord bigEndian image k = imageWord order image k ↔
      image[4 * k]? = image[4 * k + 3]? ∧ image[4 * k + 1]? = image[4 * k + 2]? := by
  have here (j : Nat) (small : j ≤ 3) : ∃ byte, image[4 * k + j]? = some byte :=
    ⟨_, List.getElem?_eq_getElem (by omega)⟩
  obtain ⟨b₀, h₀⟩ := here 0 (by omega)
  obtain ⟨b₁, h₁⟩ := here 1 (by omega)
  obtain ⟨b₂, h₂⟩ := here 2 (by omega)
  obtain ⟨b₃, h₃⟩ := here 3 (by omega)
  rw [Nat.add_zero] at h₀
  cases bigEndian <;> cases order <;>
    simp only [ne_eq, not_true_eq_false, reduceCtorEq, not_false_eq_true] at other
  all_goals
    simp only [imageWord, h₀, h₁, h₂, h₃, Nat.add_zero, Option.getD_some, word_inj,
      Option.some.injEq, Bool.false_eq_true, if_true, if_false]
    constructor
    · rintro ⟨outer, inner, -, -⟩
      simp [outer, inner]
    · rintro ⟨rfl, rfl⟩
      exact ⟨rfl, rfl, rfl, rfl⟩

/-! ## The loop -/

variable {mem : Nat → BitVec 32}

/-- **An image of whole words is copied, in the byte order that is set.** -/
theorem loadWords_of_words (words : image.length % 4 = 0) :
    loadWords bigEndian image image.length mem = .ok (preloaded bigEndian image mem) := by
  let first (k : Nat) : Nat → BitVec 32 :=
    fun i => if i < k then imageWord bigEndian image i else mem i
  have round : ∀ k mem', k < (image.length + 3) / 4 → mem' = first k →
      ∃ mem'', loadWord bigEndian image mem' k = .ok mem'' ∧ mem'' = first (k + 1) := by
    rintro k _ before rfl
    refine ⟨_, by rw [loadWord, read32_of_lt (by omega)]; rfl, ?_⟩
    funext i
    by_cases same : i = k
    · subst same
      simp [first]
    · rw [Function.update_of_ne same]
      exact if_congr (by omega) rfl rfl
  have start : mem = first 0 := by
    funext i
    exact (if_neg (Nat.not_lt_zero i)).symm
  obtain ⟨mem', run, rfl⟩ := counted_loop (fun k mem' => mem' = first k) _ start round
  exact run

/-- **A word that is cut off is read behind the buffer.** -/
theorem loadWords_of_rest (rest : image.length % 4 ≠ 0) :
    ∃ fault, loadWords bigEndian image image.length mem = .error fault := by
  refine faulting_loop (k := image.length / 4) (fun mem' => ?_) ?_ mem
  · have short : image.length ≤ 4 * (image.length / 4) + 3 := by omega
    obtain ⟨fault, outside⟩ : ∃ fault, read32 bigEndian image _ = .error fault :=
      read32_of_ge short
    exact ⟨fault, by rw [loadWord, outside]; rfl⟩
  · rw [Int.toNat_natCast]
    omega

/-- The two byte orders leave the same memory. -/
theorem preloaded_eq_iff (words : image.length % 4 = 0) :
    preloaded bigEndian image mem = preloaded order image mem ↔
      bigEndian = order ∨ Symmetric image := by
  by_cases same : bigEndian = order
  · simp [same]
  simp only [same, false_or]
  constructor
  · intro equal i before
    have here := congrFun equal i
    simp only [preloaded, if_pos (show i < (image.length + 3) / 4 by omega)] at here
    exact (imageWord_eq_iff (by omega) same).mp here
  · intro symmetric
    funext i
    by_cases before : i < (image.length + 3) / 4
    · simp only [preloaded, if_pos before]
      exact (imageWord_eq_iff (by omega) same).mpr (symmetric i (by omega))
    · simp only [preloaded, if_neg before]

/-- When the loop leaves the image in this byte order. -/
theorem loadWords_iff :
    loadWords bigEndian image image.length mem = .ok (preloaded order image mem) ↔
      image.length % 4 = 0 ∧ (bigEndian = order ∨ Symmetric image) := by
  by_cases words : image.length % 4 = 0
  · rw [loadWords_of_words words, Except.ok.injEq, preloaded_eq_iff words]
    simp [words]
  · obtain ⟨fault, stopped⟩ : ∃ fault, loadWords bigEndian image _ mem = .error fault :=
      loadWords_of_rest words
    simp [stopped, words]

/-! ## The two preloads -/

/-- The byte order of an ELF file. -/
def Elf.msb (elf : Elf) : Bool := elf.eiData == some elfdata2msb

/-- `loadElf` puts this image into the memory, in the byte order of the file. -/
def ElfPreloads (heap heap' : Heap (BitVec 8)) (size : Int) (s : Sim) (elf : Elf)
    (image : List (BitVec 8)) : Prop :=
  loadElf heap heap' size s (some elf) = .ok (true, ⟨elf.msb, preloaded elf.msb image s.mem⟩)

/-- `loadBin` puts a file into the memory, as it does when no ELF file was loaded before. -/
def BinPreloads (s : Sim) (file : BinFile) : Prop :=
  loadBin s (some file) = .ok (true, ⟨s.bigEndian, preloaded false file.bytes s.mem⟩)

variable {heap heap' : Heap (BitVec 8)} {size : Int} {elf : Elf} {loaded : Loaded}

/-- An image that is returned comes with the byte order of its file. -/
theorem bigEndian_of_loaded {s : Bool}
    (loads : loadElfFile heap heap' s size (some elf) = .ok loaded) (image : loaded.buf ≠ none) :
    loaded.bigEndian = elf.msb := by
  have dumped (order : Bool) (dumps : dumpData heap heap' elf order = .ok loaded) :
      loaded.bigEndian = order := by
    rw [dumpData] at dumps
    cases program : dumpProgramData heap elf with
    | error fault => simp [program, bind, Except.bind] at dumps
    | ok result =>
        obtain ⟨buf, stop⟩ := result
        cases buf with
        | some bytes =>
            simp only [program, bind, Except.bind, Except.ok.injEq] at dumps
            rw [← dumps]
        | none =>
            cases sections : dumpSectionData heap' elf with
            | error fault => simp [program, sections, bind, Except.bind] at dumps
            | ok result =>
                simp only [program, sections, bind, Except.bind, Except.ok.injEq] at dumps
                rw [← dumps]
  have refused {bigEndian : Bool} (nothing : (⟨bigEndian, none, size⟩ : Loaded) = loaded) :
      loaded.bigEndian = elf.msb := by
    subst nothing
    exact absurd rfl image
  rw [loadElfFile] at loads
  split at loads
  · cases data : elf.eiData with
    | none => simp [data] at loads
    | some code =>
        simp only [data] at loads
        split at loads
        · rename_i lsb
          rw [dumped false loads, Elf.msb, data, lsb]
          rfl
        · split at loads
          · rename_i msb
            rw [dumped true loads, Elf.msb, data, msb]
            rfl
          · exact refused (Except.ok.inj loads)
  · exact refused (Except.ok.inj loads)

theorem elfPreloads_iff {s : Sim}
    (loads : loadElfFile heap heap' s.bigEndian size (some elf) = .ok loaded)
    (buffer : loaded.buf = some image) (whole : loaded.size = image.length) :
    ElfPreloads heap heap' size s elf image ↔ image.length % 4 = 0 := by
  have order := bigEndian_of_loaded loads (by simp [buffer])
  have run : loadElf heap heap' size s (some elf) =
      loadWords elf.msb image image.length s.mem >>= fun mem => .ok (true, ⟨elf.msb, mem⟩) := by
    simp only [loadElf, loads, bind, Except.bind, buffer, whole, order]
  have loop : loadWords elf.msb image image.length s.mem =
      .ok (preloaded elf.msb image s.mem) ↔ image.length % 4 = 0 := by
    rw [loadWords_iff]
    exact and_iff_left (Or.inl rfl)
  rw [ElfPreloads, run, ← loop]
  cases loadWords elf.msb image image.length s.mem with
  | error fault => simp [bind, Except.bind]
  | ok mem => simp [bind, Except.bind]

theorem binPreloads_iff {s : Sim} {file : BinFile} (readable : file.readable = true) :
    BinPreloads s file ↔
      file.bytes.length % 4 = 0 ∧ (s.bigEndian = false ∨ Symmetric file.bytes) := by
  have loop : loadWords s.bigEndian file.bytes file.bytes.length s.mem =
      .ok (preloaded false file.bytes s.mem) ↔ _ := loadWords_iff
  rw [← loop, BinPreloads, loadBin, if_pos readable]
  cases loadWords s.bigEndian file.bytes file.bytes.length s.mem with
  | error fault => simp [bind, Except.bind]
  | ok mem => simp [bind, Except.bind]

/-- **An image is preloaded without a read behind it exactly when it has whole words, and a
binary file also independently of the ELF files before when no big-endian one was the last or
its words are symmetric.** -/
theorem preloads_iff (s : Sim) :
    (∀ (heap heap' : Heap (BitVec 8)) (size : Int) (elf : Elf) (loaded : Loaded)
      (image : List (BitVec 8)),
      loadElfFile heap heap' s.bigEndian size (some elf) = .ok loaded →
      loaded.buf = some image → loaded.size = image.length →
        (ElfPreloads heap heap' size s elf image ↔ image.length % 4 = 0)) ∧
      ∀ file : BinFile, file.readable = true →
        (BinPreloads s file ↔
          file.bytes.length % 4 = 0 ∧ (s.bigEndian = false ∨ Symmetric file.bytes)) :=
  ⟨fun _ _ _ _ _ _ loads buffer whole => elfPreloads_iff loads buffer whole,
    fun _ readable => binPreloads_iff readable⟩

/-- A file of two words that are palindromes. -/
def twoWords : BinFile := ⟨[1, 2, 2, 1, 3, 4, 4, 3], by decide, true⟩

theorem preloads_iff_one_and_two_words :
    ElfPreloads (generous fun _ => 0) (generous fun _ => 0) 0 ⟨false, fun _ => 0⟩
        (fileOf [1, 2, 3] overlapping) [1, 2, 2, 3] ∧
      BinPreloads ⟨true, fun _ => 0⟩ twoWords :=
  ⟨((preloads_iff _).1 _ _ 0 _ ⟨true, some [1, 2, 2, 3], 4⟩ _ rfl rfl rfl).mpr (by decide),
    ((preloads_iff _).2 twoWords rfl).mpr ⟨by decide, Or.inr (by decide)⟩⟩

/-- A binary file of five bytes is read behind its end. -/
theorem preload_of_five_bytes :
    ¬ ∀ (s : Sim) (file : BinFile), file.readable = true → BinPreloads s file := by
  intro claim
  have preloads := claim ⟨false, fun _ => 0⟩ ⟨[1, 2, 3, 4, 5], by decide, true⟩ rfl
  have outside : loadBin ⟨false, fun _ => 0⟩ (some ⟨[1, 2, 3, 4, 5], by decide, true⟩) =
    .error .outOfBounds := rfl
  rw [BinPreloads, outside] at preloads
  cases preloads

end OrpsocCores.ElfLoader
