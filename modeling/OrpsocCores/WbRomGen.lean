import OrpsocCores.BootLoader.Model
import OrpsocCores.Foundation.HexImage
import Mathlib.Data.List.Induction

/-!
# Boot ROM images

`wb_rom_gen.py` writes the words of a binary as the text that `$readmemh` loads into a boot
ROM.  Two systems have a copy each: that of `de0_nano` reads big endian words and leaves out
those that are zero, and that of `vscale-generic` reads little endian words and compares the
bytes, not the word, with zero.

* `VscaleGeneric.image_faithful`: the image is the file.
* `De0Nano.image_faithful_iff`: the image has the file's words at their places exactly when no
  word that is not zero stands behind one that is.
* `De0Nano.code_of_image`: the boot loader has no such word, and is fetched from its image.
-/

set_option autoImplicit false

namespace OrpsocCores.WbRomGen

open HexImage Or1k

/-! ## The script -/

/-- The lines of a file's words.  `struct.unpack` raises an error on fewer than four bytes. -/
def romContents (unpack : Byte → Byte → Byte → Byte → Word) (kept : List Byte → Word → Bool) :
    List Byte → List Char → Option (List Char)
  | [], contents => some contents
  | a :: b :: c :: d :: file, contents =>
      let data := unpack a b c d
      romContents unpack kept file
        (if kept [a, b, c, d] data then contents ++ (hexDigits 8 data.toNat ++ ['\n'])
          else contents)
  | _, _ => none

def block (contents : List Char) : List Char :=
  "@00000000\n".toList ++ contents ++ "\t \n".toList

/-- What is written to the standard output, if the script gets there. -/
def wbRomGen (unpack : Byte → Byte → Byte → Byte → Word) (kept : List Byte → Word → Bool)
    (file : List Byte) : Option (List Char) :=
  (romContents unpack kept file []).map block

/-- `>I`. -/
def unpackBig (a b c d : Byte) : Word := a ++ b ++ c ++ d

/-- `<I`. -/
def unpackLittle (a b c d : Byte) : Word := d ++ c ++ b ++ a

/-- No bytes object of Python equals a number. -/
def bytesEq (_ : List Byte) (_ : Nat) : Bool := false

def De0Nano.wbRomGen : List Byte → Option (List Char) :=
  WbRomGen.wbRomGen unpackBig fun _ data => !(data == 0)

def VscaleGeneric.wbRomGen : List Byte → Option (List Char) :=
  WbRomGen.wbRomGen unpackLittle fun word _ => !bytesEq word 0

/-! ## The words of a file -/

/-- The end of a file behind its words. -/
theorem isBlank_end : ∀ c ∈ "\t \n".toList, isBlank c = true := by
  have each : ∀ c ∈ ['\t', ' ', '\n'], isBlank c = true :=
    List.forall_mem_cons.mpr ⟨rfl, List.forall_mem_cons.mpr
      ⟨rfl, List.forall_mem_singleton.mpr rfl⟩⟩
  exact each

section Words

variable (unpack : Byte → Byte → Byte → Byte → Word)

/-- A word of a file. -/
def wordAt (file : List Byte) (i : Nat) : Option Word :=
  match file[4 * i]?, file[4 * i + 1]?, file[4 * i + 2]?, file[4 * i + 3]? with
  | some a, some b, some c, some d => some (unpack a b c d)
  | _, _, _, _ => none

/-- The words of a file that has no byte over. -/
def words : List Byte → Option (List Word)
  | [] => some []
  | a :: b :: c :: d :: file => (words file).map (unpack a b c d :: ·)
  | _ => none

theorem words_isSome (file : List Byte) : (words unpack file).isSome ↔ 4 ∣ file.length := by
  fun_induction words unpack file with
  | case1 => exact iff_of_true rfl (Nat.dvd_zero 4)
  | case2 a b c d file ih =>
      rw [Option.isSome_map, ih, List.length_cons, List.length_cons, List.length_cons,
        List.length_cons]
      omega
  | case3 file empty short =>
      refine iff_of_false (by decide) fun whole => ?_
      match file, whole with
      | [], _ => exact empty rfl
      | [_], whole | [_, _], whole | [_, _, _], whole =>
          exact absurd (Nat.le_of_dvd (by simp) whole) (by simp)
      | a :: b :: c :: d :: file, _ => exact short a b c d file rfl

theorem words_eq_none_iff (file : List Byte) : words unpack file = none ↔ ¬ 4 ∣ file.length := by
  rw [← words_isSome unpack, Option.not_isSome_iff_eq_none]

theorem getElem?_words {file : List Byte} {ws : List Word} (read : words unpack file = some ws)
    (i : Nat) : ws[i]? = wordAt unpack file i := by
  fun_induction words unpack file generalizing ws i with
  | case1 =>
      cases read
      rfl
  | case2 a b c d file ih =>
      obtain ⟨rest, readRest, rfl⟩ := Option.map_eq_some_iff.mp read
      cases i with
      | zero => rfl
      | succ i => exact ih readRest i
  | case3 => cases read

variable (kept : List Byte → Word → Bool)

theorem romContents_eq (keptWord : Word → Bool)
    (byWord : ∀ a b c d, kept [a, b, c, d] (unpack a b c d) = keptWord (unpack a b c d))
    (file : List Byte) (contents : List Char) :
    romContents unpack kept file contents = (words unpack file).map fun ws =>
      contents ++ ((ws.filter keptWord).map fun word => hexDigits 8 word.toNat).flatMap
        (· ++ ['\n']) := by
  fun_induction romContents unpack kept file contents with
  | case1 contents => rw [words, Option.map_some]; exact congrArg some (List.append_nil _).symm
  | case2 contents a b c d file data ih =>
      rw [ih, words, Option.map_map]
      congr 1
      funext ws
      rw [Function.comp_apply, List.filter_cons, byWord]
      split
      · rw [List.map_cons, List.flatMap_cons, List.append_assoc]
      · rfl
  | case3 file contents empty short =>
      rw [words]
      · rfl
      · exact empty
      · exact short

/-- The script writes no output for a file with a byte over. -/
theorem wbRomGen_eq_none_iff (keptWord : Word → Bool)
    (byWord : ∀ a b c d, kept [a, b, c, d] (unpack a b c d) = keptWord (unpack a b c d))
    (file : List Byte) : wbRomGen unpack kept file = none ↔ ¬ 4 ∣ file.length := by
  rw [wbRomGen, romContents_eq unpack kept keptWord byWord, Option.map_eq_none_iff,
    Option.map_eq_none_iff, words_eq_none_iff]

/-- **The image has the words that were kept, one behind the other.** -/
theorem readmemh_wbRomGen (keptWord : Word → Bool)
    (byWord : ∀ a b c d, kept [a, b, c, d] (unpack a b c d) = keptWord (unpack a b c d))
    (file : List Byte) :
    (wbRomGen unpack kept file).bind (readmemh 32) =
      (words unpack file).map fun ws i => (ws.filter keptWord)[i]? := by
  rw [wbRomGen, romContents_eq unpack kept keptWord byWord]
  cases words unpack file with
  | none => rfl
  | some ws =>
      have heading : "@00000000\n".toList = ('@' :: hexDigits 8 0) ++ ['\n'] := by decide
      have text : block ([] ++ ((ws.filter keptWord).map fun word =>
          hexDigits 8 word.toNat).flatMap (· ++ ['\n'])) =
          (('@' :: hexDigits 8 0) :: (ws.filter keptWord).map fun word =>
            hexDigits 8 word.toNat).flatMap (· ++ ['\n']) ++ "\t \n".toList := by
        unfold block
        rw [List.flatMap_cons, List.nil_append, heading]
      have loaded : readmemh 32 _ = _ :=
        readmemh_lines (k := 8) (n := 0) (by decide) (by decide) (ws.filter keptWord) isBlank_end
      rw [Option.map_some, Option.map_some, Option.bind_some, text, loaded, Option.map_some]
      refine congrArg some (funext fun i => ?_)
      simp only [Image.append, Nat.zero_mod, Nat.zero_le, if_true, Nat.sub_zero, Option.or_none]

end Words

/-- **The ROM of `vscale-generic` has the file**, and a file that ends within a word has none. -/
theorem VscaleGeneric.image_faithful (file : List Byte) :
    ((wbRomGen file).bind (readmemh 32) =
      if 4 ∣ file.length then some (wordAt unpackLittle file) else none) ∧
    (wbRomGen file = none ↔ ¬ 4 ∣ file.length) := by
  constructor
  · rw [wbRomGen, readmemh_wbRomGen _ _ (fun _ => true) fun _ _ _ _ => rfl]
    split
    case isTrue whole =>
      obtain ⟨ws, read⟩ := Option.isSome_iff_exists.mp ((words_isSome unpackLittle file).mpr whole)
      rw [read, Option.map_some, List.filter_eq_self.mpr fun _ _ => rfl]
      exact congrArg some (funext (getElem?_words unpackLittle read))
    case isFalse cut =>
      rw [(words_eq_none_iff unpackLittle file).mpr cut]
      rfl
  · rw [wbRomGen, wbRomGen_eq_none_iff _ _ (fun _ => true) fun _ _ _ _ => rfl]

/-! ## Words that are left out -/

section LeftOut

variable {α : Type*} (p : α → Bool)

/-- Where everything kept would be found behind its place, nothing is kept. -/
theorem filter_eq_nil_of_later {xs : List α}
    (later : ∀ (j : Nat) (x : α), xs[j]? = some x → p x = true → j + 1 < (xs.filter p).length) :
    xs.filter p = [] := by
  induction xs using List.reverseRecOn with
  | nil => rfl
  | append_singleton xs x ih =>
      rw [List.filter_append] at later ⊢
      by_cases kept : p x = true
      · -- The last one is found behind its place only if more were kept than there are.
        have last := later xs.length x List.getElem?_concat_length kept
        have most := List.length_filter_le p xs
        rw [List.filter_cons_of_pos kept, List.length_append] at last
        simp only [List.filter_nil, List.length_singleton] at last
        omega
      · rw [List.filter_cons_of_neg kept, List.filter_nil, List.append_nil] at later ⊢
        refine ih fun j y here keptHere => later j y ?_ keptHere
        obtain ⟨inside, -⟩ := List.getElem?_eq_some_iff.mp here
        rw [List.getElem?_append_left inside, here]

/-- **What a filter keeps is at its place exactly when nothing kept is behind what is not.** -/
theorem filter_in_place_iff (xs : List α) :
    (∀ (j : Nat) (x : α), xs[j]? = some x → p x = true → (xs.filter p)[j]? = some x) ↔
      xs.Pairwise fun x y => p y = true → p x = true := by
  induction xs with
  | nil => exact iff_of_true (fun _ _ here => by cases here) List.Pairwise.nil
  | cons x xs ih =>
      rw [List.pairwise_cons]
      by_cases kept : p x = true
      · rw [List.filter_cons_of_pos kept, ← ih]
        constructor
        · intro inPlace
          exact ⟨fun _ _ _ => kept, fun j y here => inPlace (j + 1) y here⟩
        · rintro ⟨-, inPlace⟩ (_ | j) y here keptHere
          · exact here
          · exact inPlace j y here keptHere
      · rw [List.filter_cons_of_neg kept]
        constructor
        · intro inPlace
          have empty : xs.filter p = [] := filter_eq_nil_of_later p fun j y here keptHere => by
            obtain ⟨inside, -⟩ := List.getElem?_eq_some_iff.mp (inPlace (j + 1) y here keptHere)
            exact inside
          have noneKept := List.filter_eq_nil_iff.mp empty
          exact ⟨fun y member keptHere => absurd keptHere (noneKept y member),
            List.pairwise_of_forall_mem_list fun y _ z member keptHere =>
              absurd keptHere (noneKept z member)⟩
        · rintro ⟨first, -⟩ (_ | j) y here keptHere
          · cases here
            exact absurd keptHere kept
          · exact absurd (first y (List.mem_of_getElem? here) keptHere) kept

end LeftOut

/-- **The ROM of `de0_nano` has the file** exactly when no word that is not zero is behind one
that is, and no byte is over. -/
theorem De0Nano.image_faithful_iff (file : List Byte) :
    (∃ memory, (wbRomGen file).bind (readmemh 32) = some memory ∧
      ∀ i word, wordAt unpackBig file i = some word → word ≠ 0 → memory i = some word) ↔
      4 ∣ file.length ∧ ∀ i j word, i < j → wordAt unpackBig file i = some 0 →
        wordAt unpackBig file j = some word → word = 0 := by
  rw [wbRomGen, readmemh_wbRomGen _ _ (fun data => !(data == 0)) fun _ _ _ _ => rfl,
    ← words_isSome unpackBig]
  cases read : words unpackBig file with
  | none =>
      refine iff_of_false ?_ fun ⟨whole, _⟩ => Bool.false_ne_true whole
      rintro ⟨memory, loaded, -⟩
      cases loaded
  | some ws =>
      have nonzero (word : Word) : (!(word == 0)) = true ↔ word ≠ 0 := by simp
      have inPlace := filter_in_place_iff (fun data : Word => !(data == 0)) ws
      simp only [nonzero, getElem?_words unpackBig read] at inPlace
      constructor
      · rintro ⟨memory, loaded, found⟩
        cases loaded
        have ordered := List.pairwise_iff_getElem.mp (inPlace.mp found)
        refine ⟨rfl, fun i j word before zero here => ?_⟩
        rw [← getElem?_words unpackBig read] at zero here
        obtain ⟨iInside, atI⟩ := List.getElem?_eq_some_iff.mp zero
        obtain ⟨jInside, atJ⟩ := List.getElem?_eq_some_iff.mp here
        have kept := ordered i j iInside jInside before
        rw [atI, atJ] at kept
        by_contra other
        exact kept other rfl
      · rintro ⟨-, zeros⟩
        refine ⟨_, rfl, inPlace.mpr (List.pairwise_iff_getElem.mpr ?_)⟩
        intro i j iInside jInside before other zero
        have atI := getElem?_words unpackBig read i
        have atJ := getElem?_words unpackBig read j
        rw [List.getElem?_eq_getElem iInside, zero] at atI
        rw [List.getElem?_eq_getElem jInside] at atJ
        exact other (zeros i j _ before atI.symm atJ.symm)

/-- From the image of the boot loader's binary the processor fetches the boot loader. -/
theorem De0Nano.code_of_image {file : List Byte}
    (binary : words unpackBig file = some BootLoader.rom) :
    ∃ memory, (wbRomGen file).bind (readmemh 32) = some memory ∧
      ∀ a, Aligned a →
        BootLoader.code a = (memory ((a - BootLoader.romBase).toNat / 4)).bind decode := by
  have nonzero : BootLoader.rom.filter (fun data => !(data == 0)) = BootLoader.rom := by decide
  refine ⟨fun i => BootLoader.rom[i]?, ?_, fun a aligned => ?_⟩
  · rw [wbRomGen, readmemh_wbRomGen _ _ (fun data => !(data == 0)) fun _ _ _ _ => rfl, binary,
      Option.map_some, nonzero]
  · rw [BootLoader.code, if_pos aligned]

end OrpsocCores.WbRomGen
