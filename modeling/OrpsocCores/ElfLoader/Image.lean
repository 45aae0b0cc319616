import Mathlib.Data.List.Forall2
import OrpsocCores.ElfLoader.Model

/-!
# The image of an ELF file

The image is meant to hold the `PT_LOAD` segments, each byte that of the last one that
covers it and zero where there is none, or the allocated sections of a file that has no
segment to load.  The loader misses this in four ways: it copies the program headers of
every type; it leaves what no header covers as the allocator gave it; headers without
data keep it from the sections; and from the second section on it hands libelf the data
descriptor of the section before, which libelf refuses.

`Loadable` is when none of this shows: what is copied covers the image that is wanted.
It is exactly when the loader gives the image, whatever the allocator leaves in fresh
memory (`image_iff_loadable`).
-/

set_option autoImplicit false

namespace OrpsocCores.ElfLoader

open GrownBlock

/-! ## What is wanted -/

/-- The bytes of a segment and their address. -/
def phdrPiece (elf : Elf) (phdr : GElfPhdr) : Piece (BitVec 8) :=
  ⟨phdr.pPaddr.toNat, (elf.rawchunk phdr.pOffset phdr.pFilesz).getD []⟩

/-- The bytes of a section, which comes with its number, and their address. -/
def shdrPiece (elf : Elf) (s : Nat × GElfShdr) : Piece (BitVec 8) :=
  ⟨s.2.shAddr.toNat, (elf.getdata s.1 none).getD []⟩

/-- An allocated `PROGBITS` section. -/
def GElfShdr.allocated (shdr : GElfShdr) : Bool :=
  shdr.shType == shtProgbits && shdr.shFlags &&& shfAlloc != 0

/-- What all program headers hold. -/
def allHeaders (elf : Elf) (phdrs : List GElfPhdr) : List (Piece (BitVec 8)) :=
  phdrs.map (phdrPiece elf)

/-- The `PT_LOAD` segments. -/
def segments (elf : Elf) (phdrs : List GElfPhdr) : List (Piece (BitVec 8)) :=
  (phdrs.filter fun phdr => phdr.pType == ptLoad).map (phdrPiece elf)

/-- The allocated `PROGBITS` sections. -/
def sections (elf : Elf) (shdrs : List (Nat × GElfShdr)) : List (Piece (BitVec 8)) :=
  (shdrs.filter fun s => s.2.allocated).map (shdrPiece elf)

/-- The sections with data among them. -/
def fullSections (elf : Elf) (shdrs : List (Nat × GElfShdr)) : List (Piece (BitVec 8)) :=
  (shdrs.filter fun s => s.2.loaded).map (shdrPiece elf)

/-- The list has data to load. -/
def HasData (phdrs : List GElfPhdr) : Prop :=
  ∃ phdr ∈ phdrs, phdr.pType = ptLoad ∧ phdr.pFilesz ≠ 0

instance (phdrs : List GElfPhdr) : Decidable (HasData phdrs) :=
  inferInstanceAs (Decidable (∃ phdr ∈ phdrs, _))

/-- An object whose headers, segments and sections libelf can read, with addresses in the
range of `int`. -/
structure Readable (elf : Elf) (phdrs : List GElfPhdr) (shdrs : List (Nat × GElfShdr)) :
    Prop where
  kind : elf.kindElf = true
  order : elf.eiData = some elfdata2lsb ∨ elf.eiData = some elfdata2msb
  phdrnum : elf.phdrnum = some phdrs.length
  getphdr : ∀ i, i < phdrs.length → elf.getphdr i = phdrs[i]?
  /-- libelf gives the bytes of a segment. -/
  rawchunk : ∀ phdr ∈ phdrs, ∃ data, elf.rawchunk phdr.pOffset phdr.pFilesz = some data ∧
    data.length = phdr.pFilesz.toNat
  /-- There is a section zero, which is not listed, unless there are none. -/
  shdrnum : ∃ shdrNum, elf.shdrnum = some shdrNum ∧
    shdrs.map Prod.fst = List.range' 1 (shdrNum - 1)
  getshdr : ∀ s ∈ shdrs, elf.getshdr s.1 = some s.2
  /-- libelf gives the bytes of a section. -/
  getdata : ∀ s ∈ shdrs, s.2.allocated = true → ∃ data, elf.getdata s.1 none = some data ∧
    data.length = s.2.shSize.toNat
  /-- libelf refuses the descriptor of another section. -/
  mismatch : ∀ i j, i ≠ j → elf.getdata i (some j) = none
  phdrFits : ∀ phdr ∈ phdrs, phdr.pPaddr.toNat + phdr.pFilesz.toNat < 2 ^ 31
  shdrFits : ∀ s ∈ shdrs, s.2.allocated = true →
    s.2.shAddr.toNat + s.2.shSize.toNat < 2 ^ 31

/-- A buffer and its size are the image of these pieces, with zeros where there are none. -/
def IsImage (wanted : List (Piece (BitVec 8))) (buf : Option (List (BitVec 8))) (size : Int) :
    Prop :=
  size = top wanted ∧ buf.getD [] = contents (fun _ => 0) wanted

instance (wanted : List (Piece (BitVec 8))) (buf : Option (List (BitVec 8))) (size : Int) :
    Decidable (IsImage wanted buf size) :=
  inferInstanceAs (Decidable (_ ∧ _))

/-- The loader gives the images, for whatever the allocator does, and without a copy outside
its buffer. -/
def GivesImages (elf : Elf) (phdrs : List GElfPhdr) (shdrs : List (Nat × GElfShdr)) : Prop :=
  ∀ (heap heap' : Heap (BitVec 8)) (bigEndian : Bool) (size : Int),
    (∃ buf stop, dumpProgramData heap elf = .ok (buf, stop) ∧
      IsImage (segments elf phdrs) buf stop) ∧
    (¬HasData phdrs → ∃ loaded, loadElfFile heap heap' bigEndian size (some elf) = .ok loaded ∧
      IsImage (sections elf shdrs) loaded.buf loaded.size)

/-- What is copied covers what is wanted: all headers the segments, and where there is no
data to load, all headers the sections, or without headers the only section with data. -/
def Loadable (elf : Elf) (phdrs : List GElfPhdr) (shdrs : List (Nat × GElfShdr)) : Prop :=
  Covers 0 (allHeaders elf phdrs) (segments elf phdrs) ∧
    (¬HasData phdrs →
      if phdrs = [] then
        (fullSections elf shdrs).length ≤ 1 ∧
          Covers 0 (fullSections elf shdrs) (sections elf shdrs)
      else Covers 0 (allHeaders elf phdrs) (sections elf shdrs))

/-! ## The loop over the headers -/

variable {heap heap' : Heap (BitVec 8)} {elf : Elf} {d : Dump} {pieces : List (Piece (BitVec 8))}

/-- The buffer holds these pieces. -/
structure Filled (heap : Heap (BitVec 8)) (pieces : List (Piece (BitVec 8))) (d : Dump) :
    Prop where
  size : d.maxAddr.toNat = top pieces
  bytes : d.buffer.getD [] = contents heap.fresh pieces

theorem filled_start (heap : Heap (BitVec 8)) : Filled heap [] ⟨none, 0⟩ := ⟨rfl, rfl⟩

theorem Filled.grow_buffer (filled : Filled heap pieces d) (stop : BitVec 64) :
    (d.grow heap stop).buffer = grown heap d.buffer (top pieces) stop.toNat := by
  rw [Dump.grow, grown, filled.size]
  split <;> rfl

theorem Filled.grow_maxAddr (filled : Filled heap pieces d) (stop : BitVec 64) :
    (d.grow heap stop).maxAddr.toNat = max (top pieces) stop.toNat := by
  rw [Dump.grow, filled.size]
  split
  · exact (max_eq_right ‹_›).symm
  · rw [filled.size, max_eq_left (by omega)]

/-- One round: room for a piece, and its copy. -/
theorem Filled.place (filled : Filled heap pieces d) {p : Piece (BitVec 8)} {stop : BitVec 64}
    (ends : stop.toNat = p.stop) :
    ∃ buffer, memcpy (d.grow heap stop).buffer p.start p.bytes = .ok buffer ∧
      Filled heap (pieces ++ [p]) { d.grow heap stop with buffer := buffer } ∧
      (heap.Generous → buffer ≠ none) := by
  obtain ⟨buffer, copied, bytes, null⟩ := place_contents filled.bytes p
  rw [← ends, ← filled.grow_buffer stop] at copied null
  refine ⟨buffer, copied, ⟨?_, bytes⟩, ?_⟩
  · rw [filled.grow_maxAddr, top_concat, ends]
  · intro generous nothing
    rw [null, filled.grow_buffer] at nothing
    exact generous.grown_ne_none filled.bytes _ nothing

theorem toNat_stop {start size : BitVec 64} (fits : start.toNat + size.toNat < 2 ^ 31) :
    (start + size).toNat = start.toNat + size.toNat := by
  rw [BitVec.toNat_add]
  exact Nat.mod_eq_of_lt (by omega)

/-- **The loop over the headers copies all of them.** -/
theorem dumpPhdrs_filled {phdrs : List GElfPhdr} {indices : List Nat}
    (given : List.Forall₂ (fun i phdr => elf.getphdr i = some phdr) indices phdrs)
    (rawchunk : ∀ phdr ∈ phdrs, ∃ data, elf.rawchunk phdr.pOffset phdr.pFilesz = some data ∧
      data.length = phdr.pFilesz.toNat)
    (fits : ∀ phdr ∈ phdrs, phdr.pPaddr.toNat + phdr.pFilesz.toNat < 2 ^ 31)
    (filled : Filled heap pieces d) (block : heap.Generous → pieces ≠ [] → d.buffer ≠ none) :
    ∃ d', dumpPhdrs heap elf indices d = .ok (some d') ∧
      Filled heap (pieces ++ allHeaders elf phdrs) d' ∧
      (heap.Generous → pieces ++ allHeaders elf phdrs ≠ [] → d'.buffer ≠ none) := by
  induction given generalizing d pieces with
  | nil => exact ⟨d, rfl, by simpa [allHeaders] using filled, by simpa [allHeaders] using block⟩
  | @cons i phdr indices phdrs here rest ih =>
      obtain ⟨data, chunk, length⟩ := rawchunk phdr (by simp)
      have piece : phdrPiece elf phdr = ⟨phdr.pPaddr.toNat, data⟩ := by rw [phdrPiece, chunk]; rfl
      have ends : (phdr.pPaddr + phdr.pFilesz).toNat = (phdrPiece elf phdr).stop := by
        rw [toNat_stop (fits phdr (by simp)), piece, Piece.stop, length]
      obtain ⟨buffer, copied, filled', block'⟩ := filled.place ends
      obtain ⟨d', ran, done⟩ := ih (fun phdr listed => rawchunk phdr (by simp [listed]))
        (fun phdr listed => fits phdr (by simp [listed])) filled' fun generous _ => block' generous
      refine ⟨d', ?_, by simpa [allHeaders] using done⟩
      rw [piece] at copied
      simp only [dumpPhdrs, here, chunk, copied]
      exact ran

/-- The size fits in `*size`. -/
theorem Filled.result (filled : Filled heap pieces d) (fits : top pieces < 2 ^ 31) :
    Dump.result (some d) = (d.buffer, (top pieces : Int)) := by
  have size : (d.maxAddr.setWidth 32).toNat = top pieces := by
    rw [BitVec.toNat_setWidth, filled.size, Nat.mod_eq_of_lt (by omega)]
  rw [Dump.result, BitVec.toInt_eq_toNat_of_lt (by rw [size]; omega), size]

variable {phdrs : List GElfPhdr} {shdrs : List (Nat × GElfShdr)}

theorem Readable.phdr_stop (readable : Readable elf phdrs shdrs) {p : Piece (BitVec 8)}
    (listed : p ∈ allHeaders elf phdrs) : p.stop < 2 ^ 31 := by
  obtain ⟨phdr, inside, rfl⟩ := List.mem_map.mp listed
  obtain ⟨data, chunk, length⟩ := readable.rawchunk phdr inside
  simpa [Piece.stop, phdrPiece, chunk, length] using readable.phdrFits phdr inside

/-- **`dump_program_data` copies all headers, in a buffer unless there are none.** -/
theorem dumpProgramData_eq (readable : Readable elf phdrs shdrs) (heap : Heap (BitVec 8)) :
    ∃ buf, dumpProgramData heap elf = .ok (buf, (top (allHeaders elf phdrs) : Int)) ∧
      buf.getD [] = contents heap.fresh (allHeaders elf phdrs) ∧
      (phdrs = [] → buf = none) ∧ (heap.Generous → phdrs ≠ [] → buf ≠ none) := by
  rw [dumpProgramData, readable.phdrnum]
  by_cases none_listed : phdrs = []
  · subst none_listed
    exact ⟨none, rfl, rfl, fun _ => rfl, fun _ some_listed => absurd rfl some_listed⟩
  have given : List.Forall₂ (fun i phdr => elf.getphdr i = some phdr)
      (List.range phdrs.length) phdrs := by
    rw [List.forall₂_iff_get]
    refine ⟨List.length_range, fun i _ inside => ?_⟩
    simpa [List.getElem?_eq_getElem inside] using readable.getphdr i inside
  obtain ⟨d, ran, filled, block⟩ := dumpPhdrs_filled given readable.rawchunk readable.phdrFits
    (filled_start heap) fun _ some_listed => absurd rfl some_listed
  rw [List.nil_append] at filled block
  have fits : top (allHeaders elf phdrs) < 2 ^ 31 :=
    top_lt (by decide) fun p listed => readable.phdr_stop listed
  refine ⟨d.buffer, ?_, filled.bytes, fun nothing => absurd nothing none_listed, ?_⟩
  · dsimp only
    rw [if_neg (by simpa using none_listed), ran]
    exact congrArg Except.ok (filled.result fits)
  · exact fun generous some_listed => block generous (by simpa [allHeaders] using some_listed)

/-! ## The loop over the sections -/

theorem fullSections_cons_of_loaded {s : Nat × GElfShdr} (loaded : s.2.loaded = true) :
    fullSections elf (s :: shdrs) = shdrPiece elf s :: fullSections elf shdrs := by
  simp [fullSections, loaded]

theorem fullSections_cons_of_not_loaded {s : Nat × GElfShdr} (left : s.2.loaded = false) :
    fullSections elf (s :: shdrs) = fullSections elf shdrs := by
  simp [fullSections, left]

theorem GElfShdr.allocated_of_loaded {shdr : GElfShdr} (loaded : shdr.loaded = true) :
    shdr.allocated = true := by
  simp only [GElfShdr.loaded, Bool.and_eq_true] at loaded
  simpa [GElfShdr.allocated] using loaded.1

/-- A section with data is wanted, and does not end at zero. -/
theorem Readable.full_section (readable : Readable elf phdrs shdrs) {p : Piece (BitVec 8)}
    (listed : p ∈ fullSections elf shdrs) :
    p ∈ sections elf shdrs ∧ 0 < p.stop ∧ p.stop < 2 ^ 31 := by
  obtain ⟨s, inside, rfl⟩ := List.mem_map.mp listed
  obtain ⟨inside, loaded⟩ := List.mem_filter.mp inside
  have allocated := GElfShdr.allocated_of_loaded loaded
  obtain ⟨data, bytes, length⟩ := readable.getdata s inside allocated
  have size : s.2.shSize ≠ 0 := by
    simp only [GElfShdr.loaded, Bool.and_eq_true, bne_iff_ne] at loaded
    exact loaded.2
  have positive : 0 < s.2.shSize.toNat := by
    rw [Nat.pos_iff_ne_zero]
    exact fun zero => size (BitVec.eq_of_toNat_eq zero)
  have stop : (shdrPiece elf s).stop = s.2.shAddr.toNat + s.2.shSize.toNat := by
    simp [Piece.stop, shdrPiece, bytes, length]
  have fits := readable.shdrFits s inside allocated
  refine ⟨List.mem_map.mpr ⟨s, List.mem_filter.mpr ⟨inside, allocated⟩, rfl⟩, ?_, ?_⟩ <;> omega

/-- With a descriptor of an earlier section, libelf refuses the next one with data. -/
theorem dumpShdrs_of_descriptor (getshdr : ∀ s ∈ shdrs, elf.getshdr s.1 = some s.2)
    (mismatch : ∀ i j, i ≠ j → elf.getdata i (some j) = none) {j : Nat}
    (other : ∀ s ∈ shdrs, s.1 ≠ j) (d : Dump) :
    dumpShdrs heap elf (shdrs.map Prod.fst) (some j) d =
      .ok (if fullSections elf shdrs = [] then some d else none) := by
  induction shdrs with
  | nil => rfl
  | cons s rest ih =>
      have here := getshdr s (by simp)
      have refused := mismatch s.1 j (other s (by simp))
      have goesOn := ih (fun s listed => getshdr s (by simp [listed]))
        fun s listed => other s (by simp [listed])
      simp only [List.map_cons, dumpShdrs, here, refused]
      cases loaded : s.2.loaded with
      | true => simp [fullSections_cons_of_loaded loaded]
      | false => simpa [fullSections_cons_of_not_loaded loaded] using goesOn

/-- **The loop over the sections ends with the only one that has data, or in an error.** -/
theorem dumpShdrs_eq (heap : Heap (BitVec 8)) (getshdr : ∀ s ∈ shdrs, elf.getshdr s.1 = some s.2)
    (getdata : ∀ s ∈ shdrs, s.2.allocated = true → ∃ data, elf.getdata s.1 none = some data ∧
      data.length = s.2.shSize.toNat)
    (mismatch : ∀ i j, i ≠ j → elf.getdata i (some j) = none)
    (fits : ∀ s ∈ shdrs, s.2.allocated = true → s.2.shAddr.toNat + s.2.shSize.toNat < 2 ^ 31)
    (once : (shdrs.map Prod.fst).Nodup) :
    ∃ result, dumpShdrs heap elf (shdrs.map Prod.fst) none ⟨none, 0⟩ = .ok result ∧
      match fullSections elf shdrs with
      | [] => result = some ⟨none, 0⟩
      | [p] => ∃ d, result = some d ∧ Filled heap [p] d
      | _ => result = none := by
  induction shdrs with
  | nil => exact ⟨_, rfl, rfl⟩
  | cons s rest ih =>
      obtain ⟨apart, once'⟩ := List.nodup_cons.mp once
      have here := getshdr s (by simp)
      cases loaded : s.2.loaded with
      | false =>
          obtain ⟨result, ran, ends⟩ := ih (fun s listed => getshdr s (by simp [listed]))
            (fun s listed => getdata s (by simp [listed]))
            (fun s listed => fits s (by simp [listed])) once'
          refine ⟨result, ?_, by rwa [fullSections_cons_of_not_loaded loaded]⟩
          simpa [dumpShdrs, here, loaded] using ran
      | true =>
          have allocated := GElfShdr.allocated_of_loaded loaded
          obtain ⟨data, bytes, length⟩ := getdata s (by simp) allocated
          have piece : shdrPiece elf s = ⟨s.2.shAddr.toNat, data⟩ := by
            rw [shdrPiece, bytes]
            rfl
          have ends : (s.2.shAddr + s.2.shSize).toNat = (shdrPiece elf s).stop := by
            rw [toNat_stop (fits s (by simp) allocated), piece, Piece.stop, length]
          obtain ⟨buffer, copied, filled, -⟩ := (filled_start heap).place ends
          rw [piece] at copied
          have goesOn (d : Dump) : dumpShdrs heap elf (rest.map Prod.fst) (some s.1) d =
              .ok (if fullSections elf rest = [] then some d else none) :=
            dumpShdrs_of_descriptor (fun s listed => getshdr s (by simp [listed])) mismatch
              (fun s' listed same => apart (List.mem_map.mpr ⟨s', listed, same⟩)) d
          refine ⟨if fullSections elf rest = [] then
            some { Dump.grow heap ⟨none, 0⟩ (s.2.shAddr + s.2.shSize) with buffer := buffer }
            else none, ?_, ?_⟩
          · simp only [List.map_cons, dumpShdrs, here, loaded, if_true, bytes, copied]
            exact goesOn _
          · rw [fullSections_cons_of_loaded loaded]
            cases fullSections elf rest with
            | nil => exact ⟨_, if_pos rfl, filled⟩
            | cons p others => exact if_neg (List.cons_ne_nil p others)

/-- **`dump_section_data` gives the only section with data; two of them are an error.** -/
theorem dumpSectionData_eq (readable : Readable elf phdrs shdrs) (heap : Heap (BitVec 8)) :
    ∃ buf size, dumpSectionData heap elf = .ok (buf, size) ∧
      if (fullSections elf shdrs).length ≤ 1 then
        size = (top (fullSections elf shdrs) : Int) ∧
          buf.getD [] = contents heap.fresh (fullSections elf shdrs)
      else buf = none ∧ size = 0 := by
  obtain ⟨shdrNum, given, numbers⟩ := readable.shdrnum
  rw [dumpSectionData, given]
  dsimp only
  by_cases none_listed : shdrNum = 0
  · rw [none_listed, List.range'_zero, List.map_eq_nil_iff] at numbers
    subst numbers
    exact ⟨none, 0, if_pos none_listed, rfl, rfl⟩
  have once : (shdrs.map Prod.fst).Nodup := by
    rw [numbers]
    exact List.nodup_range'
  obtain ⟨result, ran, ends⟩ := dumpShdrs_eq heap readable.getshdr readable.getdata
    readable.mismatch readable.shdrFits once
  rw [if_neg none_listed, ← numbers, ran]
  refine ⟨(Dump.result result).1, (Dump.result result).2, rfl, ?_⟩
  cases full : fullSections elf shdrs with
  | nil =>
      rw [full] at ends
      rw [ends]
      exact ⟨rfl, rfl⟩
  | cons p others =>
      rw [full] at ends
      cases others with
      | nil =>
          obtain ⟨d, rfl, filled⟩ := ends
          have fits : top [p] < 2 ^ 31 := by
            refine top_lt (by decide) fun q listed => ?_
            rw [← full] at listed
            exact (readable.full_section listed).2.2
          rw [filled.result fits]
          exact ⟨rfl, filled.bytes⟩
      | cons q others =>
          rw [show result = none from ends]
          simp [Dump.result]

/-! ## The images -/

/-- A block that holds some pieces is the image of others when it agrees with that. -/
theorem isImage_iff {buf : Option (List (BitVec 8))} {fresh : Nat → BitVec 8}
    {copied : List (Piece (BitVec 8))} (bytes : buf.getD [] = contents fresh copied)
    (wanted : List (Piece (BitVec 8))) :
    IsImage wanted buf (top copied : Int) ↔
      top copied = top wanted ∧ contents fresh copied = contents (fun _ => 0) wanted := by
  rw [IsImage, bytes, Int.ofNat_inj]

instance byte_nontrivial : Nontrivial (BitVec 8) := ⟨0, 1, by decide⟩

/-- An allocator that gives a block for every request. -/
def generous (fresh : Nat → BitVec 8) : Heap (BitVec 8) := ⟨fresh, true, true⟩

theorem program_iff (readable : Readable elf phdrs shdrs) :
    (∀ heap, ∃ buf stop, dumpProgramData heap elf = .ok (buf, stop) ∧
      IsImage (segments elf phdrs) buf stop) ↔
      Covers 0 (allHeaders elf phdrs) (segments elf phdrs) := by
  rw [covers_iff]
  constructor
  · intro always fresh
    obtain ⟨buf, stop, ran, image⟩ := always (generous fresh)
    obtain ⟨buf', ran', bytes, -⟩ := dumpProgramData_eq readable (generous fresh)
    rw [ran] at ran'
    obtain ⟨rfl, rfl⟩ := Prod.mk.inj (Except.ok.inj ran')
    exact (isImage_iff bytes _).mp image
  · intro covers heap
    obtain ⟨buf, ran, bytes, -⟩ := dumpProgramData_eq readable heap
    exact ⟨buf, _, ran, (isImage_iff bytes _).mpr (covers heap.fresh)⟩

theorem loadElfFile_eq (readable : Readable elf phdrs shdrs) (heap heap' : Heap (BitVec 8))
    (bigEndian : Bool) (size : Int) :
    ∃ order, loadElfFile heap heap' bigEndian size (some elf) = dumpData heap heap' elf order := by
  rcases readable.order with lsb | msb
  · exact ⟨false, by simp [loadElfFile, readable.kind, lsb]⟩
  · exact ⟨true, by simp [loadElfFile, readable.kind, msb, elfdata2msb, elfdata2lsb]⟩

/-- The image of the sections. -/
theorem sections_iff (readable : Readable elf phdrs shdrs) :
    (∀ heap, ∃ buf size, dumpSectionData heap elf = .ok (buf, size) ∧
      IsImage (sections elf shdrs) buf size) ↔
      (fullSections elf shdrs).length ≤ 1 ∧
        Covers 0 (fullSections elf shdrs) (sections elf shdrs) := by
  rw [covers_iff]
  by_cases few : (fullSections elf shdrs).length ≤ 1
  · constructor
    · refine fun always => ⟨few, fun fresh => ?_⟩
      obtain ⟨buf, size, ran, image⟩ := always (generous fresh)
      obtain ⟨buf', size', ran', ends⟩ := dumpSectionData_eq readable (generous fresh)
      rw [ran] at ran'
      obtain ⟨rfl, rfl⟩ := Prod.mk.inj (Except.ok.inj ran')
      rw [if_pos few] at ends
      rw [ends.1] at image
      exact (isImage_iff ends.2 _).mp image
    · rintro ⟨-, covers⟩ heap
      obtain ⟨buf, size, ran, ends⟩ := dumpSectionData_eq readable heap
      rw [if_pos few] at ends
      refine ⟨buf, size, ran, ?_⟩
      rw [ends.1]
      exact (isImage_iff ends.2 _).mpr (covers heap.fresh)
  · refine iff_of_false ?_ fun both => few both.1
    intro always
    obtain ⟨buf, size, ran, image⟩ := always (generous fun _ => 0)
    obtain ⟨buf', size', ran', ends⟩ := dumpSectionData_eq readable (generous fun _ => 0)
    rw [ran] at ran'
    obtain ⟨rfl, rfl⟩ := Prod.mk.inj (Except.ok.inj ran')
    rw [if_neg few] at ends
    -- the image is empty, and a section with data is wanted
    obtain ⟨p, listed⟩ := List.exists_mem_of_length_pos
      (show 0 < (fullSections elf shdrs).length by omega)
    obtain ⟨wanted, positive, -⟩ := readable.full_section listed
    have below := stop_le_top wanted
    have empty := image.1
    rw [ends.2] at empty
    omega

/-- What `load_elf_file` makes of the sections. -/
theorem fallback_iff (readable : Readable elf phdrs shdrs) (bigEndian : Bool) (size : Int) :
    (∀ heap heap', ∃ loaded,
      loadElfFile heap heap' bigEndian size (some elf) = .ok loaded ∧
        IsImage (sections elf shdrs) loaded.buf loaded.size) ↔
      if phdrs = [] then
        (fullSections elf shdrs).length ≤ 1 ∧
          Covers 0 (fullSections elf shdrs) (sections elf shdrs)
      else Covers 0 (allHeaders elf phdrs) (sections elf shdrs) := by
  split
  · rename_i none_listed
    rw [← sections_iff readable]
    have fallsBack (heap heap' : Heap (BitVec 8)) :
        ∃ order, loadElfFile heap heap' bigEndian size (some elf) =
          dumpSectionData heap' elf >>= fun dumped => .ok ⟨order, dumped.1, dumped.2⟩ := by
      obtain ⟨order, loads⟩ := loadElfFile_eq readable heap heap' bigEndian size
      obtain ⟨buf, ran, -, nothing, -⟩ := dumpProgramData_eq readable heap
      rw [nothing none_listed] at ran
      exact ⟨order, by rw [loads, dumpData, ran]; rfl⟩
    constructor
    · intro always heap'
      obtain ⟨loaded, loads, image⟩ := always heap' heap'
      obtain ⟨order, loads'⟩ := fallsBack heap' heap'
      obtain ⟨buf, stop, ran, -⟩ := dumpSectionData_eq readable heap'
      rw [loads, ran] at loads'
      cases loads'
      exact ⟨buf, stop, ran, image⟩
    · intro always heap heap'
      obtain ⟨buf, stop, ran, image⟩ := always heap'
      obtain ⟨order, loads⟩ := fallsBack heap heap'
      rw [ran] at loads
      exact ⟨_, loads, image⟩
  · rename_i some_listed
    rw [covers_iff]
    constructor
    · intro always fresh
      obtain ⟨loaded, loads, image⟩ := always (generous fresh) (generous fresh)
      obtain ⟨order, loads'⟩ := loadElfFile_eq readable (generous fresh) (generous fresh)
        bigEndian size
      obtain ⟨buf, ran, bytes, -, block⟩ := dumpProgramData_eq readable (generous fresh)
      obtain ⟨block, rfl⟩ := Option.ne_none_iff_exists'.mp (block ⟨rfl, rfl⟩ some_listed)
      rw [loads, dumpData, ran] at loads'
      cases loads'
      exact (isImage_iff bytes _).mp image
    · intro covers heap heap'
      obtain ⟨order, loads⟩ := loadElfFile_eq readable heap heap' bigEndian size
      obtain ⟨buf, ran, bytes, -, -⟩ := dumpProgramData_eq readable heap
      rw [dumpData, ran] at loads
      cases buf with
      | some block => exact ⟨_, loads, (isImage_iff bytes _).mpr (covers heap.fresh)⟩
      | none =>
          -- all headers end at zero, and so do the sections
          have zero : top (sections elf shdrs) = 0 := by
            rw [← (covers heap.fresh).1, ← length_contents heap.fresh, ← bytes]
            rfl
          have empty : fullSections elf shdrs = [] := by
            rw [List.eq_nil_iff_forall_not_mem]
            intro p listed
            obtain ⟨wanted, positive, -⟩ := readable.full_section listed
            have below := stop_le_top wanted
            omega
          obtain ⟨buf, stop, ran', ends⟩ := dumpSectionData_eq readable heap'
          rw [empty, if_pos (by simp)] at ends
          refine ⟨⟨order, buf, stop⟩, loads.trans (by rw [ran']; rfl), ?_⟩
          obtain ⟨rfl, bytes'⟩ := ends
          refine (isImage_iff bytes' _).mpr ⟨zero.symm, ?_⟩
          simp [contents, zero]

/-- **The loader gives the images exactly when what it copies covers them.** -/
theorem image_iff_loadable (readable : Readable elf phdrs shdrs) :
    GivesImages elf phdrs shdrs ↔ Loadable elf phdrs shdrs := by
  constructor
  · intro gives
    refine ⟨(program_iff readable).mp fun heap => (gives heap heap false 0).1, fun noData => ?_⟩
    exact (fallback_iff readable false 0).mp fun heap heap' => (gives heap heap' false 0).2 noData
  · rintro ⟨covers, fallback⟩ heap heap' bigEndian size
    exact ⟨(program_iff readable).mpr covers heap,
      fun noData => (fallback_iff readable bigEndian size).mpr (fallback noData) heap heap'⟩

/-- A file with these bytes and program headers, and without sections. -/
def fileOf (bytes : List (BitVec 8)) (phdrs : List GElfPhdr) : Elf where
  kindElf := true
  eiData := some elfdata2msb
  phdrnum := some phdrs.length
  getphdr := fun i => phdrs[i]?
  rawchunk := fun offset size =>
    if offset.toNat + size.toNat ≤ bytes.length then
      some ((bytes.drop offset.toNat).take size.toNat)
    else none
  shdrnum := some 0
  getshdr := fun _ => none
  getdata := fun _ _ => none

theorem readable_fileOf {bytes : List (BitVec 8)}
    (inside : ∀ phdr ∈ phdrs, phdr.pOffset.toNat + phdr.pFilesz.toNat ≤ bytes.length)
    (fits : ∀ phdr ∈ phdrs, phdr.pPaddr.toNat + phdr.pFilesz.toNat < 2 ^ 31) :
    Readable (fileOf bytes phdrs) phdrs [] where
  kind := rfl
  order := Or.inr rfl
  phdrnum := rfl
  getphdr := fun _ _ => rfl
  rawchunk := by
    intro phdr listed
    have here := inside phdr listed
    refine ⟨_, if_pos here, ?_⟩
    rw [List.length_take, List.length_drop]
    omega
  shdrnum := ⟨0, rfl, rfl⟩
  getshdr := fun _ listed => by cases listed
  getdata := fun _ listed => by cases listed
  mismatch := fun _ _ _ => rfl
  phdrFits := fits
  shdrFits := fun _ listed => by cases listed

/-- Two segments that overlap, and a note inside the first of them. -/
def overlapping : List GElfPhdr := [⟨ptLoad, 0, 0, 3⟩, ⟨ptLoad, 1, 2, 2⟩, ⟨4, 0, 0, 1⟩]

theorem image_iff_loadable_overlapping : GivesImages (fileOf [1, 2, 3] overlapping) overlapping [] :=
  (image_iff_loadable (readable_fileOf (by decide) (by decide))).mpr
    ⟨by decide, fun noData => absurd (by decide) noData⟩

/-- Two segments with a byte between them that none covers. -/
def apart : List GElfPhdr := [⟨ptLoad, 0, 0, 1⟩, ⟨ptLoad, 1, 2, 1⟩]

/-- Between two segments the image holds what the allocator left there. -/
theorem image_between_segments :
    ¬ ∀ (elf : Elf) (phdrs : List GElfPhdr) (shdrs : List (Nat × GElfShdr)),
      Readable elf phdrs shdrs → GivesImages elf phdrs shdrs := by
  intro claim
  have gives := claim (fileOf [1, 2] apart) apart [] (readable_fileOf (by decide) (by decide))
  obtain ⟨buf, stop, ran, image⟩ := (gives (generous fun _ => 0xaa) (generous fun _ => 0) false 0).1
  have between : dumpProgramData (generous fun _ => 0xaa) (fileOf [1, 2] apart) =
    .ok (some [1, 0xaa, 2], 3) := by rfl
  rw [between] at ran
  cases ran
  exact absurd image (by decide)

end OrpsocCores.ElfLoader
