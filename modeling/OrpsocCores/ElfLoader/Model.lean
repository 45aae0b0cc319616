import OrpsocCores.Foundation.GrownBlock

/-!
# The ELF loader

`elf-loader.c` makes a memory image of an ELF file: from its program headers, or from its
sections where that gives nothing.  The library libelf is what it reads the file with;
`Elf` holds the answers of the library's functions for one object.  An answer that the
library refuses is `none`.

The messages that the loader prints, and the string table that only they use, are left
out.  Sizes and addresses have 64 bits, as in the source.
-/

set_option autoImplicit false

namespace OrpsocCores.ElfLoader

open GrownBlock

/-! ## What libelf gives -/

/-- The fields of a `GElf_Phdr` that the loader reads, and its type. -/
structure GElfPhdr where
  pType : BitVec 32
  pOffset : BitVec 64
  pPaddr : BitVec 64
  pFilesz : BitVec 64
  deriving DecidableEq

/-- The fields of a `GElf_Shdr` that the loader reads. -/
structure GElfShdr where
  shType : BitVec 32
  shFlags : BitVec 64
  shAddr : BitVec 64
  shSize : BitVec 64
  deriving DecidableEq

def ptLoad : BitVec 32 := 1

def shtProgbits : BitVec 32 := 1

def shfAlloc : BitVec 64 := 2

def elfdata2lsb : BitVec 8 := 1

def elfdata2msb : BitVec 8 := 2

/-- What libelf answers for an object. -/
structure Elf where
  /-- `elf_kind` is `ELF_K_ELF`. -/
  kindElf : Bool
  /-- `elf_getident`, at `EI_DATA`. -/
  eiData : Option (BitVec 8)
  /-- `elf_getphdrnum`. -/
  phdrnum : Option Nat
  /-- `gelf_getphdr`. -/
  getphdr : Nat → Option GElfPhdr
  /-- `elf_getdata_rawchunk`, of an offset and a size. -/
  rawchunk : BitVec 64 → BitVec 64 → Option (List (BitVec 8))
  /-- `elf_getshdrnum`. -/
  shdrnum : Option Nat
  /-- `gelf_getshdr`. -/
  getshdr : Nat → Option GElfShdr
  /-- `elf_getdata`, of a section and the section of a descriptor that it returned before. -/
  getdata : Nat → Option Nat → Option (List (BitVec 8))

/-! ## The two dumps -/

/-- The buffer, and `max_paddr` or `max_saddr`. -/
structure Dump where
  buffer : Option (List (BitVec 8))
  maxAddr : BitVec 64

namespace Dump

/-- Room for what ends at this address. -/
def grow (heap : Heap (BitVec 8)) (d : Dump) (stop : BitVec 64) : Dump :=
  if stop.toNat ≥ d.maxAddr.toNat then ⟨heap.realloc d.buffer stop.toNat, stop⟩ else d

/-- What a dump function returns, and `*size`. -/
def result : Option Dump → Option (List (BitVec 8)) × Int
  | none => (none, 0)
  | some d => (d.buffer, (d.maxAddr.setWidth 32).toInt)

end Dump

variable (heap heap' : Heap (BitVec 8)) (elf : Elf)

/-- The loop of `dump_program_data` over these headers. -/
def dumpPhdrs : List Nat → Dump → Except Fault (Option Dump)
  | [], d => .ok (some d)
  | i :: rest, d =>
      match elf.getphdr i with
      | none => .ok none
      | some phdr =>
          let d := d.grow heap (phdr.pPaddr + phdr.pFilesz)
          match elf.rawchunk phdr.pOffset phdr.pFilesz with
          | none => .ok none
          | some data => do
              let buffer ← memcpy d.buffer phdr.pPaddr.toNat data
              dumpPhdrs rest { d with buffer := buffer }

/-- `dump_program_data`. -/
def dumpProgramData : Except Fault (Option (List (BitVec 8)) × Int) :=
  match elf.phdrnum with
  | none => .ok (none, 0)
  | some phdrNum =>
      if phdrNum = 0 then .ok (none, 0)
      else Dump.result <$> dumpPhdrs heap elf (List.range phdrNum) ⟨none, 0⟩

/-- The sections that `dump_section_data` loads. -/
def GElfShdr.loaded (shdr : GElfShdr) : Bool :=
  shdr.shType == shtProgbits && shdr.shFlags &&& shfAlloc != 0 && shdr.shSize != 0

/-- The loop of `dump_section_data` over these sections; `data` is the section of the last
descriptor. -/
def dumpShdrs : List Nat → Option Nat → Dump → Except Fault (Option Dump)
  | [], _, d => .ok (some d)
  | curSection :: rest, data, d =>
      match elf.getshdr curSection with
      | none => .ok none
      | some shdr =>
          if shdr.loaded then
            let d := d.grow heap (shdr.shAddr + shdr.shSize)
            match elf.getdata curSection data with
            | none => .ok none
            | some bytes => do
                let buffer ← memcpy d.buffer shdr.shAddr.toNat bytes
                dumpShdrs rest (some curSection) { d with buffer := buffer }
          else dumpShdrs rest data d

/-- `dump_section_data`; `elf_nextscn` gives the sections behind the first in their order. -/
def dumpSectionData : Except Fault (Option (List (BitVec 8)) × Int) :=
  match elf.shdrnum with
  | none => .ok (none, 0)
  | some shdrNum =>
      if shdrNum = 0 then .ok (none, 0)
      else Dump.result <$> dumpShdrs heap elf (List.range' 1 (shdrNum - 1)) none ⟨none, 0⟩

/-! ## The loader -/

/-- `big_endian`, the buffer that is returned, and `*size`. -/
structure Loaded where
  bigEndian : Bool
  buf : Option (List (BitVec 8))
  size : Int
  deriving DecidableEq

/-- The dumps of `load_elf_file`: from the program headers, else from the sections. -/
def dumpData (bigEndian : Bool) : Except Fault Loaded := do
  let (buf, size) ← dumpProgramData heap elf
  match buf with
  | some bytes => .ok ⟨bigEndian, some bytes, size⟩
  | none =>
      let (buf, size) ← dumpSectionData heap' elf
      .ok ⟨bigEndian, buf, size⟩

/-- `load_elf_file`; a file that cannot be opened, or that libelf does not begin with, is
`none`. -/
def loadElfFile (bigEndian : Bool) (size : Int) (file : Option Elf) : Except Fault Loaded :=
  match file with
  | none => .ok ⟨bigEndian, none, size⟩
  | some elf =>
      if elf.kindElf then
        match elf.eiData with
        | none => .error .dangling
        | some order =>
            if order = elfdata2lsb then dumpData heap heap' elf false
            else if order = elfdata2msb then dumpData heap heap' elf true
            else .ok ⟨bigEndian, none, size⟩
      else .ok ⟨bigEndian, none, size⟩

/-! ## Reading an image -/

/-- `bin_file[address]`. -/
def byteAt (binFile : List (BitVec 8)) (address : Nat) : Except Fault (BitVec 8) :=
  match binFile[address]? with
  | some byte => .ok byte
  | none => .error .outOfBounds

/-- Four bytes as a word, the first one highest. -/
def word (b₀ b₁ b₂ b₃ : BitVec 8) : BitVec 32 :=
  b₀.setWidth 32 <<< 24 ||| b₁.setWidth 32 <<< 16 ||| b₂.setWidth 32 <<< 8 ||| b₃.setWidth 32

/-- `read_32`. -/
def read32 (bigEndian : Bool) (binFile : List (BitVec 8)) (address : Nat) :
    Except Fault (BitVec 32) := do
  let b₀ ← byteAt binFile address
  let b₁ ← byteAt binFile (address + 1)
  let b₂ ← byteAt binFile (address + 2)
  let b₃ ← byteAt binFile (address + 3)
  if bigEndian then .ok (word b₀ b₁ b₂ b₃) else .ok (word b₃ b₂ b₁ b₀)

end OrpsocCores.ElfLoader
