import OrpsocCores.Foundation.Or1k
import OrpsocCores.Foundation.WordMemory

/-!
# The boot loader

`spi_uimage_loader.S` is the program in the boot ROM of the `de0_nano` system.  It reads an
image from a serial flash through the SPI core `simple_spi`, stores it in the memory and
jumps to its entry point.  `rom` is the assembled program as `spi_uimage_loader.vh` has it,
and `program` the source; the addresses of the labels are resolved in it, and so are the
constants (`SPI_BASE` 0xB0000000, `BOOTROM_ADDR` 0x80000, `INIT_DELAY` 1250).

The SPI core and the flash are not part of this repository.  `Spi` is what the program
relies on: the core's registers behave as its manual says, and the flash answers a READ
command with the bytes from the address on.
-/

set_option autoImplicit false

namespace OrpsocCores.BootLoader

open Or1k

/-! ## The program -/

def rom : List Word :=
  [0x18000000, 0x18400000, 0x18a00000, 0x18200000, 0xa82104e2, 0xbc010000,
   0x0fffffff, 0x9c21ffff, 0x1880b000, 0xa8400051, 0xd8041000, 0xd8040004,
   0xa8c00001, 0xd8043004, 0xa8a00001, 0x04000022, 0xa8600003, 0x04000020,
   0xa8600008, 0x0400001e, 0xa8600000, 0x0400001c, 0xa860000c, 0xa8a00004,
   0x04000019, 0x15000000, 0xe1620004, 0x04000016, 0x15000000, 0xe1820004,
   0x04000013, 0x15000000, 0xe1a20004, 0xa8c00009, 0x0400000f, 0x15000000,
   0xbc060000, 0x0ffffffd, 0x9cc6ffff, 0x18c00000, 0x04000009, 0xe0ec3000,
   0xd4071000, 0x9cc60004, 0xe4665800, 0x0ffffffb, 0x15000000, 0x44006800,
   0xd8040004, 0xe0250004, 0xd8041802, 0xa8600001, 0xa4630001, 0xbc030001,
   0x13fffffe, 0x8c640001, 0x8c640002, 0xb8420008, 0xe0421804, 0xbc010001,
   0x0ffffff6, 0x9c21ffff, 0x44004800, 0x15000000]

/-- Where the ROM is, and the reset vector. -/
def romBase : Word := 0xf0000000

/-- The instructions the processor fetches. -/
def code (a : Word) : Option Instr :=
  if Aligned a then rom[(a - romBase).toNat / 4]?.bind decode else none

def bootInit : List Instr :=
  [.movhi 0 0, .movhi 2 0, .movhi 5 0, .movhi 1 0, .ori 1 1 1250,
   .sfeqi 1 0, .bnf (-1), .addi 1 1 (-1),
   .movhi 4 0xb000]

def spiInit : List Instr :=
  [.ori 2 0 0x51, .sb 0 4 2, .sb 4 4 0, .ori 6 0 1, .sb 4 4 6,
   .ori 5 0 1, .jal 34, .ori 3 0 0x3, .jal 32, .ori 3 0 0x08, .jal 30, .ori 3 0 0x00,
   .jal 28, .ori 3 0 0x0c, .ori 5 0 4]

def getSize : List Instr := [.jal 25, .nop 0, .or 11 2 0]

def getLoadAddr : List Instr := [.jal 22, .nop 0, .or 12 2 0]

def getEntryPoint : List Instr := [.jal 19, .nop 0, .or 13 2 0, .ori 6 0 9]

def getRest : List Instr := [.jal 15, .nop 0, .sfeqi 6 0, .bnf (-3), .addi 6 6 (-1), .movhi 6 0]

def copy : List Instr :=
  [.jal 9, .add 7 12 6, .sw 0 7 2, .addi 6 6 4, .sfgeu 6 11, .bnf (-5), .nop 0]

def gotoReset : List Instr := [.jr 13, .sb 4 4 0]

def spiXfer : List Instr := [.or 1 5 0]

def spiXferLoop : List Instr := [.sb 2 4 3, .ori 3 0 1]

def spiXferPoll : List Instr :=
  [.andi 3 3 1, .sfeqi 3 1, .bf (-2), .lbz 3 4 1, .lbz 3 4 2, .slli 2 2 8, .or 2 2 3,
   .sfeqi 1 1, .bnf (-10), .addi 1 1 (-1), .jr 9, .nop 0]

def program : List Instr :=
  bootInit ++ spiInit ++ getSize ++ getLoadAddr ++ getEntryPoint ++ getRest ++ copy ++
    gotoReset ++ spiXfer ++ spiXferLoop ++ spiXferPoll

/-- **The ROM holds the assembled program.** -/
theorem decode_rom : rom.map decode = program.map some := by decide

/-! ## The bus -/

def spiBase : Word := 0xb0000000

/-- The registers of the SPI core. -/
def SPCR : BitVec 3 := 0
def SPSR : BitVec 3 := 1
def SPDR : BitVec 3 := 2
def SPSS : BitVec 3 := 4

/-- The SPI core, with the flash behind it. -/
structure Spi where
  Core : Type
  read : Core → BitVec 3 → Byte × Core
  write : Core → BitVec 3 → Byte → Core

/-- The bytes sent to the flash ask to read from `a` on, and `n` bytes more were sent. -/
def Reads (sent : List Byte) (a n : Nat) : Prop :=
  ∃ a2 a1 a0 : Byte, ∃ rest : List Byte, sent = [0x03, a2, a1, a0] ++ rest ∧ rest.length = n ∧
    a = (a2 ++ a1 ++ a0).toNat

/-- How the SPI core and the flash behave, for a flash with these contents. -/
structure Spi.Documented (spi : Spi) (contents : Nat → Byte) where
  /-- The core is as its reset has left it. -/
  AtReset : spi.Core → Prop
  /-- The flash is selected, and these bytes were sent to it since. -/
  Idle : spi.Core → List Byte → Prop
  /-- A byte is sent, and the status tells `n` times that the answer is not there. -/
  Busy : Nat → spi.Core → List Byte → Byte → Prop
  /-- The flash is not selected. -/
  Released : spi.Core → Prop
  selected : ∀ {c}, AtReset c →
    Idle (spi.write (spi.write (spi.write c SPCR 0x51) SPSS 0) SPSS 1) []
  started : ∀ {c sent} (b : Byte), Idle c sent → ∃ n, Busy n (spi.write c SPDR b) sent b
  waiting : ∀ {n c sent b}, Busy (n + 1) c sent b →
    (spi.read c SPSR).1.getLsbD 0 = true ∧ Busy n (spi.read c SPSR).2 sent b
  answered : ∀ {c sent b}, Busy 0 c sent b →
    (spi.read c SPSR).1.getLsbD 0 = false ∧ Busy 0 (spi.read c SPSR).2 sent b
  received : ∀ {c sent b}, Busy 0 c sent b → Idle (spi.read c SPDR).2 (sent ++ [b])
  contents : ∀ {c sent b a n}, Busy 0 c sent b → Reads sent a n →
    (spi.read c SPDR).1 = contents (a + n)
  released : ∀ {c sent}, Idle c sent → Released (spi.write c SPSS 0)

/-- The address is one of the 32 MB of memory. -/
def InRam (a : Word) : Prop := a.toNat < 0x2000000

instance (a : Word) : Decidable (InRam a) := inferInstanceAs (Decidable (_ < _))

/-- The address is one of the eight of the SPI core. -/
def InSpi (a : Word) : Prop := a &&& 0xfffffff8 = spiBase

instance (a : Word) : Decidable (InSpi a) := inferInstanceAs (Decidable (_ = _))

/-- The bus of the system, as far as the program uses it. -/
def bus (spi : Spi) : Bus (spi.Core × Memory) where
  loadByte := fun (c, m) a =>
    if InSpi a then some ((spi.read c (a.setWidth 3)).1, ((spi.read c (a.setWidth 3)).2, m))
    else if InRam a then some (m a, (c, m))
    else none
  storeByte := fun (c, m) a x =>
    if InSpi a then some (spi.write c (a.setWidth 3) x, m)
    else if InRam a then some (c, Function.update m a x)
    else none
  storeWord := fun (c, m) a x => if InRam a then some (c, writeWord m a x) else none

end OrpsocCores.BootLoader
