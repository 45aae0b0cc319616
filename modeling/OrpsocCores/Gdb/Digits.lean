import OrpsocCores.Foundation.Scanf
import OrpsocCores.Gdb.RoundTrip

/-!
# Numbers in packets

Registers and commands travel as hexadecimal digits.  The functions here are the
conversions of `gdb.c`; a character string is the list of the characters in front
of its terminator, and `storeString` is where the terminator matters: writing a
string into a buffer also writes the cell behind it.
-/

set_option autoImplicit false

namespace OrpsocCores.Gdb

/-- The bytes of a text. -/
def str (text : String) : List Byte := text.toList.map chr

/-- The memory from the start of a character buffer on. -/
abbrev Chars := Nat → Byte

/-- Write a string and its terminator. -/
def storeString (dest : Chars) (start : Nat) (text : List Byte) : Chars := fun i =>
  if i < start then dest i else (text ++ [0])[i - start]?.getD (dest i)

/-- The characters in front of the first terminator. -/
def cString (text : List Byte) : List Byte := text.takeWhile (· ≠ 0)

/-- The eight digits of a register. -/
def reg2hex (val : BitVec 32) : List Byte :=
  (List.range 8).map fun n => digit ((val >>> (28 - n * 4)) &&& 0xf).toNat

/-- The register that eight digits stand for. -/
def hex2reg (src : Chars) : BitVec 32 :=
  (List.range 8).foldl (fun val n => val ||| BitVec.ofInt 32 (hex (src n)) <<< (28 - n * 4)) 0

/-- Two digits for every character. -/
def ascii2hex (src : List Byte) : List Byte :=
  src.flatMap fun (ch : Byte) => [digit (ch >>> 4 &&& 0xf).toNat, digit (ch &&& 0xf).toNat]

/-- A character for every two digits. -/
def hex2ascii : List Byte → List Byte
  | high :: low :: rest =>
      ((BitVec.ofInt 8 (hex high) &&& 0xf) <<< 4 ||| (BitVec.ofInt 8 (hex low) &&& 0xf)) ::
        hex2ascii rest
  | _ => []

/-- `sprintf` with `%8x`: no leading zeros, filled up with blanks. -/
def sprintf8x (val : BitVec 32) : List Byte :=
  let blanks := min 7 ((reg2hex val).takeWhile (· = chr '0')).length
  List.replicate blanks (chr ' ') ++ (reg2hex val).drop blanks

@[simp] theorem reg2hex_length (val : BitVec 32) : (reg2hex val).length = 8 := by
  simp [reg2hex]

end OrpsocCores.Gdb
