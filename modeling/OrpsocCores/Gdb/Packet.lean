import OrpsocCores.Foundation.FixedBuffer

/-!
# Packets of the remote serial protocol

The debug server talks to its client in packets: `$`, a body, `#` and two
hexadecimal digits that give the sum of the body's bytes.  `putPacket` sends
one, `getPacket` waits for one and `rspUnescape` undoes the escaping of a body.
The definitions follow the functions of `gdb.c` loop by loop.

A client connection is the list of the bytes the client has sent, end of file
behind the last one, so that `get_rsp_char` is taking the head of that list.
What the server sends is a list too; `send_rsp_str` is taken to get its whole
argument written.  Every array access goes through `load` and `store`, which
fault outside the array.
-/

set_option autoImplicit false

namespace OrpsocCores.Gdb

open FixedBuffer

abbrev Byte := BitVec 8

/-- The byte of a character. -/
def chr (c : Char) : Byte := BitVec.ofNat 8 c.toNat

/-! ## Buffers -/

def maxGprs : Nat := 32

/-- The registers of the client: the general purpose ones, PPC, NPC and SR. -/
def numRegs : Nat := maxGprs + 3

/-- The size of the packet buffers, `GDB_BUF_MAX`. -/
def gdbBufMax : Nat := numRegs * 8 + 1

structure RspBuf where
  data : Vector Byte gdbBufMax
  len : Nat
  deriving DecidableEq

/-- The characters a buffer counts as its contents. -/
def RspBuf.text (buf : RspBuf) : List Byte := buf.data.toList.take buf.len

/-! ## Hexadecimal digits -/

/-- The value of a hexadecimal character, `-1` for any other one. -/
def hex (c : Byte) : Int :=
  if chr 'a' ≤ c ∧ c ≤ chr 'f' then (c.toNat : Int) - 'a'.toNat + 10
  else if chr '0' ≤ c ∧ c ≤ chr '9' then (c.toNat : Int) - '0'.toNat
  else if chr 'A' ≤ c ∧ c ≤ chr 'F' then (c.toNat : Int) - 'A'.toNat + 10
  else -1

/-- The digits by value, with the end-of-string character of the C array. -/
def hexchars : Vector Byte 17 :=
  #v[chr '0', chr '1', chr '2', chr '3', chr '4', chr '5', chr '6', chr '7', chr '8', chr '9',
    chr 'a', chr 'b', chr 'c', chr 'd', chr 'e', chr 'f', 0]

/-! ## `get_packet` -/

/-- Wait for the start character; `none` when the connection fails first. -/
def waitStart : List Byte → Option (List Byte)
  | [] => none
  | ch :: rest => if ch = chr '$' then some rest else waitStart rest

/-- The variables of `get_packet` when its fill loop ends, with the bytes not
read yet. -/
structure Filled where
  data : Vector Byte gdbBufMax
  checksum : Byte
  count : Nat
  ch : Byte
  rest : List Byte

/-- Read until a `#` or the end of the buffer is found; `none` when the
connection fails first. -/
def fill (data : Vector Byte gdbBufMax) (checksum : Byte) (count : Nat) (ch : Byte)
    (stream : List Byte) : Except Fault (Option Filled) :=
  if count < gdbBufMax - 1 then
    match stream with
    | [] => .ok none
    | ch :: rest =>
        -- a start character begins all over again
        if ch = chr '$' then fill data 0 0 ch rest
        else if ch = chr '#' then .ok (some ⟨data, checksum, count, ch, rest⟩)
        else
          match store data count ch with
          | .error fault => .error fault
          | .ok data => fill data (checksum + ch) (count + 1) ch rest
  else .ok (some ⟨data, checksum, count, ch, stream⟩)

/-- The checksum of a packet, as it is folded from the two characters that
carry it. -/
def xmitcsum (ch₁ ch₂ : Byte) : Byte := BitVec.ofInt 8 (hex ch₁ * 2 ^ 4) + BitVec.ofInt 8 (hex ch₂)

/-- What one call of `get_packet` leaves behind: the buffer it returns, `none`
for `NULL`, what it has sent to the client and what it has not read. -/
structure Received where
  packet : Option RspBuf
  sent : List Byte
  unread : List Byte
  deriving DecidableEq

/-- The outer loop of `get_packet`, for at most this many rounds. -/
def getPacketLoop : Nat → RspBuf → List Byte → Except Fault Received
  | 0, _, _ => .error .exhausted
  | rounds + 1, buf, stream =>
      match waitStart stream with
      | none => .ok ⟨none, [], []⟩
      | some stream =>
          match fill buf.data 0 0 (chr '$') stream with
          | .error fault => .error fault
          | .ok none => .ok ⟨none, [], []⟩
          | .ok (some filled) =>
              -- the end-of-string character behind the last one
              match store filled.data filled.count 0 with
              | .error fault => .error fault
              | .ok data =>
                  if filled.ch = chr '#' then
                    match filled.rest with
                    | ch₁ :: ch₂ :: rest =>
                        if filled.checksum ≠ xmitcsum ch₁ ch₂ then
                          (getPacketLoop rounds ⟨data, filled.count⟩ rest).map fun received =>
                            { received with sent := chr '-' :: received.sent }
                        else .ok ⟨some ⟨data, filled.count⟩, [chr '+'], rest⟩
                    | _ => .ok ⟨none, [], []⟩
                  else getPacketLoop rounds ⟨data, filled.count⟩ filled.rest

/-- `get_packet`, from the contents an earlier call left in its static buffer.
A round of the loop reads at least one byte, so that there is no need for more
rounds than bytes. -/
def getPacket (buf : RspBuf) (stream : List Byte) : Except Fault Received :=
  getPacketLoop (stream.length + 1) buf stream

/-! ## `put_packet` -/

/-- The variables of `put_packet` while it constructs a packet. -/
structure Construction where
  data : Vector Byte (gdbBufMax * 2)
  len : Nat
  checksum : Byte

/-- `data[len++] = ch`. -/
def Construction.put (c : Construction) (ch : Byte) : Except Fault Construction :=
  (store c.data c.len ch).map fun data => { c with data := data, len := c.len + 1 }

/-- The characters that are sent escaped. -/
def Escaped (ch : Byte) : Prop := ch = chr '$' ∨ ch = chr '#' ∨ ch = chr '*' ∨ ch = chr '}'

instance (ch : Byte) : Decidable (Escaped ch) := inferInstanceAs (Decidable (_ ∨ _))

/-- One character of the body. -/
def Construction.body (buf : RspBuf) (c : Construction) (count : Nat) :
    Except Fault Construction := do
  let ch ← load buf.data count
  if Escaped ch then
    let c ← Construction.put { c with checksum := c.checksum + chr '}' } (chr '}')
    Construction.put { c with checksum := c.checksum + (ch ^^^ 0x20) } (ch ^^^ 0x20)
  else
    Construction.put { c with checksum := c.checksum + ch } ch

/-- A packet for the buffer, constructed in an array with these contents. -/
def construct (buf : RspBuf) (data : Vector Byte (gdbBufMax * 2)) : Except Fault Construction := do
  let c ← Construction.put ⟨data, 0, 0⟩ (chr '$')
  let c ← (List.range buf.len).foldlM (Construction.body buf) c
  let c ← c.put (chr '#')
  let high ← load hexchars (c.checksum >>> 4).toNat
  let c ← c.put high
  let low ← load hexchars (c.checksum % 16).toNat
  c.put low

/-- `put_packet`: what is sent to a client that answers with these bytes, and
the bytes of the answer that are not read.  The packet is constructed and sent
again until the client has acknowledged it. -/
def putPacket (buf : RspBuf) (data : Vector Byte (gdbBufMax * 2)) :
    List Byte → Except Fault (List Byte × List Byte)
  | [] => do
      let c ← construct buf data
      return (c.data.toList.take c.len, [])
  | ch :: rest => do
      let c ← construct buf data
      if ch = chr '+' then
        return (c.data.toList.take c.len, rest)
      else
        let (sent, unread) ← putPacket buf c.data rest
        return (c.data.toList.take c.len ++ sent, unread)

/-! ## `rsp_unescape` -/

/-- The loop of `rsp_unescape`; the array and the number of bytes after the
conversion. -/
def rspUnescapeLoop {n : Nat} (len : Nat) (data : Vector Byte n) (fromOff toOff : Nat) :
    Except Fault (Vector Byte n × Nat) :=
  if fromOff < len then do
    let ch ← load data fromOff
    if ch = chr '}' then
      let ch ← load data (fromOff + 1)
      let data ← store data toOff (ch ^^^ 0x20)
      rspUnescapeLoop len data (fromOff + 2) (toOff + 1)
    else
      let data ← store data toOff ch
      rspUnescapeLoop len data (fromOff + 1) (toOff + 1)
  else .ok (data, toOff)
termination_by len - fromOff

/-- Convert the first `len` bytes in place. -/
def rspUnescape {n : Nat} (data : Vector Byte n) (len : Nat) : Except Fault (Vector Byte n × Nat) :=
  rspUnescapeLoop len data 0 0

end OrpsocCores.Gdb
