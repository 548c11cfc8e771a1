/-!
# Reading UTF-8

Bytes are read as characters. At the first byte that starts no character the reading ends with a
fault, which tells where, and how many bytes can be no part of a character; that is open if the
bytes end too early.
-/

namespace CodeTidy.Text

/-- The first fault of bytes that are not UTF-8: its place, and the number of bytes at fault unless
more bytes could have mended it. -/
structure Utf8Fault where
  offset : Nat
  length : Option Nat
deriving DecidableEq

/-- The fault in words. -/
def Utf8Fault.message (f : Utf8Fault) : String :=
  match f.length with
  | some n =>
    "invalid utf-8 sequence of " ++ toString n ++ " bytes from index " ++ toString f.offset
  | none => "incomplete utf-8 byte sequence from index " ++ toString f.offset

/-- The number of bytes of a character and the range of its second byte, told from its first. -/
def sequenceOf (b : UInt8) : Option (Nat × UInt8 × UInt8) :=
  if 0xc2 ≤ b && b ≤ 0xdf then some (2, 0x80, 0xbf)
  else if b == 0xe0 then some (3, 0xa0, 0xbf)
  else if b == 0xed then some (3, 0x80, 0x9f)
  else if 0xe1 ≤ b && b ≤ 0xef then some (3, 0x80, 0xbf)
  else if b == 0xf0 then some (4, 0x90, 0xbf)
  else if 0xf1 ≤ b && b ≤ 0xf3 then some (4, 0x80, 0xbf)
  else if b == 0xf4 then some (4, 0x80, 0x8f)
  else none

/-- Reads `n` more bytes of a character, the first of which lies between `lo` and `hi`. `seen` is
the number of bytes read so far and `code` what they denote. -/
def continuation (offset seen code : Nat) (lo hi : UInt8) :
    Nat → List UInt8 → Except Utf8Fault (Char × List UInt8)
  | 0, bs => .ok (Char.ofNat code, bs)
  | _ + 1, [] => .error ⟨offset, none⟩
  | n + 1, b :: bs =>
    if lo ≤ b && b ≤ hi then
      continuation offset (seen + 1) (64 * code + b.toNat % 64) 0x80 0xbf n bs
    else .error ⟨offset, some seen⟩

/-- Reads the character that starts with the byte `b`. -/
def nextChar (offset : Nat) (b : UInt8) (bs : List UInt8) :
    Except Utf8Fault (Char × List UInt8) :=
  if b < 0x80 then .ok (Char.ofNat b.toNat, bs)
  else
    match sequenceOf b with
    | none => .error ⟨offset, some 1⟩
    | some (size, lo, hi) =>
      let bits := if size == 2 then 32 else if size == 3 then 16 else 8
      continuation offset 1 (b.toNat % bits) lo hi (size - 1) bs

/-- Reads bytes as characters, which are put, reversed, in front of `acc`. Each takes a byte at
least, so the number of bytes is enough fuel. -/
def readUtf8 : Nat → Nat → List Char → List UInt8 → Except Utf8Fault (List Char)
  | 0, _, acc, _ => .ok acc.reverse
  | _ + 1, _, acc, [] => .ok acc.reverse
  | fuel + 1, offset, acc, b :: bs =>
    match nextChar offset b bs with
    | .error f => .error f
    | .ok (c, rest) => readUtf8 fuel (offset + c.utf8Size) (c :: acc) rest

/-- The characters that bytes stand for. -/
def ofUtf8 (bytes : ByteArray) : Except Utf8Fault (List Char) :=
  readUtf8 bytes.size 0 [] bytes.toList

end CodeTidy.Text
