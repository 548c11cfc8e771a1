/-!
# BLAKE3

The BLAKE3 hash of a sequence of bytes, without a key and with 256 bits of output. The input is
cut into chunks of 1024 bytes, each chunk is compressed block by block into a chaining value, and
the chaining values are the leaves of a binary tree whose root is the digest. Two neighbours make
a parent on each level, and a node without a neighbour goes up a level as it is; so the left half
of every tree holds the greatest power of two of chunks below their number.
-/

namespace CodeTidy.Blake3

/-- A digest of 256 bits, as eight words. -/
structure Digest where
  words : Vector UInt32 8
deriving DecidableEq

/-- The state of a compression: sixteen words. -/
abbrev Words := Vector UInt32 16

/-- The initial chaining value. -/
def iv : Vector UInt32 8 :=
  #v[0x6a09e667, 0xbb67ae85, 0x3c6ef372, 0xa54ff53a, 0x510e527f, 0x9b05688c, 0x1f83d9ab, 0x5be0cd19]

/-- The word rotated to the right by `n` bits, where `0 < n < 32`. -/
def rotateRight (w n : UInt32) : UInt32 := (w >>> n) ||| (w <<< (32 - n))

/-- Mixes two words of the message into four words of the state. -/
def quarter (s : Words) (a b c d : Fin 16) (x y : UInt32) : Words :=
  let va := s[a] + s[b] + x
  let vd := rotateRight (s[d] ^^^ va) 16
  let vc := s[c] + vd
  let vb := rotateRight (s[b] ^^^ vc) 12
  let va := va + vb + y
  let vd := rotateRight (vd ^^^ va) 8
  let vc := vc + vd
  let vb := rotateRight (vb ^^^ vc) 7
  (((s.set a va).set b vb).set c vc).set d vd

/-- Mixes the message into the columns of the state and then into its diagonals. -/
def round (s m : Words) : Words :=
  let s := quarter s 0 4 8 12 m[0] m[1]
  let s := quarter s 1 5 9 13 m[2] m[3]
  let s := quarter s 2 6 10 14 m[4] m[5]
  let s := quarter s 3 7 11 15 m[6] m[7]
  let s := quarter s 0 5 10 15 m[8] m[9]
  let s := quarter s 1 6 11 12 m[10] m[11]
  let s := quarter s 2 7 8 13 m[12] m[13]
  quarter s 3 4 9 14 m[14] m[15]

/-- The order in which a round takes the words of the message in front of it. -/
def permute (m : Words) : Words :=
  #v[m[2], m[6], m[3], m[10], m[7], m[0], m[4], m[13],
    m[1], m[11], m[12], m[5], m[9], m[14], m[15], m[8]]

/-- Some rounds, each on the message permuted once more. -/
def rounds : Nat → Words → Words → Words
  | 0, s, _ => s
  | n + 1, s, m => rounds n (round s m) (permute m)

namespace Flags

/-- The first block of a chunk. -/
def start : UInt32 := 1

/-- The last block of a chunk. -/
def finish : UInt32 := 2

/-- A node with two children. -/
def parent : UInt32 := 4

/-- The root of the tree. -/
def root : UInt32 := 8

end Flags

/-- The chaining value behind a block of `length` bytes. `counter` is the number of the chunk. -/
def compress (cv : Vector UInt32 8) (block : Words) (counter : Nat) (length flags : UInt32) :
    Vector UInt32 8 :=
  let s : Words :=
    #v[cv[0], cv[1], cv[2], cv[3], cv[4], cv[5], cv[6], cv[7], iv[0], iv[1], iv[2], iv[3],
      counter.toUInt32, (counter >>> 32).toUInt32, length, flags]
  let s := rounds 7 s block
  #v[s[0] ^^^ s[8], s[1] ^^^ s[9], s[2] ^^^ s[10], s[3] ^^^ s[11],
    s[4] ^^^ s[12], s[5] ^^^ s[13], s[6] ^^^ s[14], s[7] ^^^ s[15]]

/-- The little-endian word of the four bytes from `i` on, with zeros behind the end. -/
def wordAt (input : ByteArray) (stop i : Nat) : UInt32 :=
  let byte (j : Nat) : UInt32 := if j < stop then (input[j]?.getD 0).toUInt32 else 0
  byte i ||| (byte (i + 1) <<< 8) ||| (byte (i + 2) <<< 16) ||| (byte (i + 3) <<< 24)

/-- The sixteen words of the block that starts at `i` and ends in front of `stop`. -/
def blockAt (input : ByteArray) (stop i : Nat) : Words :=
  Vector.ofFn fun k => wordAt input stop (i + 4 * k.val)

/-- The chaining value of the blocks from `i` on of the chunk that ends in front of `stop`. A
chunk has sixteen blocks at most, which is the fuel. -/
def blocks (input : ByteArray) (stop counter : Nat) (rootFlag : UInt32) :
    Nat → Nat → UInt32 → Vector UInt32 8 → Vector UInt32 8
  | 0, _, _, cv => cv
  | fuel + 1, i, startFlag, cv =>
    if i + 64 < stop then
      let cv := compress cv (blockAt input stop i) counter 64 startFlag
      blocks input stop counter rootFlag fuel (i + 64) 0 cv
    else
      compress cv (blockAt input stop i) counter (stop - i).toUInt32
        (startFlag ||| Flags.finish ||| rootFlag)

/-- The chaining value of the chunk of the given number. -/
def chunk (input : ByteArray) (rootFlag : UInt32) (counter : Nat) : Vector UInt32 8 :=
  let i := 1024 * counter
  let stop := min input.size (i + 1024)
  blocks input stop counter rootFlag 16 i Flags.start iv

/-- The chaining value of the parent of two nodes. -/
def parent (rootFlag : UInt32) (l r : Vector UInt32 8) : Vector UInt32 8 :=
  compress iv (l ++ r) 0 64 (Flags.parent ||| rootFlag)

/-- The parents of neighbouring nodes, reversed and in front of `acc`. -/
def pairUp (acc : List (Vector UInt32 8)) : List (Vector UInt32 8) → List (Vector UInt32 8)
  | l :: r :: rest => pairUp (parent 0 l r :: acc) rest
  | [l] => (l :: acc).reverse
  | [] => acc.reverse

/-- The root over a level of the tree. Each level is shorter than the one below, so the number of
nodes is enough fuel. -/
def root : Nat → List (Vector UInt32 8) → Vector UInt32 8
  | _, [l, r] => parent Flags.root l r
  | 0, _ => iv
  | fuel + 1, nodes => root fuel (pairUp [] nodes)

/-- The digest of some bytes. -/
def digest (input : ByteArray) : Digest :=
  let chunks := (input.size + 1023) / 1024
  if chunks ≤ 1 then ⟨chunk input Flags.root 0⟩
  else ⟨root chunks ((List.range chunks).map (chunk input 0))⟩

/-- The two hexadecimal digits of a byte. -/
def hexByte (n : UInt32) : List Char :=
  let digit (k : UInt32) : Char := "0123456789abcdef".toList.getD k.toNat '0'
  [digit (n >>> 4 &&& 15), digit (n &&& 15)]

/-- The digest as 64 hexadecimal digits, the words little-endian. -/
def Digest.hex (d : Digest) : String :=
  String.ofList <| d.words.toList.flatMap fun w =>
    hexByte w ++ hexByte (w >>> 8) ++ hexByte (w >>> 16) ++ hexByte (w >>> 24)

end CodeTidy.Blake3
