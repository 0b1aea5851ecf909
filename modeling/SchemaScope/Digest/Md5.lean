/-
**The MD5 digest.**

A text is padded to a whole number of 64-byte blocks, and every block stirs a state of four words in
64 steps.  The digest is the final state, written as 32 hexadecimal digits.

Main definitions:

* `Md5.padded` — the bytes with their padding;
* `Md5.State`, `Md5.compress` — the state, and what a block does to it;
* `Md5.hex` — the digest of bytes, as text.
-/

set_option autoImplicit false

namespace SchemaScope.Md5

/-- The constants that are added in the 64 steps. -/
def constants : List UInt32 :=
  [0xd76aa478, 0xe8c7b756, 0x242070db, 0xc1bdceee, 0xf57c0faf, 0x4787c62a, 0xa8304613, 0xfd469501,
    0x698098d8, 0x8b44f7af, 0xffff5bb1, 0x895cd7be, 0x6b901122, 0xfd987193, 0xa679438e,
    0x49b40821, 0xf61e2562, 0xc040b340, 0x265e5a51, 0xe9b6c7aa, 0xd62f105d, 0x02441453,
    0xd8a1e681, 0xe7d3fbc8, 0x21e1cde6, 0xc33707d6, 0xf4d50d87, 0x455a14ed, 0xa9e3e905,
    0xfcefa3f8, 0x676f02d9, 0x8d2a4c8a, 0xfffa3942, 0x8771f681, 0x6d9d6122, 0xfde5380c,
    0xa4beea44, 0x4bdecfa9, 0xf6bb4b60, 0xbebfbc70, 0x289b7ec6, 0xeaa127fa, 0xd4ef3085,
    0x04881d05, 0xd9d4d039, 0xe6db99e5, 0x1fa27cf8, 0xc4ac5665, 0xf4292244, 0x432aff97,
    0xab9423a7, 0xfc93a039, 0x655b59c3, 0x8f0ccc92, 0xffeff47d, 0x85845dd1, 0x6fa87e4f,
    0xfe2ce6e0, 0xa3014314, 0x4e0811a1, 0xf7537e82, 0xbd3af235, 0x2ad7d2bb, 0xeb86d391]

/-- The distances by which the 64 steps rotate. -/
def rotations : List UInt32 :=
  [7, 12, 17, 22, 7, 12, 17, 22, 7, 12, 17, 22, 7, 12, 17, 22, 5, 9, 14, 20, 5, 9, 14, 20, 5, 9,
    14, 20, 5, 9, 14, 20, 4, 11, 16, 23, 4, 11, 16, 23, 4, 11, 16, 23, 4, 11, 16, 23, 6, 10, 15,
    21, 6, 10, 15, 21, 6, 10, 15, 21, 6, 10, 15, 21]

/-- The four words of the state. -/
structure State where
  a : UInt32
  b : UInt32
  c : UInt32
  d : UInt32
  deriving DecidableEq, Repr, Inhabited

/-- The state before the first block. -/
def State.start : State := ⟨0x67452301, 0xefcdab89, 0x98badcfe, 0x10325476⟩

/-- Bytes as words, least byte first. -/
def words : List UInt8 → List UInt32
  | w :: x :: y :: z :: rest =>
      (w.toUInt32 ||| (x.toUInt32 <<< 8) ||| (y.toUInt32 <<< 16) ||| (z.toUInt32 <<< 24)) ::
        words rest
  | _ => []

/-- The lowest bytes of a number, least byte first. -/
def littleEndian : Nat → Nat → List UInt8
  | 0, _ => []
  | count + 1, n => UInt8.ofNat n :: littleEndian count (n / 256)

/-- A mark, zeros, and the number of bits in eight bytes fill the last block. -/
def padded (bytes : List UInt8) : List UInt8 :=
  let size := bytes.length
  let zeros := (119 - size % 64) % 64
  bytes ++ 0x80 :: List.replicate zeros 0 ++ littleEndian 8 (8 * size)

/-- A word rotated to the left. -/
def rotate (x n : UInt32) : UInt32 := (x <<< n) ||| (x >>> (32 - n))

/-- The mixing function of a step, and the index of the word that the step takes from the block. -/
def mix (i : Nat) (s : State) : UInt32 × Nat :=
  if i < 16 then ((s.b &&& s.c) ||| (~~~s.b &&& s.d), i)
  else if i < 32 then ((s.d &&& s.b) ||| (~~~s.d &&& s.c), (5 * i + 1) % 16)
  else if i < 48 then (s.b ^^^ s.c ^^^ s.d, (3 * i + 5) % 16)
  else (s.c ^^^ (s.b ||| ~~~s.d), 7 * i % 16)

/-- One step. -/
def step (block : List UInt32) (s : State) (i : Nat) (constant rotation : UInt32) : State :=
  let (f, g) := mix i s
  let sum := f + s.a + constant + block.getD g 0
  ⟨s.d, s.b + rotate sum rotation, s.b, s.c⟩

/-- The 64 steps of a block. -/
def steps (block : List UInt32) (s : State) : State :=
  ((constants.zip rotations).zipIdx).foldl (fun s ((k, r), i) => step block s i k r) s

/-- What a block does to the state. -/
def compress (s : State) (block : List UInt32) : State :=
  let t := steps block s
  ⟨s.a + t.a, s.b + t.b, s.c + t.c, s.d + t.d⟩

/-- The state after all blocks, at most `count` of them. -/
def absorb : Nat → State → List UInt32 → State
  | 0, s, _ => s
  | count + 1, s, ws =>
      if ws.isEmpty then s else absorb count (compress s (ws.take 16)) (ws.drop 16)

/-- A byte as two hexadecimal digits. -/
def hexByte (n : Nat) : List Char := [Nat.digitChar (n / 16 % 16), Nat.digitChar (n % 16)]

/-- A word as eight hexadecimal digits, least byte first. -/
def hexWord (w : UInt32) : List Char := (littleEndian 4 w.toNat).flatMap fun b => hexByte b.toNat

/-- The digest of bytes. -/
def hexOfBytes (bytes : List UInt8) : List Char :=
  let ws := words (padded bytes)
  let s := absorb (ws.length / 16) State.start ws
  hexWord s.a ++ hexWord s.b ++ hexWord s.c ++ hexWord s.d

/-- The digest of a text. -/
def hex (text : String) : String := String.ofList (hexOfBytes text.toUTF8.toList)

end SchemaScope.Md5
