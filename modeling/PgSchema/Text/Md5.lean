/-
# MD5 digests

The digest of a byte string: blocks of sixteen words are folded into four words of state, and
the state is written in hexadecimal.  Index names use it to abbreviate expressions.
-/
import PgSchema.Text.Quoted

namespace PgSchema.Text.Md5

/-- The four words that the blocks are folded into. -/
structure State where
  a : UInt32
  b : UInt32
  c : UInt32
  d : UInt32
deriving DecidableEq, Repr

/-- The state before the first block. -/
def State.start : State := ⟨0x67452301, 0xEFCDAB89, 0x98BADCFE, 0x10325476⟩

/-- The constant added in each of the 64 steps. -/
def constants : List UInt32 :=
  [0xD76AA478, 0xE8C7B756, 0x242070DB, 0xC1BDCEEE, 0xF57C0FAF, 0x4787C62A, 0xA8304613, 0xFD469501,
   0x698098D8, 0x8B44F7AF, 0xFFFF5BB1, 0x895CD7BE, 0x6B901122, 0xFD987193, 0xA679438E, 0x49B40821,
   0xF61E2562, 0xC040B340, 0x265E5A51, 0xE9B6C7AA, 0xD62F105D, 0x02441453, 0xD8A1E681, 0xE7D3FBC8,
   0x21E1CDE6, 0xC33707D6, 0xF4D50D87, 0x455A14ED, 0xA9E3E905, 0xFCEFA3F8, 0x676F02D9, 0x8D2A4C8A,
   0xFFFA3942, 0x8771F681, 0x6D9D6122, 0xFDE5380C, 0xA4BEEA44, 0x4BDECFA9, 0xF6BB4B60, 0xBEBFBC70,
   0x289B7EC6, 0xEAA127FA, 0xD4EF3085, 0x04881D05, 0xD9D4D039, 0xE6DB99E5, 0x1FA27CF8, 0xC4AC5665,
   0xF4292244, 0x432AFF97, 0xAB9423A7, 0xFC93A039, 0x655B59C3, 0x8F0CCC92, 0xFFEFF47D, 0x85845DD1,
   0x6FA87E4F, 0xFE2CE6E0, 0xA3014314, 0x4E0811A1, 0xF7537E82, 0xBD3AF235, 0x2AD7D2BB, 0xEB86D391]

/-- The rotation of each of the 64 steps. -/
def rotations : List UInt32 :=
  let cycle (row : List UInt32) := (List.replicate 4 row).flatten
  cycle [7, 12, 17, 22] ++ cycle [5, 9, 14, 20] ++ cycle [4, 11, 16, 23] ++ cycle [6, 10, 15, 21]

/-- Rotation to the left. -/
def rotate (x count : UInt32) : UInt32 := (x <<< count) ||| (x >>> (32 - count))

/-- The mixing function of a step and the block word that it takes. -/
def mix (s : State) (i : Nat) : UInt32 × Nat :=
  if i < 16 then ((s.b &&& s.c) ||| ((~~~s.b) &&& s.d), i)
  else if i < 32 then ((s.d &&& s.b) ||| ((~~~s.d) &&& s.c), (5 * i + 1) % 16)
  else if i < 48 then (s.b ^^^ s.c ^^^ s.d, (3 * i + 5) % 16)
  else (s.c ^^^ (s.b ||| (~~~s.d)), 7 * i % 16)

/-- One of the 64 steps, with its number, constant and rotation. -/
def step (block : List UInt32) (s : State) (entry : Nat × UInt32 × UInt32) : State :=
  let (i, constant, rotation) := entry
  let (f, g) := mix s i
  ⟨s.d, s.b + rotate (s.a + f + constant + block.getD g 0) rotation, s.b, s.c⟩

/-- The 64 steps in order. -/
def steps : List (Nat × UInt32 × UInt32) :=
  (List.range 64).zip (constants.zip rotations)

/-- Folds one block into the state. -/
def absorb (s : State) (block : List UInt32) : State :=
  let t := steps.foldl (step block) s
  ⟨s.a + t.a, s.b + t.b, s.c + t.c, s.d + t.d⟩

/-- The bytes of a number, least significant first. -/
def littleEndian (count n : Nat) : List UInt8 :=
  (List.range count).map fun i => UInt8.ofNat (n / Nat.pow 256 i % 256)

/-- The message followed by a one bit, zeros and its length in bits, a whole number of blocks. -/
def pad (bytes : List UInt8) : List UInt8 :=
  bytes ++ 0x80 :: List.replicate ((119 - bytes.length % 64) % 64) 0 ++
    littleEndian 8 (8 * bytes.length)

/-- The word of four bytes, least significant first. -/
def word (bytes : List UInt8) : UInt32 :=
  bytes.foldr (fun byte w => w * 256 + byte.toUInt32) 0

/-- The first `count` groups of `size` items. -/
def groups (size : Nat) : Nat → List α → List (List α)
  | 0, _ => []
  | count + 1, xs => xs.take size :: groups size count (xs.drop size)

/-- The digest as bytes. -/
def digest (bytes : List UInt8) : List UInt8 :=
  let words := (groups 4 ((pad bytes).length / 4) (pad bytes)).map word
  let s := (groups 16 (words.length / 16) words).foldl absorb State.start
  [s.a, s.b, s.c, s.d].flatMap fun w => littleEndian 4 w.toNat

/-- The digest of the UTF-8 form of a text, in hexadecimal. -/
def hexDigest (s : String) : String :=
  String.join ((digest s.toUTF8.toList).map fun byte => hexadecimal 2 byte.toNat)

end PgSchema.Text.Md5
