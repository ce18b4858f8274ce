/-!
# MD5 digests

A digest of 128 bits of a list of bytes. The bytes are padded to blocks of 64; each block updates four
words in 64 rounds. Words are little-endian.
-/

namespace TrafficKey.Digest

/-- The four words that blocks update. -/
structure Words where
  a : UInt32
  b : UInt32
  c : UInt32
  d : UInt32
deriving DecidableEq, Repr

namespace Words

/-- The words before the first block. -/
def initial : Words := ⟨0x67452301, 0xefcdab89, 0x98badcfe, 0x10325476⟩

/-- The sum of two states, word by word. -/
def add (v w : Words) : Words :=
  ⟨v.a + w.a, v.b + w.b, v.c + w.c, v.d + w.d⟩

end Words

/-- The constants of the 64 rounds: the first 32 bits of the fraction of `|sin (i + 1)|`. -/
def roundConstants : Array UInt32 := #[
  0xd76aa478, 0xe8c7b756, 0x242070db, 0xc1bdceee, 0xf57c0faf, 0x4787c62a,
  0xa8304613, 0xfd469501, 0x698098d8, 0x8b44f7af, 0xffff5bb1, 0x895cd7be,
  0x6b901122, 0xfd987193, 0xa679438e, 0x49b40821, 0xf61e2562, 0xc040b340,
  0x265e5a51, 0xe9b6c7aa, 0xd62f105d, 0x02441453, 0xd8a1e681, 0xe7d3fbc8,
  0x21e1cde6, 0xc33707d6, 0xf4d50d87, 0x455a14ed, 0xa9e3e905, 0xfcefa3f8,
  0x676f02d9, 0x8d2a4c8a, 0xfffa3942, 0x8771f681, 0x6d9d6122, 0xfde5380c,
  0xa4beea44, 0x4bdecfa9, 0xf6bb4b60, 0xbebfbc70, 0x289b7ec6, 0xeaa127fa,
  0xd4ef3085, 0x04881d05, 0xd9d4d039, 0xe6db99e5, 0x1fa27cf8, 0xc4ac5665,
  0xf4292244, 0x432aff97, 0xab9423a7, 0xfc93a039, 0x655b59c3, 0x8f0ccc92,
  0xffeff47d, 0x85845dd1, 0x6fa87e4f, 0xfe2ce6e0, 0xa3014314, 0x4e0811a1,
  0xf7537e82, 0xbd3af235, 0x2ad7d2bb, 0xeb86d391]

/-- How far the rounds rotate: four amounts for each quarter, taken in turn. -/
def rotations : Array UInt32 := #[7, 12, 17, 22, 5, 9, 14, 20, 4, 11, 16, 23, 6, 10, 15, 21]

/-- Rotates a word to the left by an amount from 1 to 31. -/
def rotateLeft (x amount : UInt32) : UInt32 :=
  (x <<< amount) ||| (x >>> (32 - amount))

/-- One round on a block of sixteen words. Each quarter mixes the words in its own way and takes the words
of the block in its own order. -/
def round (block : Array UInt32) (w : Words) (i : Nat) : Words :=
  let (mixed, index) : UInt32 × Nat :=
    match i / 16 with
    | 0 => ((w.b &&& w.c) ||| (~~~w.b &&& w.d), i)
    | 1 => ((w.d &&& w.b) ||| (~~~w.d &&& w.c), 5 * i + 1)
    | 2 => (w.b ^^^ w.c ^^^ w.d, 3 * i + 5)
    | _ => (w.c ^^^ (w.b ||| ~~~w.d), 7 * i)
  let sum := w.a + mixed + roundConstants.getD i 0 + block.getD (index % 16) 0
  ⟨w.d, w.b + rotateLeft sum (rotations.getD (4 * (i / 16) + i % 4) 0), w.b, w.c⟩

/-- The words after a block. -/
def update (w : Words) (block : Array UInt32) : Words :=
  w.add ((List.range 64).foldl (round block) w)

/-- The `count` lowest bytes of a number, the lowest first. -/
def littleEndian (count n : Nat) : List UInt8 :=
  (List.range count).map fun i => (n / Nat.pow 256 i % 256).toUInt8

/-- The bytes with a one bit, zeros up to 8 bytes below a multiple of 64, and the number of bits. -/
def padded (bytes : List UInt8) : List UInt8 :=
  bytes ++ 0x80 :: List.replicate ((119 - bytes.length % 64) % 64) 0 ++
    littleEndian 8 (8 * bytes.length % Nat.pow 2 64)

/-- The words of bytes, four bytes each. -/
def wordsOf : List UInt8 → List UInt32
  | b₀ :: b₁ :: b₂ :: b₃ :: bytes =>
    (b₀.toUInt32 ||| (b₁.toUInt32 <<< 8) ||| (b₂.toUInt32 <<< 16) ||| (b₃.toUInt32 <<< 24)) ::
      wordsOf bytes
  | _ => []

/-- Updates the words with `count` blocks of sixteen words. -/
def updateAll : Nat → Words → List UInt32 → Words
  | 0, w, _ => w
  | count + 1, w, words => updateAll count (update w (words.take 16).toArray) (words.drop 16)

/-- The digest of bytes. -/
def md5 (bytes : List UInt8) : List UInt8 :=
  let words := wordsOf (padded bytes)
  let w := updateAll (words.length / 16) .initial words
  [w.a, w.b, w.c, w.d].flatMap fun x => littleEndian 4 x.toNat

/-- A byte as two hexadecimal digits. -/
def hexByte (b : UInt8) : List Char :=
  [Nat.digitChar (b.toNat / 16), Nat.digitChar (b.toNat % 16)]

/-- The first eight hexadecimal digits of the digest of a text in UTF-8. -/
def fingerprint (s : String) : String :=
  String.ofList ((md5 s.toUTF8.toList).flatMap hexByte |>.take 8)

end TrafficKey.Digest
