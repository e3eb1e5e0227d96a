import Pkgset.Sha256

/-!
# Shorter hash functions

MD5 and SHA-1 work on blocks of sixteen words of four bytes, MD5 with low bytes first.
SHA-224 is SHA-256 from another state, without the end of the hash.
-/

namespace Pkgset.Digest

/-- Rotation to the left by `n` bits, for `0 < n < 32`. -/
def rotate (x : UInt32) (n : UInt32) : UInt32 := (x <<< n) ||| (x >>> (32 - n))

/-- Takes sixteen words after the other into a state. -/
def absorb {σ : Type} (compress : σ → List UInt32 → σ) (state : σ) (words : List UInt32) : σ :=
  if (words.take 16).length < 16 then state else absorb compress (compress state (words.take 16)) (words.drop 16)
termination_by words.length
decreasing_by simp only [List.length_take, List.length_drop] at *; omega

/-! ## SHA-1 -/

/-- The five words that SHA-1 mixes. -/
structure Five where
  a : UInt32
  b : UInt32
  c : UInt32
  d : UInt32
  e : UInt32

/-- Adds `count` words to a schedule that is held with its latest word first. -/
def extend : Nat → List UInt32 → List UInt32
  | 0, words => words
  | count + 1, words =>
    let word := words.getD 2 0 ^^^ words.getD 7 0 ^^^ words.getD 13 0 ^^^ words.getD 15 0
    extend count (rotate word 1 :: words)

/-- One round of SHA-1, with its word and its number. -/
def Five.round (s : Five) (input : UInt32 × Nat) : Five :=
  let (word, n) := input
  let (f, k) : UInt32 × UInt32 :=
    if n < 20 then ((s.b &&& s.c) ||| ((~~~ s.b) &&& s.d), 0x5a827999)
    else if n < 40 then (s.b ^^^ s.c ^^^ s.d, 0x6ed9eba1)
    else if n < 60 then ((s.b &&& s.c) ||| (s.b &&& s.d) ||| (s.c &&& s.d), 0x8f1bbcdc)
    else (s.b ^^^ s.c ^^^ s.d, 0xca62c1d6)
  ⟨rotate s.a 5 + f + s.e + k + word, s.a, rotate s.b 30, s.c, s.d⟩

/-- Mixes one block into the state of SHA-1. -/
def Five.compress (s : Five) (block : List UInt32) : Five :=
  let t := ((extend 64 block.reverse).reverse.zipIdx).foldl Five.round s
  ⟨s.a + t.a, s.b + t.b, s.c + t.c, s.d + t.d, s.e + t.e⟩

/-- The hash SHA-1 as 40 hexadecimal digits. -/
def sha1 (message : Bytes) : String :=
  let s := absorb Five.compress ⟨0x67452301, 0xefcdab89, 0x98badcfe, 0x10325476, 0xc3d2e1f0⟩
    (Sha256.words (Sha256.pad message))
  Bytes.hex ([s.a, s.b, s.c, s.d, s.e].flatMap fun word => Sha256.bigEndian 4 word.toNat)

/-! ## MD5 -/

/-- The four words that MD5 mixes. -/
structure Four where
  a : UInt32
  b : UInt32
  c : UInt32
  d : UInt32

/-- The constants of the rounds of MD5: the sines of the first 64 numbers, in parts of
    2³². -/
def sines : List UInt32 := [
  0xd76aa478, 0xe8c7b756, 0x242070db, 0xc1bdceee, 0xf57c0faf, 0x4787c62a, 0xa8304613, 0xfd469501,
  0x698098d8, 0x8b44f7af, 0xffff5bb1, 0x895cd7be, 0x6b901122, 0xfd987193, 0xa679438e, 0x49b40821,
  0xf61e2562, 0xc040b340, 0x265e5a51, 0xe9b6c7aa, 0xd62f105d, 0x02441453, 0xd8a1e681, 0xe7d3fbc8,
  0x21e1cde6, 0xc33707d6, 0xf4d50d87, 0x455a14ed, 0xa9e3e905, 0xfcefa3f8, 0x676f02d9, 0x8d2a4c8a,
  0xfffa3942, 0x8771f681, 0x6d9d6122, 0xfde5380c, 0xa4beea44, 0x4bdecfa9, 0xf6bb4b60, 0xbebfbc70,
  0x289b7ec6, 0xeaa127fa, 0xd4ef3085, 0x04881d05, 0xd9d4d039, 0xe6db99e5, 0x1fa27cf8, 0xc4ac5665,
  0xf4292244, 0x432aff97, 0xab9423a7, 0xfc93a039, 0x655b59c3, 0x8f0ccc92, 0xffeff47d, 0x85845dd1,
  0x6fa87e4f, 0xfe2ce6e0, 0xa3014314, 0x4e0811a1, 0xf7537e82, 0xbd3af235, 0x2ad7d2bb, 0xeb86d391]

/-- How far the rounds of MD5 rotate, four after another in each quarter. -/
def turns : List (List UInt32) := [[7, 12, 17, 22], [5, 9, 14, 20], [4, 11, 16, 23], [6, 10, 15, 21]]

/-- One round of MD5 on a block, with its constant and its number. -/
def Four.round (block : Array UInt32) (s : Four) (input : UInt32 × Nat) : Four :=
  let (constant, n) := input
  let (f, place) : UInt32 × Nat :=
    if n < 16 then ((s.b &&& s.c) ||| ((~~~ s.b) &&& s.d), n)
    else if n < 32 then ((s.d &&& s.b) ||| ((~~~ s.d) &&& s.c), (5 * n + 1) % 16)
    else if n < 48 then (s.b ^^^ s.c ^^^ s.d, (3 * n + 5) % 16)
    else (s.c ^^^ (s.b ||| (~~~ s.d)), (7 * n) % 16)
  let turn := (turns.getD (n / 16) []).getD (n % 4) 0
  ⟨s.d, s.b + rotate (s.a + f + constant + block.getD place 0) turn, s.b, s.c⟩

/-- Mixes one block into the state of MD5. -/
def Four.compress (s : Four) (block : List UInt32) : Four :=
  let t := sines.zipIdx.foldl (Four.round block.toArray) s
  ⟨s.a + t.a, s.b + t.b, s.c + t.c, s.d + t.d⟩

/-- The low `count` bytes of a number, low bytes first. -/
def littleEndian (count n : Nat) : Bytes := (Sha256.bigEndian count n).reverse

/-- The words of a byte sequence, low bytes first. -/
def wordsFromLow : Bytes → List UInt32
  | a :: b :: c :: d :: rest =>
    (a.toUInt32 ||| (b.toUInt32 <<< 8) ||| (c.toUInt32 <<< 16) ||| (d.toUInt32 <<< 24)) :: wordsFromLow rest
  | _ => []

/-- The hash MD5 as 32 hexadecimal digits. -/
def md5 (message : Bytes) : String :=
  let padded := message ++ 0x80 :: List.replicate ((119 - message.length % 64) % 64) 0 ++
    littleEndian 8 (8 * message.length)
  let s := absorb Four.compress ⟨0x67452301, 0xefcdab89, 0x98badcfe, 0x10325476⟩ (wordsFromLow padded)
  Bytes.hex ([s.a, s.b, s.c, s.d].flatMap fun word => littleEndian 4 word.toNat)

/-! ## SHA-224 -/

/-- The first state of SHA-224. -/
def initial224 : Sha256.State := ⟨
  0xc1059ed8, 0x367cd507, 0x3070dd17, 0xf70e5939, 0xffc00b31, 0x68581511, 0x64f98fa7, 0xbefa4fa4⟩

/-- The hash SHA-224 as 56 hexadecimal digits. -/
def sha224 (message : Bytes) : String :=
  let s := Sha256.absorb initial224 (Sha256.words (Sha256.pad message))
  Bytes.hex ([s.a, s.b, s.c, s.d, s.e, s.f, s.g].flatMap fun word => Sha256.bigEndian 4 word.toNat)

/-! ## Checksums -/

/-- The remainder of a byte that is divided by the polynomial of checksums. -/
def remainder (byte : UInt32) : UInt32 :=
  (List.range 8).foldl (fun rest _ =>
    if rest &&& 0x80000000 = 0 then rest <<< 1 else (rest <<< 1) ^^^ 0x04c11db7) (byte <<< 24)

/-- The remainders of all bytes. -/
def remainders : Array UInt32 := ((List.range 256).map fun n => remainder (UInt32.ofNat n)).toArray

/-- The cyclic checksum of a message and of the bytes of its length, low bytes first. -/
def cyclic (message : Bytes) : Nat :=
  let size := message.length
  let count := ((List.range 9).find? fun count => size < Nat.pow 256 count).getD 8
  let step (sum : UInt32) (byte : UInt8) : UInt32 :=
    (sum <<< 8) ^^^ remainders.getD (((sum >>> 24) ^^^ byte.toUInt32) % 256).toNat 0
  (~~~ ((message ++ littleEndian count size).foldl step 0)).toNat

/-- The sum of bytes in 16 bits, rotated to the right before each. -/
def rotatingSum (message : Bytes) : Nat :=
  message.foldl (fun sum byte => (sum / 2 + (sum % 2) * 32768 + byte.toNat) % 65536) 0

/-- The sum of bytes, folded to 16 bits. -/
def foldedSum (message : Bytes) : Nat :=
  let sum := (message.foldl (fun sum byte => sum + byte.toNat) 0) % Nat.pow 2 32
  let half := sum % 65536 + sum / 65536
  half % 65536 + half / 65536

end Pkgset.Digest
