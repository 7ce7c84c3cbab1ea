import HeavyHitters.PowerOfTwo

/-!
# The digest SHA-512

A text can be the seed of a source of draws; what is drawn then has to depend on all of it. So it
goes through a digest of 512 bits. The bytes, padded to full blocks of sixteen words, are absorbed
block by block into eight working words, with eighty rounds for each block. The constants are the
upper bits of the fractional parts of roots of prime numbers.
-/

namespace HeavyHitters.Digest

/-! ### Constants -/

/-- Whether a number is prime. -/
def isPrime (n : Nat) : Bool := 2 ≤ n && (List.range n).all fun d => d < 2 || n % d != 0

/-- The number of rounds for a block. -/
def rounds : Nat := 80

/-- The first eighty prime numbers. -/
def primes : List Nat := (List.range 410).filter isPrime

/-- The greatest number that agrees with `root` above its lower `bits` bits and whose power is at
most `n`. -/
def rootFrom (degree n : Nat) : (bits root : Nat) → Nat
  | 0, root => root
  | bits + 1, root =>
    let next := root + powerOfTwo bits
    rootFrom degree n bits (if Nat.pow next degree ≤ n then next else root)

/-- The first 64 binary digits behind the point of a root of a number below `2 ^ 10`. -/
def rootFraction (degree n : Nat) : UInt64 :=
  (rootFrom degree (n * powerOfTwo (64 * degree)) 70 0).toUInt64

/-- The constants of the rounds: of the cube roots of the first primes. -/
def roundConstants : List UInt64 := primes.map (rootFraction 3)

/-- The working words before the first block: of the square roots of the first eight primes. -/
def initialWords : List UInt64 := (primes.take 8).map (rootFraction 2)

/-! ### Rounds -/

/-- A word with its lower `n` bits moved to the upper end. -/
def rotate (w n : UInt64) : UInt64 := (w >>> n) ||| (w <<< (64 - n))

/-- The next words of a schedule, `n` of them, when the last sixteen are given. -/
def extend : (n : Nat) → List UInt64 → List UInt64
  | n + 1, w :: ws =>
    let s := ws.getD 0 0
    let t := ws.getD 13 0
    let near := rotate s 1 ^^^ rotate s 8 ^^^ (s >>> 7)
    let far := rotate t 19 ^^^ rotate t 61 ^^^ (t >>> 6)
    let next := w + near + ws.getD 8 0 + far
    next :: extend n (ws ++ [next])
  | _, _ => []

/-- The working words after a round with a constant and a word of the schedule. -/
def round : List UInt64 → UInt64 × UInt64 → List UInt64
  | [a, b, c, d, e, f, g, h], (constant, word) =>
    let choice := (e &&& f) ^^^ (~~~e &&& g)
    let majority := (a &&& b) ^^^ (a &&& c) ^^^ (b &&& c)
    let first := h + (rotate e 14 ^^^ rotate e 18 ^^^ rotate e 41) + choice + constant + word
    let second := (rotate a 28 ^^^ rotate a 34 ^^^ rotate a 39) + majority
    [first + second, a, b, c, d + first, e, f, g]
  | words, _ => words

/-- The working words after a block. -/
def absorb (words block : List UInt64) : List UInt64 :=
  let schedule := block ++ extend (rounds - 16) block
  let mixed := (roundConstants.zip schedule).foldl round words
  (words.zip mixed).map fun (old, new) => old + new

/-- The working words after some blocks. -/
def absorbAll : (blocks : Nat) → (words input : List UInt64) → List UInt64
  | 0, words, _ => words
  | blocks + 1, words, input => absorbAll blocks (absorb words (input.take 16)) (input.drop 16)

/-! ### Bytes -/

/-- The number that bytes stand for, the most significant one first. -/
def ofBytes (bytes : List UInt8) : Nat := bytes.foldl (fun n b => 256 * n + b.toNat) 0

/-- The word that eight bytes stand for, and the words of those after them. -/
def wordsOf : (words : Nat) → List UInt8 → List UInt64
  | 0, _ => []
  | words + 1, bytes => (ofBytes (bytes.take 8)).toUInt64 :: wordsOf words (bytes.drop 8)

/-- The `width` bytes of a number, the most significant one first. -/
def toBytes : (width : Nat) → Nat → List UInt8
  | 0, _ => []
  | width + 1, n => toBytes width (n / 256) ++ [n.toUInt8]

/-- The digest of some bytes, as a number. They are padded with a bit, with zeros, and with the
number of their bits in sixteen bytes. -/
def digest (bytes : List UInt8) : Nat :=
  let blocks := (bytes.length + 17 + 127) / 128
  let zeros := List.replicate (128 * blocks - (bytes.length + 17)) 0
  let padded := bytes ++ [0x80] ++ zeros ++ toBytes 16 (8 * bytes.length)
  (absorbAll blocks initialWords (wordsOf (16 * blocks) padded)).foldl
    (fun n w => 0x10000000000000000 * n + w.toNat) 0

end HeavyHitters.Digest
