import HeavyHitters.Random.Source

/-!
# The Mersenne Twister

The 32-bit Mersenne Twister MT19937 as a source of draws. A seed is an integer of any size; its
32-bit words, the least significant first, initialise the state. A draw below `bound` takes as
many bits as `bound` has, from the upper end of a word, until they make up a number below
`bound`; so every number below the bound is equally likely.
-/

namespace HeavyHitters

/-- A Mersenne Twister between two words. -/
structure Twister where
  /-- The words of the current block, before tempering. -/
  words : Array UInt32
  /-- How many of them have been used. -/
  used : Nat

namespace Twister

/-- The number of words in a block. -/
def size : Nat := 624

/-- The distance of the second word that goes into a new word. -/
def middle : Nat := 397

/-- The two neighbouring words `a` and `b`, joined after the upper bit of `a`, and twisted. -/
def twist (a b : UInt32) : UInt32 :=
  let y := (a &&& 0x80000000) ||| (b &&& 0x7FFFFFFF)
  (y >>> 1) ^^^ (if y &&& 1 = 0 then 0 else 0x9908B0DF)

/-- The next block: each word is replaced in turn, by words that may already be new. -/
def regenerate (words : Array UInt32) : Array UInt32 :=
  size.fold (fun k _ ws =>
    let y := twist (ws.getD k 0) (ws.getD ((k + 1) % size) 0)
    ws.setIfInBounds k (ws.getD ((k + middle) % size) 0 ^^^ y)) words

/-- The tempering that evens out the bits of a word. -/
def temper (y : UInt32) : UInt32 :=
  let y := y ^^^ (y >>> 11)
  let y := y ^^^ ((y <<< 7) &&& 0x9D2C5680)
  let y := y ^^^ ((y <<< 15) &&& 0xEFC60000)
  y ^^^ (y >>> 18)

/-- The next word. -/
def next : Twister → UInt32 × Twister
  | ⟨words, used⟩ =>
    if used < size then (temper (words.getD used 0), ⟨words, used + 1⟩)
    else
      let fresh := regenerate words
      (temper (fresh.getD 0 0), ⟨fresh, 1⟩)

/-! ### Seeding -/

/-- The mixed word from which a word after it is initialised. -/
def carry (word : UInt32) : UInt32 := word ^^^ (word >>> 30)

/-- A block initialised by a single word. -/
def blockOfWord (word : UInt32) : Array UInt32 :=
  (size - 1).fold (fun k _ ws => ws.push (1812433253 * carry (ws.getD k 0) + (k + 1).toUInt32))
    #[word]

/-- The position after `i`, in a block whose first word is a copy of the last one each time the
positions start again, at 1. -/
def advance (words : Array UInt32) (i : Nat) : Array UInt32 × Nat :=
  if i + 1 < size then (words, i + 1) else (words.setIfInBounds 0 (words.getD i 0), 1)

/-- Mixes the words of the key into the block, `steps` times, from position `i` of the block and
position `j` of the key on; answers the block and the position reached. -/
def absorb (key : Array UInt32) : (steps : Nat) → Array UInt32 → (i j : Nat) → Array UInt32 × Nat
  | 0, words, i, _ => (words, i)
  | steps + 1, words, i, j =>
    let mixed := (words.getD i 0 ^^^ (carry (words.getD (i - 1) 0) * 1664525)) +
      key.getD j 0 + j.toUInt32
    let (words, i) := advance (words.setIfInBounds i mixed) i
    absorb key steps words i (if j + 1 < key.size then j + 1 else 0)

/-- Mixes the block with itself, `steps` times, from position `i` on. -/
def diffuse : (steps : Nat) → Array UInt32 → (i : Nat) → Array UInt32
  | 0, words, _ => words
  | steps + 1, words, i =>
    let mixed := (words.getD i 0 ^^^ (carry (words.getD (i - 1) 0) * 1566083941)) - i.toUInt32
    let (words, i) := advance (words.setIfInBounds i mixed) i
    diffuse steps words i

/-- The 32-bit words of a number, the least significant first; zero has one word. -/
def keyWords (n : Nat) : List UInt32 :=
  if n < 0x100000000 then [n.toUInt32] else n.toUInt32 :: keyWords (n / 0x100000000)
termination_by n

/-- The generator that a seed stands for. -/
def ofSeed (seed : Nat) : Twister :=
  let key := (keyWords seed).toArray
  let (words, i) := absorb key (max size key.size) (blockOfWord 19650218) 1 0
  ⟨(diffuse (size - 1) words i).setIfInBounds 0 0x80000000, size⟩

/-! ### Draws -/

/-- A number of `width` random bits: of whole words, the least significant first, and of the
upper bits of a last one. -/
def bits (width : Nat) (g : Twister) : Nat × Twister :=
  if width ≤ 32 then
    let (word, g) := g.next
    (word.toNat >>> (32 - width), g)
  else
    let (word, g) := g.next
    let (rest, g) := bits (width - 32) g
    (word.toNat + 0x100000000 * rest, g)
termination_by width

/-- The number of binary digits of a positive number. -/
def bitLength (n : Nat) : Nat := n.log2 + 1

/-- How often a draw is tried. The bound has as many bits as a try, so more than half of all tries
succeed, and that many failures in a row do not occur. -/
def tries : Nat := 65536

/-- Draws numbers of `width` bits until one is below the bound; 0 when all tries have failed. -/
def drawWithin (width bound : Nat) : (tries : Nat) → Twister → Nat × Twister
  | 0, g => (0, g)
  | tries + 1, g =>
    let (n, g) := g.bits width
    if n < bound then (n, g) else drawWithin width bound tries g

/-- Draws a number below the bound. -/
def draw (g : Twister) (bound : Nat) : Nat × Twister :=
  drawWithin (bitLength bound) bound tries g

theorem drawWithin_lt {bound : Nat} (h : 0 < bound) (width tries : Nat) (g : Twister) :
    (drawWithin width bound tries g).1 < bound := by
  induction tries generalizing g with
  | zero => exact h
  | succ tries ih =>
    rw [drawWithin]
    split
    rename_i n g' _
    by_cases hn : n < bound
    · simp [hn]
    · simpa [hn] using ih g'

theorem draw_lt (g : Twister) (bound : Nat) (h : 0 < bound) : (g.draw bound).1 < bound :=
  drawWithin_lt h _ _ g

/-- The Mersenne Twister as a source of draws. -/
def source : DrawSource where
  State := Twister
  ofSeed := ofSeed
  draw := draw
  draw_lt := draw_lt

end Twister

end HeavyHitters
