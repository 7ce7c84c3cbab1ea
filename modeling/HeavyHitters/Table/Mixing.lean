/-!
# Mixing of keys

The function that spreads the items of a table over its slots. It takes the lower 64 bits of a
key through five steps, each of which can be undone, so that two keys have the same mixture only
if they agree in these bits.
-/

namespace HeavyHitters

/-- Adds the upper bits of a word to its lower bits. -/
def foldUpper (w : UInt64) : UInt64 := w ^^^ (w >>> 33)

/-- The mixture of a word. -/
def mixWord (w : UInt64) : UInt64 :=
  foldUpper (foldUpper (foldUpper w * 0xFF51AFD7ED558CCD) * 0xC4CEB9FE1A85EC53)

/-- The mixture of the lower 64 bits of a key. It looks at the key first, so that the mixture of an
unknown key is not computed any further. -/
def mix : Int → UInt64
  | .ofNat n => mixWord (UInt64.ofInt (.ofNat n))
  | .negSucc n => mixWord (UInt64.ofInt (.negSucc n))

/-- Whatever the key, its lower 64 bits are mixed. -/
theorem mix_eq (key : Int) : mix key = mixWord (UInt64.ofInt key) := by
  cases key with
  | ofNat n => rw [mix]
  | negSucc n => rw [mix]

end HeavyHitters
