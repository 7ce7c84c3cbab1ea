/-!
# Limits

The numbers that bound a sketch: the range of the integers it accepts, the lengths its table
may have, and the number of counters that a purge looks at. And the numbers beyond which there is
no memory for what was asked for.
-/

namespace HeavyHitters

/-- The least signed 64-bit integer. -/
def minWord : Int := -0x8000000000000000

/-- The greatest signed 64-bit integer. -/
def maxWord : Int := 0x7FFFFFFFFFFFFFFF

/-- The binary logarithm of the least table length: a table has at least eight slots. -/
def lgMinLength : Nat := 3

/-- The binary logarithm of the greatest table length that a sketch may be given. -/
def lgMaxLength : Nat := 30

/-- The greatest number of counters that a purge draws its median from. -/
def sampleLimit : Nat := 256

/-- The number of counters that a table with `length` slots may hold before it has to grow or be
purged: three quarters of the slots. -/
def loadLimit (length : Nat) : Nat := 3 * length / 4

/-! ### Memory -/

/-- The binary logarithm of the least number of slots that there is no memory for. -/
def lgUnheldLength : Nat := 31

/-- The binary logarithm of the least number of slots that cannot be counted in a word. -/
def lgUncountedLength : Nat := 63

/-- The least number of binary digits that there is no memory for. -/
def unheldDigits : Nat := 0x4000000000

/-- The least number of binary digits that an integer cannot have even in principle: they make
more groups of thirty digits than a word can count the bytes of. -/
def uncountedDigits : Nat := 69175290276410818321

end HeavyHitters
