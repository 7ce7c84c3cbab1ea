import HeavyHitters.Quantity.Binary
import HeavyHitters.Random.Digest
import HeavyHitters.Scalar

/-!
# Seeds

The number that a source of draws is seeded with, when a caller supplies a scalar for it. An
integer stands for its magnitude. A text stands for the number whose bytes are the text and then
its digest. A decimal stands for the residue of its quantity modulo a prime, in the complement of
64 bits if it is negative. A thing of any other kind is no seed.
-/

namespace HeavyHitters

namespace Quantity

/-! ### Residues -/

/-- The number of binary digits of the modulus, all of which are ones. -/
def modulusDigits : Nat := 61

/-- The modulus of residues, a prime number. -/
def modulus : Nat := powerOfTwo modulusDigits - 1

/-- The residue that the infinite quantity is given. -/
def infiniteResidue : Nat := 314159

/-- The residue of a quotient that was rounded to the significant digits. A power of two goes by
its exponent modulo the number of digits, because that many doublings make no difference. -/
def residueOf (num den : Nat) : Nat :=
  let (digits, exponent) := binary num den
  digits * powerOfTwo (exponent % modulusDigits).toNat % modulus

/-- The residue of a quantity, with the sign of the quantity. -/
def residue : Quantity → Int
  | ratio num den => num.sign * residueOf num.natAbs den
  | infinite negative => if negative then -infiniteResidue else infiniteResidue
  | undefined => 0

end Quantity

/-! ### Scalars -/

namespace Scalar

/-- The seed of a residue: its 64 bits in two's complement. The residue minus one is not used, and
minus two takes its place. -/
def seedOfResidue (n : Int) : Nat := ((if n = -1 then -2 else n) % 0x10000000000000000).toNat

/-- The seed that a scalar stands for. Without one, zero is as good as any. -/
def toSeed? : Scalar → Option Nat
  | int n => some n.natAbs
  | bool b => some (if b then 1 else 0)
  | nothing => some 0
  | text s =>
    let bytes := s.toUTF8.toList
    some (Digest.ofBytes bytes * powerOfTwo 512 + Digest.digest bytes)
  | decimal written => some (seedOfResidue (Quantity.ofDecimal written.toList).residue)
  | thing _ => none

end Scalar

end HeavyHitters
