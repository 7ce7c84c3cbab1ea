import HeavyHitters.Quantity

/-!
# Rounding to binary decimals

A decimal that is computed is a natural number of 53 binary digits at most, times a power of two
whose exponent is not too low, with a sign. A quotient is rounded to the nearest of these numbers,
half to even. If that would be beyond the greatest of them it is infinite.
-/

namespace HeavyHitters.Quantity

/-- The least exponent of the last digit of a binary decimal. -/
def leastExponent : Int := -1074

/-- The binary logarithm that no binary decimal reaches. -/
def logarithmBound : Nat := 1024

/-- The integer part of the binary logarithm of a positive quotient. -/
def binaryLog (num den : Nat) : Int :=
  let guess : Int := num.log2 - den.log2
  let reached := den * powerOfTwo guess.toNat ≤ num * powerOfTwo (-guess).toNat
  if reached then guess else guess - 1

/-- A quotient, rounded to the significant digits: a natural number, and the exponent of the power
of two that it is to be multiplied by. -/
def binary (num den : Nat) : Nat × Int :=
  if num = 0 then (0, 0)
  else
    let exponent := max (binaryLog num den + 1 - precision) leastExponent
    (nearest (num * powerOfTwo (-exponent).toNat) (den * powerOfTwo exponent.toNat), exponent)

/-- The binary decimal nearest to a quantity. -/
def rounded : Quantity → Quantity
  | ratio num den =>
    let (digits, exponent) := binary num.natAbs den
    let magnitude := digits * powerOfTwo exponent.toNat
    if powerOfTwo logarithmBound ≤ magnitude ∧ 0 ≤ exponent then infinite (num < 0)
    else ratio (num.sign * magnitude) (powerOfTwo (-exponent).toNat)
  | quantity => quantity

/-- The sum of two quantities. That of the two infinite ones is undefined. -/
def plus : Quantity → Quantity → Quantity
  | ratio a b, ratio c d => ratio (a * d + c * b) (b * d)
  | infinite p, ratio _ _ => infinite p
  | ratio _ _, infinite q => infinite q
  | infinite p, infinite q => if p = q then infinite p else undefined
  | _, _ => undefined

end HeavyHitters.Quantity
