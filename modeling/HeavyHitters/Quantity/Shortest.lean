import HeavyHitters.Quantity.Binary

/-!
# The shortest text of a binary decimal

A binary decimal is written with the fewest digits from which it can be told from its neighbours, so
that it is the nearest one to what is written, and of the texts with as few digits the nearest to it
is taken. The point stands where it belongs if it stands in the first sixteen digits, or at most
three zeros before them; otherwise it stands behind the first digit, and an exponent follows.
-/

namespace HeavyHitters.Quantity

/-- A natural number times a power of ten. -/
def ofScaled (digits : Nat) (exponent : Int) : Quantity :=
  .ratio (digits * Nat.pow 10 exponent.toNat : Nat) (Nat.pow 10 (-exponent).toNat)

/-- The least exponent of a power of ten that is greater than a positive quotient. -/
def decimalScale (num den : Nat) : Int :=
  let guess : Int := (Nat.toDigits 10 num).length - (Nat.toDigits 10 den).length
  if num * Nat.pow 10 (-guess).toNat < den * Nat.pow 10 guess.toNat then guess else guess + 1

/-- The number of digits that suffices for every binary decimal. -/
def sufficientDigits : Nat := 17

/-- The natural number that, times a power of ten, is nearest to a quotient. -/
def nearestScaled (num den : Nat) (exponent : Int) : Nat :=
  nearest (num * Nat.pow 10 (-exponent).toNat) (den * Nat.pow 10 exponent.toNat)

/-- The nearest natural number that, times a power of ten, is read as a given binary decimal. -/
def readAs? (num den : Nat) (exponent : Int) : Option Nat :=
  let near := nearestScaled num den exponent
  [near, near + 1, near - 1].find? fun digits =>
    (ofScaled digits exponent).rounded.isSame (.ratio num den)

/-- The fewest digits of a positive binary decimal, but `count` at least, as a natural number, and
the exponent of the power of ten that it is to be multiplied by. Each round tries one digit more. -/
def shortest (num den : Nat) : (rounds count : Nat) → Nat × Int
  | 0, count =>
    let exponent := decimalScale num den - count
    (nearestScaled num den exponent, exponent)
  | rounds + 1, count =>
    let exponent := decimalScale num den - count
    match readAs? num den exponent with
    | some digits => (digits, exponent)
    | none => shortest num den rounds (count + 1)

/-- Digits with a point behind the first `point` of them. -/
def pointed (digits : List Char) (point : Int) : List Char :=
  if point ≤ 0 then '0' :: '.' :: (List.replicate point.natAbs '0' ++ digits)
  else
    let fraction := digits.drop point.toNat
    digits.take point.toNat ++ List.replicate (point.toNat - digits.length) '0' ++
      '.' :: (if fraction.isEmpty then ['0'] else fraction)

/-- An exponent with its sign, in two digits at least. -/
def exponentText (exponent : Int) : List Char :=
  let digits := Nat.toDigits 10 exponent.natAbs
  (if exponent < 0 then '-' else '+') :: (List.replicate (2 - digits.length) '0' ++ digits)

/-- Digits whose point would stand behind the first `point` of them, with an exponent if that is far
from the digits. -/
def layout (digits : List Char) (point : Int) : List Char :=
  if -4 < point ∧ point ≤ 16 then pointed digits point
  else
    let fraction := digits.drop 1
    digits.take 1 ++ (if fraction.isEmpty then [] else '.' :: fraction) ++
      'e' :: exponentText (point - 1)

/-- The text of a positive binary decimal. -/
def positiveText (num den : Nat) : List Char :=
  let (digits, exponent) := shortest num den sufficientDigits 1
  let text := Nat.toDigits 10 digits
  layout (Text.dropEndWhile (· == '0') text) (text.length + exponent)

/-- The text of a binary decimal, of an infinite quantity or of the undefined one. -/
def text : Quantity → List Char
  | ratio num den =>
    if num = 0 then ['0', '.', '0']
    else if num < 0 then '-' :: positiveText num.natAbs den
    else positiveText num.natAbs den
  | infinite negative => if negative then ['-', 'i', 'n', 'f'] else ['i', 'n', 'f']
  | undefined => ['n', 'a', 'n']

end HeavyHitters.Quantity
