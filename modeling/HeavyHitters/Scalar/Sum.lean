import HeavyHitters.Error
import HeavyHitters.Quantity.Shortest

/-!
# Sums of scalars

Two numbers can be added, and so can two texts. The sum of integers and truth values is an integer.
If one of the numbers is a decimal the sum is one too, rounded to the nearest binary decimal; the
other number is rounded first, and an integer that is too large for that is refused.
-/

namespace HeavyHitters.Scalar

/-- Whether a scalar is a decimal with a minus sign. -/
def hasMinus : Scalar → Bool
  | decimal written => written.toList.head? == some '-'
  | _ => false

/-- The binary decimal nearest to a number of a given quantity. -/
def toBinary (value : Scalar) (quantity : Quantity) : Except Error Quantity :=
  match value, quantity.rounded with
  | decimal _, q => .ok q
  | _, .infinite _ => .error .tooLargeForDecimal
  | _, q => .ok q

/-- The sum of two numbers of given quantities, as a decimal. A sum of zero has a minus sign if both
numbers have one. -/
def decimalSum (a b : Scalar) (p q : Quantity) : Except Error Scalar := do
  let sum := ((← a.toBinary p).plus (← b.toBinary q)).rounded
  let text := if sum.isZero && a.hasMinus && b.hasMinus then '-' :: sum.text else sum.text
  return .decimal (String.ofList text)

/-- The sum of two scalars: of integers and truth values the sum of the integers that they are or
pass for, of other numbers a decimal, and of texts the first with the second after it. -/
def plus (a b : Scalar) : Except Error Scalar :=
  match a.whole?, b.whole? with
  | some m, some n => .ok (.int (m + n))
  | _, _ =>
    match a, b with
    | .text s, .text t => .ok (.text (s ++ t))
    | .text _, _ => .error (.notJoined b.typeName)
    | _, _ =>
      match a.quantity?, b.quantity? with
      | some p, some q => decimalSum a b p q
      | _, _ => .error (.notOperands "+=" a.typeName b.typeName)

/-- A decimal with the other sign. The undefined one has none. -/
def flipSign : List Char → List Char
  | '-' :: cs => cs
  | cs => if Quantity.ofDecimal cs = .undefined then cs else '-' :: cs

/-- The opposite of a number. That of a truth value is an integer. -/
def opposite (a : Scalar) : Except Error Scalar :=
  match a, a.whole? with
  | decimal written, _ => .ok (.decimal (String.ofList (flipSign written.toList)))
  | _, some n => .ok (.int (-n))
  | _, none => .error (.notNegated a.typeName)

end HeavyHitters.Scalar
