import HeavyHitters.Error

/-!
# Comparing scalars

Scalars that are numbers are compared as quantities, whatever their kinds, and texts are compared
character by character. Any other comparison is refused, and the refusal names the relation and the
two kinds. Whether two scalars are equal can always be told.
-/

namespace HeavyHitters.Scalar

/-- Whether the first scalar is less than the second, for a refusal that names the comparison as
`relation` between the kinds `left` and `right`. -/
def less (relation left right : String) (a b : Scalar) : Except Error Bool :=
  match a, b with
  | .text s, .text t => .ok (s < t)
  | _, _ =>
    match a.quantity?, b.quantity? with
    | some p, some q => .ok (p.isBelow q)
    | _, _ => .error (.incomparable relation left right)

/-- Whether the first scalar is less than the second. -/
def isBelow (a b : Scalar) : Except Error Bool := less "<" a.typeName b.typeName a b

/-- Whether the first scalar is greater than the second. -/
def isAbove (a b : Scalar) : Except Error Bool := less ">" a.typeName b.typeName b a

/-- Whether an integer reaches a scalar, that is, whether it is not less. -/
def isReachedBy (a : Scalar) (n : Int) : Except Error Bool :=
  match a.quantity? with
  | some p => .ok (p.isReachedBy n)
  | none => .error (.incomparable ">=" integerType a.typeName)

/-- Whether two scalars are equal: numbers as quantities, and others if they are the same. -/
def isSame (a b : Scalar) : Bool :=
  match a.quantity?, b.quantity? with
  | some p, some q => p.isSame q
  | _, _ => a = b

@[simp] theorem isBelow_int (m n : Int) : (int m).isBelow (int n) = .ok (decide (m < n)) := by
  simp [isBelow, less]

@[simp] theorem isAbove_int (m n : Int) : (int m).isAbove (int n) = .ok (decide (n < m)) := by
  simp [isAbove, less]

@[simp] theorem isReachedBy_int (m n : Int) : (int m).isReachedBy n = .ok (decide (m ≤ n)) := by
  simp [isReachedBy]

@[simp] theorem isSame_int (m n : Int) : (int m).isSame (int n) = decide (m = n) := by
  simp [isSame]

end HeavyHitters.Scalar
