import HeavyHitters.Row
import HeavyHitters.Scalar.Order
import HeavyHitters.Sorting

/-!
# Comparing rows

Rows are equal if all their parts are, but ordered by their estimates alone, so sorting has to keep
rows of equal estimate in place. Rows of scalars can be compared as far as their estimates can, and
a row cannot be compared with anything else.
-/

namespace HeavyHitters.Row

/-- Whether a row's estimate is less than that of what is supposed to be another row. -/
def isBelow (r : Row Scalar) : Row Scalar ⊕ Scalar → Except Error Bool
  | .inl other => r.estimate.isBelow other.estimate
  | .inr value => .error (.incomparable "<" "Row" value.typeName)

/-- Whether a row's estimate is greater than that of what is supposed to be another row. -/
def isAbove (r : Row Scalar) : Row Scalar ⊕ Scalar → Except Error Bool
  | .inl other => r.estimate.isAbove other.estimate
  | .inr value => .error (.incomparable ">" "Row" value.typeName)

/-- Whether a row is the same in all its parts. -/
def isSame (r : Row Scalar) : Row Scalar ⊕ Scalar → Bool
  | .inl other =>
    r.item.isSame other.item && r.estimate.isSame other.estimate &&
      r.upper.isSame other.upper && r.lower.isSame other.lower
  | .inr _ => false

/-- The rows by ascending estimate; rows of equal estimate stay in their order. -/
def sorted (rows : List (Row Scalar)) : Except Error (List (Row Scalar)) :=
  sortBy (fun a b => a.estimate.isBelow b.estimate) rows

/-- The rows by descending estimate; rows of equal estimate stay in their order. -/
def sortedDown (rows : List (Row Scalar)) : Except Error (List (Row Scalar)) := do
  return (← sorted rows.reverse).reverse

/-- The first of the rows with the greatest estimate. -/
def greatest (rows : List (Row Scalar)) : Except Error (Row Scalar) :=
  match rows with
  | [] => .error .noRows
  | r :: rs => rs.foldlM (fun best x => do return if ← x.isAbove (.inl best) then x else best) r

/-- The first of the rows with the least estimate. -/
def least (rows : List (Row Scalar)) : Except Error (Row Scalar) :=
  match rows with
  | [] => .error .noRows
  | r :: rs => rs.foldlM (fun best x => do return if ← x.isBelow (.inl best) then x else best) r

end HeavyHitters.Row
