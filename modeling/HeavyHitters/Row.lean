import HeavyHitters.Scalar.Written

/-!
# Rows

A row of a frequent-items answer: an item, the estimate of its count, and the two bounds that are
guaranteed. The rows that a sketch answers hold integers. A caller may make rows of any scalars,
which have a text as far as their columns do.
-/

namespace HeavyHitters

/-- A row of a frequent-items answer. -/
structure Row (α : Type) where
  /-- The item. -/
  item : α
  /-- The estimate of its count. -/
  estimate : α
  /-- The greatest value its count can have. -/
  upper : α
  /-- The least value its count can have. -/
  lower : α
  deriving DecidableEq

namespace Row

/-- A row of integers as a row of scalars. -/
def toScalars (r : Row Int) : Row Scalar :=
  ⟨.int r.item, .int r.estimate, .int r.upper, .int r.lower⟩

/-! ### Text -/

/-- The width of a column of numbers. -/
def columnWidth : Nat := 12

/-- A column of a row's text: at the right end of it, and wider if it has to be. -/
def column (text : String) : String :=
  String.ofList (text.toList.leftpad columnWidth ' ')

/-- Three columns and a last entry. -/
def line (estimate upper lower item : String) : String :=
  "  " ++ column estimate ++ column upper ++ column lower ++ " " ++ item

/-- The headings of the columns. -/
def header : String := line "Est" "UB" "LB" "Item"

/-- The text of a scalar in a column: a truth value is written as a number, and neither nothing nor a
thing of another kind can be written. -/
def entry : Scalar → Except Error String
  | .bool b => .ok (if b then "1" else "0")
  | .nothing => .error (.notAligned (Scalar.typeName .nothing))
  | .thing t => .error (.notAligned t.kind)
  | value => (value.written .usual).map String.ofList

/-- The text of a row. The last entry is not in a column, and so written as it is. -/
def text (r : Row Scalar) : Except Error String := do
  let estimate ← entry r.estimate
  let upper ← entry r.upper
  let lower ← entry r.lower
  return line estimate upper lower (String.ofList (← r.item.written .usual))

/-- A table of rows under the headings, one on each line. -/
def report (rows : List (Row Int)) : Except Error String := do
  return "\n".intercalate (header :: (← rows.mapM fun r => r.toScalars.text))

/-! ### Order by estimates -/

/-- The rows by descending estimate; rows of equal estimate stay in their order. -/
def descending (rows : List (Row Int)) : List (Row Int) :=
  rows.mergeSort fun a b => b.estimate ≤ a.estimate

theorem descending_perm (rows : List (Row Int)) : (descending rows).Perm rows :=
  List.mergeSort_perm rows _

end Row

end HeavyHitters
