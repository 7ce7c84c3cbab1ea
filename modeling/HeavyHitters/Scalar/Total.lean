import HeavyHitters.Scalar

/-!
# Totals

A total that a caller supplies, or is shown. It is an integer, or a truth value that passes for one:
nothing keeps a truth value from being recorded in place of a total, and it is shown again as such.
Other scalars are no totals. In particular a decimal is none, not even one without a fraction.
-/

namespace HeavyHitters

/-- A total. -/
inductive Total where
  /-- An integer. -/
  | int (n : Int)
  /-- A truth value. -/
  | truth (b : Bool)
  deriving DecidableEq

namespace Total

/-- The integer that a total is, or passes for. -/
def value : Total → Int
  | int n => n
  | truth b => if b then 1 else 0

/-- Whether a total is a truth value. -/
def isTruth : Total → Bool
  | int _ => false
  | truth _ => true

/-- A total as a scalar. -/
def toScalar : Total → Scalar
  | int n => .int n
  | truth b => .bool b

end Total

/-- The total that a scalar is. -/
def Scalar.toTotal? : Scalar → Option Total
  | int n => some (.int n)
  | bool b => some (.truth b)
  | _ => none

namespace Total

@[simp] theorem toTotal?_toScalar (t : Total) : t.toScalar.toTotal? = some t := by
  cases t <;> rfl

/-- Only the scalar that a total is as one is this total. -/
theorem toScalar_of_toTotal? {value : Scalar} {t : Total} (h : value.toTotal? = some t) :
    t.toScalar = value := by
  cases value <;> cases h <;> rfl

/-- Its value is the integer that it passes for as a scalar. -/
theorem whole?_toScalar (t : Total) : t.toScalar.whole? = some t.value := by
  cases t <;> rfl

end Total

end HeavyHitters
