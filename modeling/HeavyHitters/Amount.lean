import HeavyHitters.Scalar.Order
import HeavyHitters.Scalar.Sum

/-!
# Amounts

What a table can count with. Amounts can be added, turned into their opposites and compared, and a
counter whose amount is not positive is spent. The counters of a sketch are integers, for which all
this is always possible. A caller who uses a table directly may put any scalars into it; two of
them can be added if they are numbers or if they are texts, but only numbers have an opposite.
-/

namespace HeavyHitters

/-- A type of amounts. An operation on amounts may be refused. -/
class Amount (ν : Type) where
  /-- Nothing. -/
  zero : ν
  /-- The sum of two amounts. -/
  plus : ν → ν → Except Error ν
  /-- The opposite of an amount. -/
  opposite : ν → Except Error ν
  /-- Whether the first amount is less than the second. -/
  isLess : ν → ν → Except Error Bool
  /-- Whether an amount is not positive. -/
  isSpent : ν → Bool

namespace Amount

/-! ### Integers -/

instance : Amount Int where
  zero := 0
  plus m n := .ok (m + n)
  opposite n := .ok (-n)
  isLess m n := .ok (decide (m < n))
  isSpent n := decide (n ≤ 0)

@[simp] theorem zero_int : (zero : Int) = 0 := rfl

@[simp] theorem plus_int (m n : Int) : plus m n = .ok (m + n) := rfl

@[simp] theorem opposite_int (n : Int) : opposite n = .ok (-n) := rfl

@[simp] theorem isLess_int (m n : Int) : isLess m n = .ok (decide (m < n)) := rfl

@[simp] theorem isSpent_int (n : Int) : isSpent n = decide (n ≤ 0) := rfl

/-! ### Scalars -/

instance : Amount Scalar where
  zero := .int 0
  plus := Scalar.plus
  opposite := Scalar.opposite
  isLess := Scalar.isBelow
  isSpent a := a.quantity?.any (·.isReachedBy 0)

end Amount

end HeavyHitters
