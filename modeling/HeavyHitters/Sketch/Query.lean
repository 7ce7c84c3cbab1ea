import HeavyHitters.Guarantee
import HeavyHitters.Scalar.Order
import HeavyHitters.Sketch.Basic

/-!
# Queries

What a sketch knows about the count of an item: a lower bound, which is its counter, an upper
bound, which is the offset above that, and an estimate, which is the upper bound of an item that
has a counter. From the same numbers it answers which items are frequent.
-/

namespace HeavyHitters.Sketch

/-- The greatest difference between the bounds of an item. -/
def maximumError (s : Sketch) : Int := s.offset

/-- The greatest count that an item can have. -/
def upperBound (s : Sketch) (item : Scalar) : Except Error Int := do
  return s.table.count (← item.toWord "item") + s.offset

/-- The least count that an item can have; zero if the item has no counter. -/
def lowerBound (s : Sketch) (item : Scalar) : Except Error Int := do
  return s.table.count (← item.toWord "item")

/-- The estimate of the count of an item: its upper bound, or zero if the item has no counter. -/
def estimate (s : Sketch) (item : Scalar) : Except Error Int := do
  let count := s.table.count (← item.toWord "item")
  return if 0 < count then count + s.offset else 0

/-- The row of an item whose counter is `count`. -/
def row (s : Sketch) (item count : Int) : Row Int :=
  ⟨item, count + s.offset, count + s.offset, count⟩

/-- The rows of the items that have a counter, in the order of their slots. -/
def rows (s : Sketch) : List (Row Int) := s.table.entries.map fun e => s.row e.1 e.2

/-- The rows of the items that reach the threshold, by descending estimate. Without a threshold it
is the maximum error. -/
def frequent (s : Sketch) (g : Guarantee) (threshold : Option Int) : List (Row Int) :=
  let t := threshold.getD s.maximumError
  Row.descending (s.rows.filter fun r => t ≤ g.bound r)

/-- The same for what a caller supplies as a guarantee and as a threshold. The threshold need not be
an integer, and if no row is compared with it, not even a number. -/
def frequentOfScalars (s : Sketch) (guarantee : Guarantee ⊕ Scalar) (threshold : Scalar) :
    Except Error (List (Row Int)) := do
  let g ← Guarantee.demanded guarantee
  let t := if threshold = .nothing then .int s.maximumError else threshold
  return Row.descending (← s.rows.filterM fun r => t.isReachedBy (g.bound r))

theorem filterAuxM_ok {α ε : Type} (p : α → Bool) (as acc : List α) :
    as.filterAuxM (fun a => (.ok (p a) : Except ε Bool)) acc
      = .ok ((as.filter p).reverse ++ acc) := by
  induction as generalizing acc with
  | nil => rfl
  | cons a as ih =>
    change as.filterAuxM _ (cond (p a) (a :: acc) acc) = _
    rw [ih]
    cases h : p a <;> simp [h]

theorem filterM_ok {α ε : Type} (p : α → Bool) (as : List α) :
    as.filterM (fun a => (.ok (p a) : Except ε Bool)) = .ok (as.filter p) := by
  simp [List.filterM, filterAuxM_ok, bind, Except.bind, pure, Except.pure]

/-- For integers the two agree. -/
theorem frequentOfScalars_int (s : Sketch) (g : Guarantee) (t : Int) :
    s.frequentOfScalars (.inl g) (.int t) = .ok (s.frequent g (some t)) := by
  simp [frequentOfScalars, Guarantee.demanded, frequent, filterM_ok, bind, Except.bind, pure,
    Except.pure]

end HeavyHitters.Sketch
