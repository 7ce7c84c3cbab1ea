import HeavyHitters.Error

/-!
# How far a test holds

In a list where the elements that pass a test come before those that do not, the number of elements
that pass is found with few tests: first at the positions 0, 1, 3, 7 and so on, each as far again
from the start as the one before, until one is refused, and then by halving what lies between the
last two. A test may be refused altogether, so it matters which elements are tested, and when.
-/

namespace HeavyHitters

/-- The side from which sorted elements are worked through. -/
inductive Side where
  /-- From the least element on, which is then the first of a list. -/
  | front
  /-- From the greatest element on, which is then the first of a list. -/
  | back
  deriving DecidableEq

/-- The middle of the positions from `lo` up to `hi`, which is not one of them. If there are two
middles it is the one with the greater element. -/
def Side.middle (side : Side) (lo hi : Nat) : Nat :=
  match side with
  | .front => lo + (hi - lo) / 2
  | .back => hi - 1 - (hi - lo) / 2

variable {α : Type} (test : α → Except Error Bool)

/-- How many elements of a list pass the test, if those that pass come first and are `lo` at least
and `hi` at most. Each round halves what lies between the two. -/
def boundary (side : Side) (xs : List α) : (rounds lo hi : Nat) → Except Error Nat
  | 0, lo, _ => .ok lo
  | rounds + 1, lo, hi =>
    if hi ≤ lo then .ok lo
    else
      let mid := side.middle lo hi
      match xs[mid]? with
      | none => .ok lo
      | some x => do
        if ← test x then boundary side xs rounds (mid + 1) hi
        else boundary side xs rounds lo mid

/-- Bounds for the number of elements that pass the test, if `lo` of them do and the next one to be
tested stands at the position `next`. -/
def bracket (xs : List α) : (rounds lo next : Nat) → Except Error (Nat × Nat)
  | 0, lo, _ => .ok (lo, xs.length)
  | rounds + 1, lo, next =>
    match xs[next]? with
    | none => .ok (lo, xs.length)
    | some x => do
      if ← test x then bracket xs rounds (next + 1) (2 * next + 1)
      else return (lo, next)

/-- How many elements of a list pass the test, if those that pass come first. -/
def gallop (side : Side) (xs : List α) : Except Error Nat := do
  let (lo, hi) ← bracket test xs (xs.length + 1) 0 0
  boundary test side xs (hi - lo) lo hi

end HeavyHitters
