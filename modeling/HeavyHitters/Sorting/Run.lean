import HeavyHitters.Sorting.Gallop

/-!
# Runs

A run is a part of a sequence that is sorted as it stands: as long as each element is less than the
one before, or as long as none is. A run that is too short to be merged takes in the elements behind
it, one after the other.
-/

namespace HeavyHitters

variable {α : Type} (less : α → α → Except Error Bool)

/-- The elements after `last` that continue a run, and the rest. A run goes on as long as the next
element is less than the last one, or as long as it is not. -/
def takeRun (descending : Bool) (last : α) : List α → Except Error (List α × List α)
  | [] => .ok ([], [])
  | x :: xs => do
    if (← less x last) = descending then
      let (run, rest) ← takeRun descending x xs
      return (x :: run, rest)
    else return ([], x :: xs)

/-- A sorted list with one more element, behind those that are equal to it. -/
def insertSorted (sorted : List α) (x : α) : Except Error (List α) := do
  let before := fun y => return !(← less x y)
  let i ← boundary before .front sorted sorted.length 0 sorted.length
  return sorted.take i ++ x :: sorted.drop i

/-- The first run of a sequence in ascending order, and what follows it. It has at least `least`
elements if there are as many. -/
def nextRun (least : Nat) : List α → Except Error (List α × List α)
  | x :: y :: ys => do
    let descending ← less y x
    let (run, rest) ← takeRun less descending y ys
    let run := if descending then (x :: y :: run).reverse else x :: y :: run
    let missing := least - run.length
    return (← (rest.take missing).foldlM (insertSorted less) run, rest.drop missing)
  | xs => .ok (xs, [])

end HeavyHitters
