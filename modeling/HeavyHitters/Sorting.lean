import HeavyHitters.PowerOfTwo
import HeavyHitters.Sorting.Merge
import HeavyHitters.Sorting.Run

/-!
# Sorting with a comparison that may be refused

A stable sort for things that need not all be comparable. It is refused as soon as one comparison
is, so it matters which comparison comes first. The sequence is divided into runs from its beginning
on, and neighbouring runs are merged. Runs wait on a stack until the next boundary is known: the
boundaries nearest to where the sequence is halved first are closed last, so that the runs that are
merged are about equally long.
-/

namespace HeavyHitters

/-- A run that waits to be merged. -/
structure PendingRun (α : Type) where
  /-- The position of its first element in the sequence. -/
  start : Nat
  /-- Its elements, in ascending order. -/
  items : List α
  /-- The depth of the boundary to the run behind it. -/
  depth : Nat

/-- The least length of a run in a sequence of `n` elements, if that many are left. It is `n` itself
if that is less than 64. Otherwise it lies between 32 and 64, and the number of runs of this length
is a power of two or a little less. -/
def leastRun (n : Nat) : Nat :=
  let parts := powerOfTwo (Nat.log2 n - 5)
  (n + (parts - 1)) / parts

/-- How often a sequence of `n` elements has to be halved to separate the positions `a / 2` and
`b / 2`. -/
def separation (n : Nat) : (rounds a b : Nat) → Nat
  | 0, _, _ => 0
  | rounds + 1, a, b =>
    if a / n = b / n then separation n rounds (2 * a) (2 * b) + 1 else 1

variable {α : Type}

/-- The depth of the boundary between a run and the next one, of `length` elements, in a sequence of
`n` elements: how often it has to be halved to separate the middles of the runs. -/
def PendingRun.depthBefore (n : Nat) (run : PendingRun α) (length : Nat) : Nat :=
  let middle := 2 * run.start + run.items.length
  separation n n middle (middle + run.items.length + length)

variable (less : α → α → Except Error Bool)

/-- A run merged with those on the stack as long as their boundaries lie deeper than a given depth,
the rest of the stack, and the patience that is left. -/
def closeDeeper (depth : Nat) (run : PendingRun α) (patience : Nat) :
    (stack : List (PendingRun α)) → Except Error (PendingRun α × List (PendingRun α) × Nat)
  | [] => .ok (run, [], patience)
  | below :: stack => do
    if depth < below.depth then
      let (items, patience) ← mergeRuns less patience below.items run.items
      closeDeeper depth { below with items } patience stack
    else return (run, below :: stack, patience)

/-- The stack with another run of a sequence of `n` elements on top, and the patience that is left.
Before that, the boundaries on the stack are closed that lie deeper than the new one. -/
def pushRun (n : Nat) (items : List α) (patience : Nat) :
    (stack : List (PendingRun α)) → Except Error (List (PendingRun α) × Nat)
  | [] => .ok ([⟨0, items, 0⟩], patience)
  | top :: stack => do
    let depth := top.depthBefore n items.length
    let (top, stack, patience) ← closeDeeper less depth top patience stack
    return (⟨top.start + top.items.length, items, 0⟩ :: { top with depth } :: stack, patience)

/-- The elements of two topmost runs and of the stack below them, in ascending order. The second run
is merged with the third if that is shorter than the topmost one, and else with the topmost one. -/
def closeAll (top second : List α) (patience : Nat) :
    (stack : List (PendingRun α)) → Except Error (List α)
  | [] => do return (← mergeRuns less patience second top).1
  | third :: stack => do
    if third.items.length < top.length then
      let (items, patience) ← mergeRuns less patience third.items second
      closeAll top items patience stack
    else
      let (items, patience) ← mergeRuns less patience second top
      closeAll items third.items patience stack

/-- The elements of a stack and of the rest of a sequence of `n` elements, in ascending order. Each
round takes a run from the rest. -/
def sortFrom (n : Nat) :
    (rounds patience : Nat) → (stack : List (PendingRun α)) → List α → Except Error (List α)
  | rounds + 1, patience, stack, x :: xs => do
    let (items, rest) ← nextRun less (leastRun n) (x :: xs)
    let (stack, patience) ← pushRun less n items patience stack
    sortFrom n rounds patience stack rest
  | _, patience, top :: second :: stack, _ =>
    closeAll less top.items second.items patience stack
  | _, _, [top], _ => .ok top.items
  | _, _, [], _ => .ok []

/-- The elements in ascending order; equal ones stay in their order. -/
def sortBy (xs : List α) : Except Error (List α) :=
  sortFrom less xs.length xs.length longStretch [] xs

end HeavyHitters
