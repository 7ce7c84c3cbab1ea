import HeavyHitters.Sorting.Gallop

/-!
# Merging neighbouring runs

Two sorted runs, of which one is earlier in the sequence, become one; of equal elements those of the
earlier run go first. What is already in place at both ends stays there. The rest is merged from the
side of the shorter run, so it is the longer run that gives the first element, and when one element
of the shorter run is left it goes behind all others.

At first, single elements are compared. When one run has won often enough in a row, whole stretches
are looked for, in one run and the other in turn. How often is enough is the patience, and it is
kept for the next merge: it falls as long as the stretches are long, and grows when they are not.
-/

namespace HeavyHitters

/-- The length from which a stretch counts as long, and the patience at first. -/
def longStretch : Nat := 7

/-- A merge of two runs from one side. -/
structure Merging (α : Type) where
  /-- The elements that have been merged, the last one first. -/
  merged : List α
  /-- What is left of the earlier run. -/
  earlier : List α
  /-- What is left of the later run. -/
  later : List α
  /-- How often one run has to win in a row before whole stretches are looked for. -/
  patience : Nat

/-- How a merge goes on. -/
inductive Pace where
  /-- By single elements; so many in a row came from the earlier run, or from the later one. -/
  | single (fromEarlier fromLater : Nat)
  /-- By whole stretches. -/
  | stretches

namespace Merging

variable {α : Type}

/-- The run that was longer, as far as it is left. -/
def longer (side : Side) (m : Merging α) : List α :=
  match side with
  | .front => m.later
  | .back => m.earlier

/-- The run that was shorter, as far as it is left. -/
def shorter (side : Side) (m : Merging α) : List α :=
  match side with
  | .front => m.earlier
  | .back => m.later

/-- Whether no comparison is needed any more, because the longer run is used up or one element of
the shorter run is left at most. -/
def isSettled (side : Side) (m : Merging α) : Bool :=
  (m.longer side).isEmpty || (m.shorter side).tail.isEmpty

/-- All elements of a merge that is settled, in ascending order. -/
def toList (side : Side) (m : Merging α) : List α :=
  let elements := m.merged.reverse ++ m.longer side ++ m.shorter side
  match side with
  | .front => elements
  | .back => elements.reverse

/-- The merge after the first `k` elements of the earlier run. -/
def takeEarlier (m : Merging α) (k : Nat) : Merging α :=
  { m with merged := (m.earlier.take k).reverse ++ m.merged, earlier := m.earlier.drop k }

/-- The merge after the first `k` elements of the later run. -/
def takeLater (m : Merging α) (k : Nat) : Merging α :=
  { m with merged := (m.later.take k).reverse ++ m.merged, later := m.later.drop k }

variable (less : α → α → Except Error Bool)

/-- Whether an element of the earlier run goes before one of the later run, seen from a side. From
the front it does unless it is greater, from the back it does if it is. -/
def earlierFirst (side : Side) (x y : α) : Except Error Bool := do
  let greater ← less y x
  return match side with
    | .front => !greater
    | .back => greater

/-- The opposite of `earlierFirst`. -/
def laterFirst (side : Side) (x y : α) : Except Error Bool := do
  return !(← earlierFirst less side x y)

/-- The merge after the elements of the earlier run that go before the next one of the later run,
and after that one. Beside it, the length of the stretch. -/
def stretchEarlier (side : Side) (m : Merging α) : Except Error (Merging α × Nat) :=
  match m.later with
  | [] => .ok (m, 0)
  | y :: _ => do
    let k ← gallop (fun x => earlierFirst less side x y) side m.earlier
    let m := m.takeEarlier k
    return (if m.isSettled side then m else m.takeLater 1, k)

/-- The merge after the elements of the later run that go before the next one of the earlier run,
and after that one. Beside it, the length of the stretch. -/
def stretchLater (side : Side) (m : Merging α) : Except Error (Merging α × Nat) :=
  match m.earlier with
  | [] => .ok (m, 0)
  | x :: _ => do
    let k ← gallop (fun y => laterFirst less side x y) side m.later
    let m := m.takeLater k
    return (if m.isSettled side then m else m.takeEarlier 1, k)

/-- The merge after the next single element, and whether it came from the earlier run. -/
def takeNext (side : Side) (m : Merging α) : Except Error (Merging α × Bool) :=
  match m.earlier, m.later with
  | x :: _, y :: _ => do
    if ← earlierFirst less side x y then return (m.takeEarlier 1, true)
    else return (m.takeLater 1, false)
  | _, _ => .ok (m, true)

/-- The merge when it is settled. Each round takes one element at least. -/
def settle (side : Side) : (rounds : Nat) → Pace → Merging α → Except Error (Merging α)
  | 0, _, m => .ok m
  | rounds + 1, pace, m =>
    if m.isSettled side then .ok m
    else match pace with
      | .single fromEarlier fromLater => do
        let (m, isEarlier) ← m.takeNext less side
        let (i, j) := if isEarlier then (fromEarlier + 1, 0) else (0, fromLater + 1)
        let pace := if i < m.patience ∧ j < m.patience then .single i j else .stretches
        settle side rounds pace m
      | .stretches => do
        let (m, k) ← m.stretchEarlier less side
        if m.isSettled side then return m
        let (m, l) ← m.stretchLater less side
        if m.isSettled side then return m
        if longStretch ≤ k ∨ longStretch ≤ l then
          settle side rounds .stretches { m with patience := max 1 (m.patience - 1) }
        else settle side rounds (.single 0 0) { m with patience := m.patience + 1 }

end Merging

variable {α : Type} (less : α → α → Except Error Bool)

/-- The elements of two runs in ascending order, if the first of the later run goes before all
others and the last of the earlier run behind them. Beside them, the patience that is left. -/
def mergeFrom (side : Side) (patience : Nat) (earlier later : List α) :
    Except Error (List α × Nat) := do
  let rounds := earlier.length + later.length
  let start : Merging α :=
    match side with
    | .front => (Merging.mk [] earlier later patience).takeLater 1
    | .back => (Merging.mk [] earlier.reverse later.reverse patience).takeEarlier 1
  let m ← start.settle less side rounds (.single 0 0)
  return (m.toList side, m.patience)

/-- The elements of two neighbouring runs in ascending order, and the patience that is left. -/
def mergeRuns (patience : Nat) (earlier later : List α) : Except Error (List α × Nat) :=
  match later with
  | [] => .ok (earlier, patience)
  | y :: _ => do
    let k ← gallop (fun x => Merging.earlierFirst less .front x y) .front earlier
    match (earlier.drop k).getLast? with
    | none => return (earlier ++ later, patience)
    | some x =>
      let l ← gallop (fun y => Merging.laterFirst less .back x y) .back later.reverse
      let stay := later.length - l
      let side := if earlier.length - k ≤ stay then Side.front else .back
      let (middle, patience) ← mergeFrom less side patience (earlier.drop k) (later.take stay)
      return (earlier.take k ++ middle ++ later.drop stay, patience)

end HeavyHitters
