import HeavyHitters.Sketch.Basic

/-!
# Updates

Counting an item. All checks come before the first change, so a refused update leaves the sketch
as it was.
-/

namespace HeavyHitters.Sketch

/-- The item and the count of an update, if it is accepted: both are 64-bit integers, the count is
not negative, and a positive one does not carry the stream length out of the 64-bit range. -/
def accept (s : Sketch) (item count : Scalar) : Except Error (Int × Int) := do
  let item ← item.toWord "item"
  let count ← count.toWord "count"
  if count < 0 then throw .negativeCount
  if 0 < count ∧ maxWord - count < s.streamLength then throw .streamOverflow
  return (item, count)

/-- Adds a positive count to the counter of an item, and makes room if that took the last. -/
def insert (src : DrawSource) (s : Sketch) (item count : Int) : Outcome Sketch :=
  match s.table.plan item count with
  | .error e => .fail s e
  | .ok (i, c) => makeRoom src { s with table := s.table.store i c }

/-- The item is put into the table, and then room is made. -/
theorem insert_eq (src : DrawSource) (s : Sketch) (item count : Int) :
    insert src s item count =
      match s.table.put item count with
      | .error e => .fail s e
      | .ok t => makeRoom src { s with table := t } := by
  unfold insert Table.put
  cases s.table.plan item count <;> rfl

/-- Counts an item `count` times. Counting it no times changes nothing, and any other count makes
integers of both totals. -/
def update (src : DrawSource) (s : Sketch) (item count : Scalar) : Outcome Sketch :=
  match s.accept item count with
  | .error e => .fail s e
  | .ok (item, count) =>
    if count = 0 then .ok s
    else
      insert src { s with streamLength := s.streamLength + count, truths := .none } item count

/-- Counts each of the items once, up to the first that is refused. -/
def extend (src : DrawSource) (s : Sketch) (items : List Scalar) : Outcome Sketch :=
  Outcome.each (fun s item => update src s item (.int 1)) items s

/-- Counts each of the items as often as its count tells, up to the first that is refused. -/
def updateAll (src : DrawSource) (s : Sketch) (entries : List (Scalar × Scalar)) :
    Outcome Sketch :=
  Outcome.each (fun s e => update src s e.1 e.2) entries s

/-- Counts the entries of a table anew, up to the first that is refused. -/
def replay (src : DrawSource) (s : Sketch) (entries : List (Int × Int)) : Outcome Sketch :=
  Outcome.each (fun s e => update src s (.int e.1) (.int e.2)) entries s

theorem updateAll_int (src : DrawSource) (s : Sketch) (entries : List (Int × Int)) :
    updateAll src s (entries.map fun e => (.int e.1, .int e.2)) = replay src s entries := by
  induction entries generalizing s with
  | nil => rfl
  | cons e es ih =>
    have : (fun s => updateAll src s (es.map fun e => (.int e.1, .int e.2)))
        = fun s => replay src s es := funext ih
    exact congrArg ((update src s (.int e.1) (.int e.2)).andThen ·) this

end HeavyHitters.Sketch
