import HeavyHitters.Amount
import HeavyHitters.Argument
import HeavyHitters.Table.Search

/-!
# Insertion and growth

An item is put where its search ends. A table never grows by itself, and its last empty slot is not
given away, so that every search ends; it grows when it is told to, by putting all its entries into
a longer table.

To put an item takes two steps: the first finds out what is to be done and may be refused, and the
second, which cannot be, changes the table.
-/

namespace HeavyHitters.Table

variable {ν : Type}

/-- How far from the home of an item its place is: where its search ends. If that is an empty slot,
it must not be the last one. -/
def place (t : Table ν) (item : Int) : Except Error Nat :=
  match t.distance? item with
  | none => .error (.tableFull t.active t.length)
  | some d =>
    if (t.cellAt (t.home item + d)).isNone ∧ t.length ≤ t.active + 1 then
      .error (.tableFull t.active t.length)
    else .ok d

/-- Stores a cell at an address, which may be an empty slot. -/
def store (t : Table ν) (i : Nat) (c : Cell ν) : Table ν :=
  if (t.cellAt i).isSome then t.setCell i (some c)
  else
    let u := t.setCell i (some c)
    { u with active := u.active + 1 }

variable [Amount ν]

/-- The cell of an item whose place is `d` slots from its home, with `count` added to its count. A
new item gets a cell there. -/
@[specialize]
def cellWith (t : Table ν) (item : Int) (count : ν) (d : Nat) : Except Error (Cell ν) :=
  match t.cellAt (t.home item + d) with
  | some c => do return { c with count := ← Amount.plus c.count count }
  | none => .ok ⟨item, count, d + 1⟩

/-- What is to be stored, and at which address, to add `count` to the count of an item. -/
@[specialize]
def plan (t : Table ν) (item : Int) (count : ν) : Except Error (Nat × Cell ν) := do
  let d ← t.place item
  return (t.home item + d, ← t.cellWith item count d)

/-- Adds `count` to the count of an item, at its place. -/
@[specialize]
def put (t : Table ν) (item : Int) (count : ν) : Except Error (Table ν) := do
  let (i, c) ← t.plan item count
  return t.store i c

/-- The table with `2 ^ lg` slots into which all entries have been put, in the order of their
slots. -/
@[specialize]
def rehash (t : Table ν) (lg : Nat) : Except Error (Table ν) :=
  t.entries.foldlM (fun u e => u.put e.1 e.2) (ofLog2 lg)

/-- The table with another number of slots, a greater power of two, and the same entries. What memory there
is for the slots is not a matter of the table: the lengths that a sketch asks for are bounded by its own
limit, and a ledger, which may be asked for any, checks them first. -/
@[specialize]
def resize (t : Table ν) (size : Scalar) : Except Error (Table ν) := do
  let lg ← size.toLog2 "new_size"
  if lg ≤ t.lgLength then throw (.noGrowth t.length (powerOfTwo lg))
  t.rehash lg

/-- Integers can always be added, so only the place of an item can be refused. -/
theorem plan_int (t : Table Int) (item count : Int) :
    t.plan item count = (t.place item).map fun d =>
      match t.cellAt (t.home item + d) with
      | some c => (t.home item + d, { c with count := c.count + count })
      | none => (t.home item + d, ⟨item, count, d + 1⟩) := by
  unfold plan
  cases t.place item with
  | error e => rfl
  | ok d =>
    simp only [bind, Except.bind, pure, Except.pure, Except.map, cellWith]
    cases t.cellAt (t.home item + d) <;> rfl

end HeavyHitters.Table
