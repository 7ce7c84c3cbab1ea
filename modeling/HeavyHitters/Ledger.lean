import HeavyHitters.Table.Insert
import HeavyHitters.Table.Purge

/-!
# Ledgers

A ledger is a table that a caller keeps without a sketch around it. It takes any scalars as counts,
and truth values as keys beside integers. A truth value is the same key as the integer that it
passes for, and the ledger shows the key under which a count was entered first.

What the table counts with are therefore postings: a count together with the key that it was
entered under. They are added and compared by their counts.

A caller may ask for more slots than there is memory for, or than can be counted, and is refused then. A
ledger of integers within these limits does what a table of integers does.
-/

namespace HeavyHitters

/-- A count in a ledger, with the key that it was entered under. -/
structure Posting where
  /-- The key. -/
  key : Scalar
  /-- The count. -/
  count : Scalar
  deriving DecidableEq

instance : Amount Posting where
  zero := ⟨Amount.zero, Amount.zero⟩
  plus p q := do return { p with count := ← Amount.plus p.count q.count }
  opposite p := do return { p with count := ← Amount.opposite p.count }
  isLess p q := Amount.isLess p.count q.count
  isSpent p := Amount.isSpent p.count

/-- A table of scalars, kept by a caller. -/
structure Ledger where
  /-- The table. -/
  table : Table Posting
  /-- The binary logarithm of the number of slots that were last asked for. There are as many,
  unless there was no memory for them. -/
  lgAsked : Nat

namespace Ledger

/-! ### Size -/

/-- Refuses a number of slots that there is no memory for. -/
def checkMemory (lg : Nat) : Except Error Unit :=
  if lg < lgUnheldLength then .ok ()
  else if lg < lgUncountedLength then .error .outOfMemory
  else .error .uncountedLength

/-- An empty ledger with as many slots as asked for. -/
def ofSize (size : Scalar) : Except Error Ledger := do
  let lg ← size.toLog2 "map_size"
  if lg < lgMinLength then throw (.tableLength (powerOfTwo lg))
  checkMemory lg
  return ⟨Table.ofLog2 lg, lg⟩

/-- Gives a ledger another number of slots, a power of two that is greater than the number that was
asked for before. If there is no memory for them the table stays as it is, but as many slots have been asked
for. -/
def resize (l : Ledger) (size : Scalar) : Outcome Ledger :=
  match size.toLog2 "new_size" with
  | .error e => .fail l e
  | .ok lg =>
    if lg ≤ l.lgAsked then .fail l (.noGrowth l.table.length (powerOfTwo lg))
    else
      let asked := { l with lgAsked := lg }
      match checkMemory lg with
      | .error e => .fail asked e
      | .ok () => .ofExcept asked ((l.table.rehash lg).map fun table => { asked with table })

/-! ### Entries -/

/-- Adds a count to the count of a key, or enters it under the key if that has none. -/
def put (l : Ledger) (key count : Scalar) : Outcome Ledger :=
  match key.toKey with
  | .error e => .fail l e
  | .ok item =>
    match l.table.plan item ⟨key, count⟩ with
    | .error e => .fail l e
    | .ok (i, c) => .ok { l with table := l.table.store i c }

/-- Puts the counts of a list of keys, up to the first that is refused. -/
def putAll (l : Ledger) (entries : List (Scalar × Scalar)) : Outcome Ledger :=
  Outcome.each (fun l e => l.put e.1 e.2) entries l

/-- The postings, in the order of their slots. -/
def postings (l : Ledger) : List Posting := l.table.counts

/-- The count of a key, or zero if the ledger does not hold it. -/
def count (l : Ledger) (key : Scalar) : Except Error Scalar := do
  match l.table.find? (← key.toKey) with
  | some c => return c.count.count
  | none => return Amount.zero

/-- Whether the ledger holds a key. Only integers are looked for. -/
def contains (l : Ledger) : Scalar → Bool
  | .int item => l.table.contains item
  | _ => false

/-! ### Purges -/

/-- Purges a ledger by the median of a sample of at most `size` counts, and answers that median. -/
def purge (src : DrawSource) (l : Ledger) (size : Scalar) (g : src.State) :
    Except Error Scalar × Ledger × src.State :=
  let (median, table, g) := l.table.purge src size g
  (median.map (·.count), { l with table }, g)

end Ledger

end HeavyHitters
