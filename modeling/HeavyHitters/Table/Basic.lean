import HeavyHitters.Amount
import HeavyHitters.Limits
import HeavyHitters.PowerOfTwo

/-!
# Tables of counters

An open-addressed table from items to counts, with linear probing. The number of slots is a power
of two. The slots form a circle, and are addressed by natural numbers: the address `i` is the slot
`i` modulo the length, so that a run of slots that passes the end of the table is an interval of
addresses.

The cell of an item records how many slots, from the home of the item on, a search for it probes.
What is counted are integers; what they are counted with is left open here, and matters only where
counts are added or compared.

A slot is emptied by a note that it is vacant. The item and the count that stood in it stay there until
the slot is taken again, but nobody reads them: all operations see a slot through `cellAt`.
-/

namespace HeavyHitters

/-- An occupied slot. -/
structure Cell (ν : Type) where
  /-- The item that is counted. -/
  item : Int
  /-- Its count. -/
  count : ν
  /-- How many slots, from the home of the item to this one, a search probes. -/
  probes : Nat
  deriving DecidableEq

/-- A slot. -/
inductive Slot (ν : Type) where
  /-- The slot has a cell. -/
  | taken (cell : Cell ν)
  /-- The slot is empty, and what it held last was the count of the item. -/
  | vacant (item : Int) (count : ν)
  deriving DecidableEq

namespace Slot

variable {ν : Type}

/-- A slot that has never been taken. -/
def unused [Amount ν] : Slot ν := .vacant 0 Amount.zero

/-- The cell of a slot, if it has one. -/
def cell? : Slot ν → Option (Cell ν)
  | .taken c => some c
  | .vacant _ _ => none

/-- The slot with another cell, or emptied. An emptied slot keeps the item and the count. -/
def hold : Slot ν → Option (Cell ν) → Slot ν
  | _, some c => .taken c
  | .taken c, none => .vacant c.item c.count
  | .vacant item count, none => .vacant item count

@[simp] theorem cell?_hold (s : Slot ν) (c : Option (Cell ν)) : (s.hold c).cell? = c := by
  cases c with
  | none => cases s <;> rfl
  | some c => rfl

@[simp] theorem cell?_unused [Amount ν] : (unused : Slot ν).cell? = none := rfl

end Slot

/-- A table of counters. -/
structure Table (ν : Type) where
  /-- The binary logarithm of the number of slots. -/
  lgLength : Nat
  /-- The slots. -/
  slots : Array (Slot ν)
  /-- The number of slots is a power of two. -/
  size_slots : slots.size = powerOfTwo lgLength
  /-- The number of occupied slots. -/
  active : Nat

namespace Table

variable {ν : Type}

/-! ### Slots -/

/-- The number of slots. -/
def length (t : Table ν) : Nat := t.slots.size

theorem length_eq (t : Table ν) : t.length = powerOfTwo t.lgLength := t.size_slots

theorem length_pos (t : Table ν) : 0 < t.length := by
  rw [length_eq]
  exact powerOfTwo_pos _

/-- The number of counters that the table may hold before it has to grow or be purged. -/
def capacity (t : Table ν) : Nat := loadLimit t.length

theorem mod_length_lt (t : Table ν) (i : Nat) : i % t.length < t.slots.size :=
  Nat.mod_lt i t.length_pos

/-- The slot at an address. -/
def slotAt (t : Table ν) (i : Nat) : Slot ν := getElem t.slots (i % t.length) (t.mod_length_lt i)

/-- The cell at an address. -/
def cellAt (t : Table ν) (i : Nat) : Option (Cell ν) := (t.slotAt i).cell?

/-- The table with another content at an address. -/
def setCell (t : Table ν) (i : Nat) (c : Option (Cell ν)) : Table ν :=
  { t with
    slots := t.slots.set (i % t.length) ((t.slotAt i).hold c) (t.mod_length_lt i)
    size_slots := by rw [Array.size_set, t.size_slots] }

@[simp] theorem length_setCell (t : Table ν) (i : Nat) (c : Option (Cell ν)) :
    (t.setCell i c).length = t.length := by
  simp [setCell, length]

@[simp] theorem active_setCell (t : Table ν) (i : Nat) (c : Option (Cell ν)) :
    (t.setCell i c).active = t.active := rfl

theorem slotAt_setCell (t : Table ν) (i j : Nat) (c : Option (Cell ν)) :
    (t.setCell i c).slotAt j =
      if j % t.length = i % t.length then (t.slotAt i).hold c else t.slotAt j := by
  simp only [slotAt, length_setCell]
  simp only [setCell, Array.getElem_set, eq_comm]
  rfl

theorem cellAt_setCell (t : Table ν) (i j : Nat) (c : Option (Cell ν)) :
    (t.setCell i c).cellAt j = if j % t.length = i % t.length then c else t.cellAt j := by
  rw [cellAt, slotAt_setCell]
  split
  · exact Slot.cell?_hold _ c
  · rfl

/-- Addresses a whole turn apart are the same slot. -/
@[simp] theorem cellAt_add_length (t : Table ν) (i : Nat) :
    t.cellAt (i + t.length) = t.cellAt i := by
  simp only [cellAt, slotAt, Nat.add_mod_right]

/-- A table of `2 ^ lg` slots, none of which has been taken. -/
def ofLog2 [Amount ν] (lg : Nat) : Table ν where
  lgLength := lg
  slots := Array.replicate (powerOfTwo lg) .unused
  size_slots := Array.size_replicate
  active := 0

@[simp] theorem slotAt_ofLog2 [Amount ν] (lg i : Nat) : (ofLog2 lg : Table ν).slotAt i = .unused := by
  simp [slotAt, ofLog2]

/-! ### Content -/

/-- The cells of the slots, in their order. -/
def occupants (t : Table ν) : Array (Option (Cell ν)) := t.slots.map Slot.cell?

/-- The cells, in the order of their slots. -/
def cells (t : Table ν) : List (Cell ν) := t.slots.toList.filterMap Slot.cell?

/-- The items with their counts, in the order of their slots. -/
def entries (t : Table ν) : List (Int × ν) := t.cells.map fun c => (c.item, c.count)

/-- The items, in the order of their slots. -/
def items (t : Table ν) : List Int := t.cells.map (·.item)

/-- The counts, in the order of their slots. -/
def counts (t : Table ν) : List ν := t.cells.map (·.count)

/-- A line that names the sizes of a table. -/
def summary (t : Table ν) : String :=
  s!"ReversePurgeLongHashMap(length={t.length}, capacity={t.capacity}, active={t.active})"

end Table

end HeavyHitters
