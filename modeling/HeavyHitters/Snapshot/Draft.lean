import HeavyHitters.Error
import HeavyHitters.Scalar.Total
import HeavyHitters.Snapshot.Basic

/-!
# Drafts

What a caller supplies in place of a snapshot: the same fields, but with scalars in them. A draft
can be encoded as far as its scalars allow. A draft whose stream length and offset are totals is a
record; from a record a sketch can be loaded. Every snapshot is a record.
-/

namespace HeavyHitters.Snapshot

/-- What is supposed to be the content of a sketch. -/
structure Draft where
  /-- The binary logarithm of the greatest table length. -/
  lgMax : Scalar
  /-- The binary logarithm of the table length. -/
  lgLength : Scalar
  /-- The sum of all counts. -/
  streamLength : Scalar
  /-- The sum of all amounts subtracted by purges. -/
  offset : Scalar
  /-- The items with their counters. -/
  entries : List (Scalar × Scalar)
  deriving DecidableEq

/-- What a sketch can be loaded from. -/
structure Record where
  /-- The binary logarithm of the greatest table length. -/
  lgMax : Scalar
  /-- The binary logarithm of the table length. -/
  lgLength : Scalar
  /-- The sum of all counts. -/
  streamLength : Total
  /-- The sum of all amounts subtracted by purges. -/
  offset : Total
  /-- The items with their counters. -/
  entries : List (Scalar × Scalar)
  deriving DecidableEq

/-- A record as a draft. -/
def Record.toDraft (r : Record) : Draft :=
  ⟨r.lgMax, r.lgLength, r.streamLength.toScalar, r.offset.toScalar, r.entries⟩

/-- A snapshot as a record. -/
def toRecord (s : Snapshot) : Record :=
  ⟨.int s.lgMax, .int s.lgLength, .int s.streamLength, .int s.offset,
    s.entries.map fun e => (.int e.1, .int e.2)⟩

/-- A snapshot as a draft. -/
def toDraft (s : Snapshot) : Draft :=
  ⟨s.lgMax, s.lgLength, s.streamLength, s.offset, s.entries.map fun e => (.int e.1, .int e.2)⟩

@[simp] theorem toDraft_toRecord (s : Snapshot) : s.toRecord.toDraft = s.toDraft := rfl

namespace Draft

/-- The record that a draft is. -/
def toRecord? (d : Draft) : Option Record := do
  return ⟨d.lgMax, d.lgLength, ← d.streamLength.toTotal?, ← d.offset.toTotal?, d.entries⟩

/-- A draft is a record exactly if it is that record as a draft. -/
theorem toRecord?_eq_some_iff {d : Draft} {r : Record} : d.toRecord? = some r ↔ r.toDraft = d := by
  constructor
  · intro h
    obtain ⟨streamLength, hstreamLength, h⟩ := Option.bind_eq_some_iff.mp h
    obtain ⟨offset, hoffset, h⟩ := Option.bind_eq_some_iff.mp h
    cases h
    obtain ⟨lgMax, lgLength, _, _, entries⟩ := d
    cases Total.toScalar_of_toTotal? hstreamLength
    cases Total.toScalar_of_toTotal? hoffset
    rfl
  · rintro rfl
    simp [toRecord?, Record.toDraft]

/-- Whether nothing was counted. -/
def isEmpty (d : Draft) : Bool := d.streamLength.isZero

/-- The number of counters. -/
def active (d : Draft) : Nat := d.entries.length

/-- The flags of a draft. -/
def flags (d : Draft) : Nat := flagsFor d.isEmpty

@[simp] theorem isEmpty_toDraft (s : Snapshot) : s.toDraft.isEmpty = s.isEmpty := by
  simp [isEmpty, toDraft, Snapshot.isEmpty]

@[simp] theorem active_toDraft (s : Snapshot) : s.toDraft.active = s.active := by
  simp [active, toDraft, Snapshot.active]

@[simp] theorem flags_toDraft (s : Snapshot) : s.toDraft.flags = s.flags := by
  simp [flags, Snapshot.flags]

end Draft

end HeavyHitters.Snapshot
