import HeavyHitters.Snapshot.Corruption

/-!
# Snapshots

The content of a sketch as plain data: two table lengths, the stream length, the offset, and the
counters in the order of their slots. A snapshot need not come from a sketch, so its numbers are
integers of any size; the checks that both encodings make when they read one are here.
-/

namespace HeavyHitters

/-- The content of a sketch. -/
structure Snapshot where
  /-- The binary logarithm of the greatest table length. -/
  lgMax : Int
  /-- The binary logarithm of the table length. -/
  lgLength : Int
  /-- The sum of all counts. -/
  streamLength : Int
  /-- The sum of all amounts subtracted by purges. -/
  offset : Int
  /-- The items with their counters. -/
  entries : List (Int × Int)
  deriving DecidableEq

namespace Snapshot

/-- Whether nothing was counted. -/
def isEmpty (s : Snapshot) : Bool := s.streamLength = 0

/-- The number of counters. -/
def active (s : Snapshot) : Nat := s.entries.length

/-- The flags of a snapshot. -/
def flags (s : Snapshot) : Nat := flagsFor s.isEmpty

/-! ### Checks -/

/-- Refuses an encoding in which a condition does not hold. -/
def ensure (p : Prop) [Decidable p] (c : Corruption) : Except Corruption Unit :=
  if p then .ok () else .error c

/-- Checks that the table lengths are in range, the greatest one first. -/
def checkLengths (lgMax lgLength : Int) : Except Corruption Unit := do
  ensure (lgMinLength ≤ lgMax ∧ lgMax ≤ lgMaxLength) (.maxLength lgMax)
  ensure (lgMinLength ≤ lgLength ∧ lgLength ≤ lgMax) (.tableLength lgMax lgLength)

/-- Checks that a snapshot is marked as empty exactly if nothing was counted. -/
def checkEmptiness (marked : Bool) (streamLength active : Int) : Except Corruption Unit :=
  if marked then ensure (streamLength = 0 ∧ active = 0) (.flaggedEmpty streamLength active)
  else ensure (streamLength ≠ 0) .unflaggedEmpty

theorem ensure_eq_ok_iff {p : Prop} [Decidable p] {c : Corruption} {u : Unit} :
    ensure p c = .ok u ↔ p := by
  by_cases h : p <;> simp [ensure, h]

end Snapshot

end HeavyHitters
