import HeavyHitters.Proofs.Results
import HeavyHitters.Snapshot.Basic
import Mathlib.Algebra.Order.Ring.Int

/-!
# The checks of a decoded snapshot

Both encodings check the same of the snapshot that they are read as. What the checks accept is said
here in terms of the numbers.

## What is proved

* `checkLengths_eq_ok_iff`: the table lengths are accepted if they are in range.
* `checkEmptiness_eq_ok_iff`: a mark is accepted if it fits.
* `checked_eq_ok_iff`, `checked_isEmpty`: what passes all the checks that both encodings make (`checked`).
-/

namespace HeavyHitters.Snapshot

/-- The table lengths of a snapshot are in range. -/
structure LengthsInRange (lgMax lgLength : ℤ) : Prop where
  /-- The length has the least length as a bound. -/
  lgMin_le : lgMinLength ≤ lgLength
  /-- The greatest length is a bound of it, too. -/
  lgLength_le : lgLength ≤ lgMax
  /-- The greatest length is one that a sketch may have. -/
  lgMax_le : lgMax ≤ lgMaxLength

theorem lengthsInRange_iff {lgMax lgLength : ℤ} :
    LengthsInRange lgMax lgLength ↔ lgMinLength ≤ lgLength ∧ lgLength ≤ lgMax ∧ lgMax ≤ lgMaxLength :=
  ⟨fun h => ⟨h.lgMin_le, h.lgLength_le, h.lgMax_le⟩, fun ⟨hmin, hle, hmax⟩ => ⟨hmin, hle, hmax⟩⟩

theorem ensure_of {p : Prop} [Decidable p] (h : p) (c : Corruption) : ensure p c = .ok () := if_pos h

theorem checkLengths_eq_ok_iff {lgMax lgLength : ℤ} :
    checkLengths lgMax lgLength = .ok () ↔ LengthsInRange lgMax lgLength := by
  rw [checkLengths, bind_eq_ok]
  constructor
  · rintro ⟨_, hmax, hlength⟩
    have hmax' := ensure_eq_ok_iff.mp hmax
    have hlength' := ensure_eq_ok_iff.mp hlength
    exact ⟨hlength'.1, hlength'.2, hmax'.2⟩
  · intro h
    exact ⟨(), ensure_of ⟨h.lgMin_le.trans h.lgLength_le, h.lgMax_le⟩ _,
      ensure_of ⟨h.lgMin_le, h.lgLength_le⟩ _⟩

/-- The table lengths of a snapshot are in range, and its offset is not negative. -/
def InRange (p : Snapshot) : Prop := LengthsInRange p.lgMax p.lgLength ∧ 0 ≤ p.offset

/-- A mark tells whether nothing was counted; a snapshot that is marked has no counters, either. -/
def MarkFits (marked : Bool) (p : Snapshot) : Prop :=
  if marked then p.streamLength = 0 ∧ p.entries = [] else p.streamLength ≠ 0

/-- Such marks are accepted. -/
theorem checkEmptiness_eq_ok_iff {marked : Bool} {p : Snapshot} :
    checkEmptiness marked p.streamLength p.active = .ok () ↔ MarkFits marked p := by
  rw [checkEmptiness, MarkFits]
  split_ifs
  · rw [ensure_eq_ok_iff, active, Int.natCast_eq_zero, List.length_eq_zero_iff]
  · rw [ensure_eq_ok_iff]

/-- The mark that a snapshot is written with fits, if it has no counters when nothing was counted. -/
theorem markFits_isEmpty {p : Snapshot} (h : p.streamLength = 0 → p.entries = []) :
    MarkFits p.isEmpty p := by
  rw [MarkFits]
  split_ifs with hempty
  · have hzero : p.streamLength = 0 := of_decide_eq_true hempty
    exact ⟨hzero, h hzero⟩
  · simpa [isEmpty] using hempty

/-- A snapshot, after the checks that both encodings make of its numbers and of how it is marked. -/
def checked (marked : Bool) (p : Snapshot) : Except Corruption Snapshot := do
  checkLengths p.lgMax p.lgLength
  ensure (0 ≤ p.offset) (.negativeOffset p.offset)
  checkEmptiness marked p.streamLength p.active
  return p

/-- **What passes the checks**: a snapshot with its numbers in range whose mark fits. -/
theorem checked_eq_ok_iff {marked : Bool} {p q : Snapshot} :
    checked marked p = .ok q ↔ q = p ∧ p.InRange ∧ MarkFits marked p := by
  constructor
  · intro h
    obtain ⟨_, hlengths, h⟩ := bind_eq_ok.mp h
    obtain ⟨_, hoffset, h⟩ := bind_eq_ok.mp h
    obtain ⟨⟨⟩, hmark, h⟩ := bind_eq_ok.mp h
    cases h
    exact ⟨rfl, ⟨checkLengths_eq_ok_iff.mp hlengths, ensure_eq_ok_iff.mp hoffset⟩,
      checkEmptiness_eq_ok_iff.mp hmark⟩
  · rintro ⟨rfl, ⟨hlengths, hoffset⟩, hmark⟩
    rw [checked, checkLengths_eq_ok_iff.mpr hlengths, ensure_of hoffset, checkEmptiness_eq_ok_iff.mpr hmark]
    rfl

/-- A snapshot that is marked as what it is passes all checks, if its numbers are in range. -/
theorem checked_isEmpty {p : Snapshot} (hlengths : LengthsInRange p.lgMax p.lgLength) (hoffset : 0 ≤ p.offset)
    (hempty : p.streamLength = 0 → p.entries = []) : checked p.isEmpty p = .ok p :=
  checked_eq_ok_iff.mpr ⟨rfl, ⟨hlengths, hoffset⟩, markFits_isEmpty hempty⟩

end HeavyHitters.Snapshot
