import HeavyHitters.Sketch.Update
import HeavyHitters.Snapshot.Binary
import HeavyHitters.Snapshot.Line

/-!
# Saving and loading

A sketch is saved as a snapshot, which holds its counters in the order of their slots. To load one,
the counters are counted anew, in a table of the recorded length; then the recorded offset is
added, and the recorded stream length takes the place of the counted one. A snapshot of a sketch
never makes the table grow or be purged while it is loaded, but another snapshot may, and so may a
record, which in addition may hold scalars that are no integers. A truth value that is recorded as a
total is shown again when the sketch is saved as a record or as a line, and so not every line of a
loaded sketch can be read.

The entries of any draft can be counted anew, and where that is refused, so is the draft. But a draft
that is no record may pass, if a decimal stands in it for one of the totals. The totals of the sketch
would be decimals then, and not those of a sketch as it is described here; so only records are loaded.
-/

namespace HeavyHitters

/-- What came of loading a sketch. -/
structure Loading where
  /-- The events on the way, the earliest first. -/
  events : List Event
  /-- The sketch, or why there is none. -/
  result : Except Error Sketch

/-- The same loading, with a change to the sketch that comes of it. -/
def Loading.map (f : Sketch → Sketch) (l : Loading) : Loading := ⟨l.events, l.result.map f⟩

namespace Sketch

/-! ### Saving -/

/-- The content of a sketch. -/
def toSnapshot (s : Sketch) : Snapshot :=
  ⟨s.lgMax, s.table.lgLength, s.streamLength, s.offset, s.table.entries⟩

/-- The content of a sketch, with its totals as they are shown. -/
def toRecord (s : Sketch) : Snapshot.Record :=
  { s.toSnapshot.toRecord with streamLength := s.shownStreamLength, offset := s.shownOffset }

/-- The same as a draft. -/
def toDraft (s : Sketch) : Snapshot.Draft := s.toRecord.toDraft

/-- A sketch in the binary encoding. -/
def toBytes (s : Sketch) : Except Error (List UInt8) := s.toSnapshot.toBytes

/-- A sketch as a line. -/
def toLine (s : Sketch) : Except Error String := s.toDraft.toLine .usual

/-- Unless a total is shown as a truth value, the record is that of the snapshot. -/
theorem toRecord_eq {s : Sketch} (h : s.truths = .none) : s.toRecord = s.toSnapshot.toRecord := by
  simp only [toRecord, shownStreamLength, shownOffset, h, Truths.none, shown_false]
  rfl

/-- And then the draft is that of the snapshot, too. -/
theorem toDraft_eq {s : Sketch} (h : s.truths = .none) : s.toDraft = s.toSnapshot.toDraft := by
  rw [toDraft, toRecord_eq h, Snapshot.toDraft_toRecord]

/-! ### Loading -/

/-- The empty sketch that the entries of a draft are counted in. -/
def prepare (d : Snapshot.Draft) (seed : Scalar) : Except Error Sketch := do
  if ← d.offset.isBelow (.int 0) then throw .negativeSnapshot
  if ← d.streamLength.isBelow (.int 0) then throw .negativeSnapshot
  ofLog2 d.lgMax d.lgLength seed

/-- The sketch that the entries of a draft have been counted in, before its totals are recorded. -/
def recount (src : DrawSource) (d : Snapshot.Draft) (seed : Scalar) : Loading :=
  match prepare d seed with
  | .error e => ⟨[], .error e⟩
  | .ok s =>
    match updateAll src s d.entries with
    | ⟨s, events, none⟩ => ⟨events, .ok s⟩
    | ⟨_, events, some e⟩ => ⟨events, .error e⟩

/-- A sketch with the recorded offset added to its own, and the recorded stream length in place of
its own. If nothing has been counted, the offset is the recorded one itself. -/
def restore (r : Snapshot.Record) (s : Sketch) : Sketch :=
  { s with
    offset := s.offset + r.offset.value
    streamLength := r.streamLength.value
    truths := ⟨r.offset.isTruth && s.isEmpty, r.streamLength.isTruth⟩ }

/-- The sketch with the content of a record, and with the given seed. -/
def ofRecord (src : DrawSource) (r : Snapshot.Record) (seed : Scalar) : Loading :=
  (recount src r.toDraft seed).map (restore r)

/-- The sketch with the content of a snapshot, and with the given seed. -/
def ofSnapshot (src : DrawSource) (p : Snapshot) (seed : Int) : Loading :=
  ofRecord src p.toRecord (.int seed)

/-- Loading a snapshot, in terms of its integers. -/
theorem ofSnapshot_eq (src : DrawSource) (p : Snapshot) (seed : Int) :
    ofSnapshot src p seed =
      if p.offset < 0 ∨ p.streamLength < 0 then ⟨[], .error .negativeSnapshot⟩
      else
        match ofLog2 (.int p.lgMax) (.int p.lgLength) (.int seed) with
        | .error e => ⟨[], .error e⟩
        | .ok s =>
          match replay src s p.entries with
          | ⟨s, events, none⟩ =>
            ⟨events, .ok { s with
              offset := s.offset + p.offset, streamLength := p.streamLength, truths := .none }⟩
          | ⟨_, events, some e⟩ => ⟨events, .error e⟩ := by
  have hp : prepare p.toDraft (.int seed) =
      if p.offset < 0 ∨ p.streamLength < 0 then .error .negativeSnapshot
      else ofLog2 (.int p.lgMax) (.int p.lgLength) (.int seed) := by
    simp only [prepare, Snapshot.toDraft, Scalar.isBelow_int, bind, Except.bind,
      decide_eq_true_eq]
    by_cases h1 : p.offset < 0
    · simp only [h1, true_or, if_true]
      rfl
    · by_cases h2 : p.streamLength < 0
      · simp only [h1, h2, or_true, if_true, if_false]
        rfl
      · simp only [h1, h2, or_self, if_false]
  have hr : p.toDraft.entries = p.entries.map fun e => (.int e.1, .int e.2) := rfl
  rw [ofSnapshot, ofRecord, Snapshot.toDraft_toRecord, recount, hp]
  by_cases h : p.offset < 0 ∨ p.streamLength < 0
  · simp only [h, if_true]
    rfl
  · simp only [h, if_false]
    cases ofLog2 (.int p.lgMax) (.int p.lgLength) (.int seed) with
    | error e => rfl
    | ok s =>
      simp only [hr, updateAll_int]
      cases replay src s p.entries with
      | mk s events failure => cases failure <;> rfl

/-- The sketch with the content of a snapshot that was decoded, unless that failed. -/
def ofDecoded (src : DrawSource) : Except Corruption Snapshot → Loading
  | .error c => ⟨[], .error (.corrupt c)⟩
  | .ok p => ofSnapshot src p defaultSeed

/-- The sketch that bytes stand for. -/
def ofBytes (src : DrawSource) (bs : List UInt8) : Loading :=
  ofDecoded src (Snapshot.ofBytes bs)

/-- The sketch that a line stands for. -/
def ofLine (src : DrawSource) (line : String) : Loading :=
  ofDecoded src (Snapshot.ofLine .usual line)

end Sketch

end HeavyHitters
