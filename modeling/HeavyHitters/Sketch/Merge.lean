import HeavyHitters.Sketch.Update

/-!
# Merging

Folding one sketch into another. The counters of the other sketch are counted anew, which may
make the table grow or be purged; then its offset is added, and the stream length becomes the sum
of both. The entries and the offset of the other sketch are those from before the merge, so a
sketch can be merged into itself.
-/

namespace HeavyHitters

/-- What a caller may want to merge into a sketch. -/
inductive Operand where
  /-- Nothing. -/
  | nothing
  /-- Another sketch, or the same one. -/
  | sketch (s : Sketch)
  /-- Something that is not a sketch. -/
  | foreign (value : Scalar)

namespace Sketch

/-- Folds the sketch `other` into `s`. An empty one changes nothing. -/
def merge (src : DrawSource) (s other : Sketch) : Outcome Sketch :=
  if other.isEmpty then .ok s
  else
    let total := s.streamLength + other.streamLength
    if maxWord < total then .fail s .mergedOverflow
    else (replay src s other.table.entries).andThen fun s =>
      .ok { s with offset := s.offset + other.offset, streamLength := total, truths := .none }

/-- Folds an operand into a sketch, if it is one. -/
def mergeOperand (src : DrawSource) (s : Sketch) : Operand → Outcome Sketch
  | .nothing => .ok s
  | .sketch other => s.merge src other
  | .foreign _ => .fail s .notSketch

end Sketch

end HeavyHitters
