import HeavyHitters.Median.Reservoir
import HeavyHitters.Median.Select

/-!
# Approximate medians

The median of a sample. It is always one of the values, and for a sample as large as the
population it is the exact median.
-/

namespace HeavyHitters.Median

variable {α : Type} [Amount α] (src : DrawSource)

/-- The upper median of a uniform sample of at most `size` of the values. -/
def approximate (values : List α) (size : Scalar) (g : src.State) : Except Error α × src.State :=
  match reservoir src values size g with
  | .error e => (.error e, g)
  | .ok (sample, g) =>
    if sample.isEmpty then (.error .emptyPopulation, g)
    else
      let (result, g) := select src sample (.int (sample.size / 2 : Nat)) g
      (result.map (·.1), g)

end HeavyHitters.Median
