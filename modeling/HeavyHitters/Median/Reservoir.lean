import HeavyHitters.Error
import HeavyHitters.Random.Source

/-!
# Reservoir sampling

A uniform sample of a bounded number of values, taken in one pass. The first values fill the
reservoir; each later one is given a position drawn from all positions up to its own, and
replaces the value there if that position lies in the reservoir.
-/

namespace HeavyHitters.Median

variable {α : Type} (src : DrawSource)

/-- The size of the reservoir that a scalar asks for, when `population` values go by. A fractional
size is as good as the next greater integer, and an infinite one holds every value. The undefined
quantity is not refused, but a reservoir of that size never takes a value in. -/
def reservoirSize (population : Nat) (size : Scalar) : Except Error Nat :=
  match size.quantity? with
  | none => .error (.incomparable "<=" size.typeName Scalar.integerType)
  | some (.ratio num den) => if num ≤ 0 then .error .sampleSize else .ok (Quantity.ceiling num den)
  | some (.infinite negative) => if negative then .error .sampleSize else .ok population
  | some .undefined => .ok 0

/-- Goes on sampling: `seen` values have gone by, and the reservoir, of at most `size` values, holds
`sample`. A position behind the reservoir leaves it as it is. -/
def sampleFrom (size : Nat) : List α → (seen : Nat) → (sample : Array α) → src.State →
    Array α × src.State
  | [], _, sample, g => (sample, g)
  | v :: vs, seen, sample, g =>
    if seen < size then sampleFrom size vs (seen + 1) (sample.push v) g
    else
      let (j, g) := src.draw g (seen + 1)
      sampleFrom size vs (seen + 1) (sample.setIfInBounds j v) g

/-- A uniform sample of `size` of the values, or of all if there are fewer. -/
def reservoir (values : List α) (size : Scalar) (g : src.State) :
    Except Error (Array α × src.State) := do
  let places ← reservoirSize values.length size
  return sampleFrom src places values 0 #[] g

@[simp] theorem reservoirSize_int (population : Nat) (n : Int) :
    reservoirSize population (.int n) = if n ≤ 0 then .error .sampleSize else .ok n.toNat := by
  simp [reservoirSize, Quantity.ofInt]

/-- For an integer all that counts is whether it is positive. -/
theorem reservoir_int (values : List α) (n : Int) (g : src.State) :
    reservoir src values (.int n) g =
      if n ≤ 0 then .error .sampleSize else .ok (sampleFrom src n.toNat values 0 #[] g) := by
  rw [reservoir, reservoirSize_int]
  by_cases h : n ≤ 0
  · simp only [h, if_true]
    rfl
  · simp only [h, if_false]
    rfl

theorem size_sampleFrom (size : Nat) (values : List α) (seen : Nat) (sample : Array α)
    (g : src.State) (h : sample.size = min seen size) :
    (sampleFrom src size values seen sample g).1.size = min (seen + values.length) size := by
  induction values generalizing seen sample g with
  | nil => simpa [sampleFrom] using h
  | cons v vs ih =>
    rw [sampleFrom]
    split
    · rw [ih _ _ _ (by simp; omega), List.length_cons]
      omega
    · rw [ih _ _ _ (by simp; omega), List.length_cons]
      omega

end HeavyHitters.Median
