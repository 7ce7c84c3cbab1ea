import HeavyHitters.Proofs.Results
import HeavyHitters.Sketch.Merge
import HeavyHitters.Sketch.Snapshot

/-!
# Refusals and breakdowns

Most errors say what is wrong with a request. Some would say that a sketch itself has broken down: its
table is full or cannot grow, there is no median to purge it by, or a purge has not made room. The
checks that a request goes through never fail in one of these ways, and this is shown here, check by
check. What is left to show of a sketch is then that it fails in no other way than by such a check.

## What is proved

* `noBreakdown_accept`: an update is not refused as a breakdown.
* `noBreakdown_prepare`: neither is a draft before its entries are counted.
-/

namespace HeavyHitters

/-- The errors that report a breakdown of a sketch. -/
def Error.IsBreakdown : Error → Prop
  | .tableFull _ _ | .noGrowth _ _ | .sampleSize | .emptyPopulation | .purgeIneffective => True
  | _ => False

/-- An error by which something cannot go on reports a breakdown. -/
theorem Error.isBreakdown_of_kind {e : Error} (h : e.kind = .runtime) : e.IsBreakdown := by
  cases e with
  | tableFull active length => trivial
  | purgeIneffective => trivial
  | _ => cases h

/-- If the computation fails, it does not report a breakdown. -/
def NoBreakdown {α : Type} (x : Except Error α) : Prop := ∀ e, x = .error e → ¬ e.IsBreakdown

namespace NoBreakdown

variable {α β : Type}

theorem ok (a : α) : NoBreakdown (.ok a : Except Error α) := by
  intro e h
  cases h

theorem error {e : Error} (h : ¬ e.IsBreakdown) : NoBreakdown (.error e : Except Error α) := by
  rintro _ ⟨⟩
  exact h

theorem bind {x : Except Error α} {f : α → Except Error β} (hx : NoBreakdown x)
    (hf : ∀ a, NoBreakdown (f a)) : NoBreakdown (x >>= f) := by
  cases x with
  | error e => exact error (hx e rfl)
  | ok a => exact hf a

theorem ite {p : Prop} [Decidable p] {x y : Except Error α} (hx : NoBreakdown x) (hy : NoBreakdown y) :
    NoBreakdown (if p then x else y) := by
  split_ifs
  · exact hx
  · exact hy

end NoBreakdown

/-! ### Scalars -/

namespace Scalar

theorem noBreakdown_toWord (name : String) (value : Scalar) : NoBreakdown (value.toWord name) := by
  unfold toWord
  split
  · exact .ite (.ok _) (.error id)
  · exact .error id

theorem noBreakdown_toLogarithm (value : Scalar) : NoBreakdown value.toLogarithm := by
  unfold toLogarithm
  split
  · exact .error id
  · exact .ite (.error id) (.ite (.ok _) (.ite (.error id) (.error id)))

theorem noBreakdown_toInteger (value : Scalar) : NoBreakdown value.toInteger := by
  cases value with
  | int n => exact .ok n
  | bool b => exact .ok _
  | nothing => exact .error id
  | text s =>
    simp only [toInteger]
    cases Text.readNumeral .usual s.toList with
    | error e => exact .error id
    | ok n => exact .ok n
  | decimal written =>
    simp only [toInteger]
    split
    · exact .ok _
    · exact .error id
    · exact .error id
  | thing t =>
    simp only [toInteger]
    split
    · exact .ok _
    · exact .error id

theorem noBreakdown_less (relation left right : String) (a b : Scalar) :
    NoBreakdown (less relation left right a b) := by
  unfold less
  split
  · exact .ok _
  · split
    · exact .ok _
    · exact .error id

end Scalar

/-! ### Sketches -/

namespace Sketch

theorem noBreakdown_accept (s : Sketch) (item count : Scalar) : NoBreakdown (s.accept item count) := by
  refine .bind (Scalar.noBreakdown_toWord _ _) fun _ => .bind (Scalar.noBreakdown_toWord _ _) fun _ => ?_
  exact .ite (.error id) (.ite (.error id) (.ok _))

theorem noBreakdown_ofLog2 (lgMax lgLength seed : Scalar) : NoBreakdown (ofLog2 lgMax lgLength seed) := by
  refine .bind (Scalar.noBreakdown_less _ _ _ _ _) fun _ => .ite (.error id) ?_
  refine .bind (Scalar.noBreakdown_less _ _ _ _ _) fun _ => .ite (.error id) ?_
  refine .bind (Scalar.noBreakdown_less _ _ _ _ _) fun _ => ?_
  refine .bind (Scalar.noBreakdown_less _ _ _ _ _) fun _ => .ite (.error id) ?_
  refine .bind (Scalar.noBreakdown_toInteger _) fun _ => ?_
  refine .bind (Scalar.noBreakdown_toLogarithm _) fun _ => ?_
  exact .bind (Scalar.noBreakdown_toInteger _) fun _ => .ok _

theorem noBreakdown_prepare (d : Snapshot.Draft) (seed : Scalar) : NoBreakdown (prepare d seed) := by
  refine .bind (Scalar.noBreakdown_less _ _ _ _ _) fun _ => .ite (.error id) ?_
  refine .bind (Scalar.noBreakdown_less _ _ _ _ _) fun _ => .ite (.error id) ?_
  exact noBreakdown_ofLog2 d.lgMax d.lgLength seed

end Sketch

end HeavyHitters
