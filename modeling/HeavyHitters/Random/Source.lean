/-!
# Sources of draws

A purge samples counters at random. What it computes with the draws is independent of where
they come from, so the sampling functions take a source of draws as a parameter: a kind of
state, a state for every seed, and a draw below a bound. The only law is that a draw respects
its bound; a statement about every source is a statement about every outcome of the draws.
-/

namespace HeavyHitters

/-- A source of bounded draws. -/
structure DrawSource where
  /-- What is left to draw from. -/
  State : Type
  /-- The state that a seed stands for. -/
  ofSeed : Nat → State
  /-- Draws a natural number below the bound. -/
  draw : State → (bound : Nat) → Nat × State
  /-- A draw is below its bound. -/
  draw_lt : ∀ g bound, 0 < bound → (draw g bound).1 < bound

/-- The source that answers draws from a list one after the other, each when its own bound is asked for.
At any other bound, and when the list is used up, it answers zero and keeps what is left. -/
@[reducible]
def DrawSource.script : DrawSource where
  State := List ((bound : Nat) × Fin bound)
  ofSeed _ := []
  draw
    | ⟨b, d⟩ :: ds, bound => if b = bound then (d, ds) else (0, ⟨b, d⟩ :: ds)
    | [], _ => (0, [])
  draw_lt g bound h := by
    cases g with
    | nil => exact h
    | cons p ds =>
      dsimp only
      split
      · next heq => exact heq ▸ p.2.isLt
      · exact h

/-- A draw of the list is answered at its bound. -/
theorem DrawSource.draw_script {bound : Nat} (d : Fin bound) (ds : List ((bound : Nat) × Fin bound)) :
    DrawSource.script.draw (⟨bound, d⟩ :: ds) bound = ((d : Nat), ds) :=
  if_pos rfl

end HeavyHitters
