import HeavyHitters.Error

/-!
# Outcomes

What an operation on a changing thing leaves behind: the thing as it is now, the events on the
way, and the error that stopped the operation, if one did. A failure does not undo what was done
before it, so a series of operations stops at the first failure and keeps the state reached.
-/

namespace HeavyHitters

/-- What happens to the table of a sketch besides the counting. -/
inductive Event where
  /-- The table grew to `slots` slots, and may now hold `capacity` counters. -/
  | grew (slots capacity : Nat)
  /-- A purge at a stream length of `total` removed `dropped` of `active` counters, by subtracting
  `median` from each. -/
  | purged (total : Int) (dropped active : Nat) (median : Int)
  deriving DecidableEq

/-- The line that records an event. -/
def Event.line : Event → String
  | grew slots capacity => s!"grew map to {slots} slots (capacity {capacity})"
  | purged _ dropped active median => s!"purged {dropped} of {active} counters by median {median}"

/-- The outcome of an operation on a state. -/
structure Outcome (σ : Type) where
  /-- The state afterwards. -/
  state : σ
  /-- The events, the earliest first. -/
  events : List Event
  /-- The error that stopped the operation. -/
  failure : Option Error

namespace Outcome

variable {σ : Type} {α : Type}

/-- Success without events. -/
def ok (s : σ) : Outcome σ := ⟨s, [], none⟩

/-- Failure in a state. -/
def fail (s : σ) (e : Error) : Outcome σ := ⟨s, [], some e⟩

/-- The result of an operation that either succeeds or leaves the state `s` as it is. -/
def ofExcept (s : σ) : Except Error σ → Outcome σ
  | .ok s' => ok s'
  | .error e => fail s e

/-- Goes on after a success. -/
def andThen : Outcome σ → (σ → Outcome σ) → Outcome σ
  | ⟨s, events, none⟩, f =>
    let o := f s
    ⟨o.state, events ++ o.events, o.failure⟩
  | ⟨s, events, some e⟩, _ => ⟨s, events, some e⟩

/-- Takes a step for each element of a list, up to the first failure. -/
def each (step : σ → α → Outcome σ) : List α → σ → Outcome σ
  | [], s => ok s
  | a :: as, s => (step s a).andThen (each step as)

@[simp] theorem andThen_ok (s : σ) (f : σ → Outcome σ) : (ok s).andThen f = f s := by
  simp [ok, andThen]

@[simp] theorem andThen_fail (s : σ) (e : Error) (f : σ → Outcome σ) :
    (fail s e).andThen f = fail s e := rfl

theorem each_nil (step : σ → α → Outcome σ) (s : σ) : each step [] s = ok s := rfl

theorem each_cons (step : σ → α → Outcome σ) (a : α) (as : List α) (s : σ) :
    each step (a :: as) s = (step s a).andThen (each step as) := rfl

/-- A single step is the step. -/
theorem each_singleton (step : σ → α → Outcome σ) (a : α) (s : σ) : each step [a] s = step s a := by
  rw [each_cons]
  obtain ⟨t, events, failure⟩ := step s a
  cases failure with
  | none => simp [andThen, each_nil, ok]
  | some e => rfl

end Outcome

end HeavyHitters
