import HeavyHitters.Median
import HeavyHitters.Outcome
import HeavyHitters.Table.Remove

/-!
# Purging a table

A purge makes room: it subtracts an approximate median of the counts from every count and removes
the cells that are spent then. The subtracted amount is the most that any count has lost.

If the counts are not all numbers a purge may be stopped: before the median is known, or at the
first count from which it cannot be subtracted. The counts before that one have changed then.
-/

namespace HeavyHitters.Table

variable {ν : Type}

/-! ### Subtraction -/

/-- Changes the counts at `n` addresses, from `i` on, up to the first that cannot be changed. -/
@[specialize]
def adjustFrom (f : ν → Except Error ν) : (n i : Nat) → Table ν → Outcome (Table ν)
  | 0, _, t => .ok t
  | n + 1, i, t =>
    match t.cellAt i with
    | none => adjustFrom f n (i + 1) t
    | some c =>
      match f c.count with
      | .error e => .fail t e
      | .ok count => adjustFrom f n (i + 1) (t.setCell i (some { c with count }))

/-- If all counts can be changed, each of them is, and nothing else. -/
theorem exists_adjustFrom_ok (f : ν → ν) (n i : Nat) (t : Table ν) (h : i + n ≤ t.length) :
    ∃ u, adjustFrom (fun c => .ok (f c)) n i t = .ok u ∧ u.length = t.length ∧
      u.active = t.active ∧ ∀ j, j < t.length →
        u.cellAt j =
          if i ≤ j ∧ j < i + n then (t.cellAt j).map fun c => { c with count := f c.count }
          else t.cellAt j := by
  induction n generalizing i t with
  | zero =>
    refine ⟨t, rfl, rfl, rfl, fun j _ => ?_⟩
    have : ¬(i ≤ j ∧ j < i + 0) := by omega
    rw [if_neg this]
  | succ n ih =>
    rw [adjustFrom]
    cases hc : t.cellAt i with
    | none =>
      obtain ⟨u, hu, hl, ha, hs⟩ := ih (i + 1) t (by omega)
      refine ⟨u, hu, hl, ha, fun j hj => ?_⟩
      rw [hs j hj]
      by_cases hij : i = j
      · subst hij
        have h1 : ¬(i + 1 ≤ i ∧ i < i + 1 + n) := by omega
        have h2 : i ≤ i ∧ i < i + (n + 1) := by omega
        rw [if_neg h1, if_pos h2, hc]
        rfl
      · have : (i + 1 ≤ j ∧ j < i + 1 + n) ↔ (i ≤ j ∧ j < i + (n + 1)) := by omega
        simp only [this]
    | some c =>
      obtain ⟨u, hu, hl, ha, hs⟩ :=
        ih (i + 1) (t.setCell i (some { c with count := f c.count })) (by simp; omega)
      refine ⟨u, hu, by simpa using hl, by simpa using ha, fun j hj => ?_⟩
      rw [hs j (by simpa using hj), cellAt_setCell, Nat.mod_eq_of_lt hj,
        Nat.mod_eq_of_lt (show i < t.length by omega)]
      by_cases hij : j = i
      · subst hij
        have h1 : ¬(j + 1 ≤ j ∧ j < j + 1 + n) := by omega
        have h2 : j ≤ j ∧ j < j + (n + 1) := by omega
        simp only [if_neg h1, if_pos h2, hc, if_true]
        rfl
      · have : (i + 1 ≤ j ∧ j < i + 1 + n) ↔ (i ≤ j ∧ j < i + (n + 1)) := by omega
        simp only [this, hij, if_false]

variable [Amount ν]

/-- Subtracts an amount from the counts, in the order of the slots. -/
@[specialize]
def subtract (t : Table ν) (amount : ν) : Outcome (Table ν) :=
  match Amount.opposite amount with
  | .error e => .fail t e
  | .ok change => adjustFrom (fun count => Amount.plus count change) t.length 0 t

/-- An integer can be subtracted from all integers. -/
theorem exists_subtract_int (t : Table Int) (amount : Int) :
    ∃ u, t.subtract amount = .ok u ∧ u.length = t.length ∧ u.active = t.active ∧
      ∀ j, j < t.length →
        u.cellAt j = (t.cellAt j).map fun c => { c with count := c.count - amount } := by
  obtain ⟨u, hu, hl, ha, hs⟩ :=
    exists_adjustFrom_ok (fun count => count + -amount) t.length 0 t (by omega)
  refine ⟨u, hu, hl, ha, fun j hj => ?_⟩
  have : 0 ≤ j ∧ j < 0 + t.length := by omega
  rw [hs j hj, if_pos this]
  rfl

/-! ### Purges -/

/-- How many counts a purge samples: as many as asked for, but not more than there are. -/
def sampleBound (active : Nat) (size : Scalar) : Except Error Scalar := do
  return if ← (Scalar.int active).isBelow size then .int active else size

/-- Purges a table by the median of a sample of at most `size` counts, and answers that median. A
table without counters stays as it is, and nothing is drawn. -/
@[specialize]
def purge (src : DrawSource) (t : Table ν) (size : Scalar) (g : src.State) :
    Except Error ν × Table ν × src.State :=
  if t.active = 0 then (.ok Amount.zero, t, g)
  else
    match sampleBound t.active size with
    | .error e => (.error e, t, g)
    | .ok bound =>
      match Median.approximate src t.counts bound g with
      | (.error e, g) => (.error e, t, g)
      | (.ok median, g) =>
        match t.subtract median with
        | ⟨t, _, some e⟩ => (.error e, t, g)
        | ⟨t, _, none⟩ => (.ok median, t.keepPositive, g)

@[simp] theorem sampleBound_int (active : Nat) (size : Int) :
    sampleBound active (.int size) = .ok (.int (min size active)) := by
  simp only [sampleBound, Scalar.isBelow_int, bind, Except.bind, pure, Except.pure,
    decide_eq_true_eq, Except.ok.injEq]
  split <;> congr 1 <;> omega

end HeavyHitters.Table
