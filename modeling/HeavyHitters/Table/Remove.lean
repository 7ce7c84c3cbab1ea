import HeavyHitters.Amount
import HeavyHitters.Table.Basic

/-!
# Removal from a table

A removed cell leaves a hole, at which the search for the cells behind it would end too early. So
of the cells behind it, up to the next empty slot, the first that may stand in the hole is moved
there: a cell may stand anywhere from its home on. It leaves a new hole, which is closed in the
same way.

All cells whose count is spent are removed in one sweep against the direction of the
search. The sweep goes once around the circle and ends at an empty slot, so whatever cells a
removal moves have been swept already.
-/

namespace HeavyHitters.Table

variable {ν : Type}

/-- Closes the hole at the address `hole`, after which the next `d - 1` cells have to stay where
they are. A cell may be moved back by `d` slots if more than `d` slots are probed for it. -/
def closeGap : (steps : Nat) → Table ν → (hole d : Nat) → Table ν
  | 0, t, _, _ => t
  | steps + 1, t, hole, d =>
    match t.cellAt (hole + d) with
    | none => t
    | some c =>
      if d < c.probes then
        closeGap steps
          ((t.setCell hole (some { c with probes := c.probes - d })).setCell (hole + d) none)
          (hole + d) 1
      else closeGap steps t hole (d + 1)

/-- Removes the cell at an address. -/
def remove (t : Table ν) (i : Nat) : Table ν :=
  let u := t.setCell i none
  closeGap u.length { u with active := u.active - 1 } i 1

/-- The greatest number below `n` with a property. -/
def lastBelow (p : Nat → Bool) : (n : Nat) → Option Nat
  | 0 => none
  | n + 1 => if p n then some n else lastBelow p n

/-- The last empty slot. -/
def lastEmpty? (t : Table ν) : Option Nat :=
  lastBelow (fun i => (t.cellAt i).isNone) t.length

variable [Amount ν]

/-- Removes the cell at an address if its count is spent. -/
@[specialize]
def removeSpent (t : Table ν) (i : Nat) : Table ν :=
  match t.cellAt i with
  | none => t
  | some c => if Amount.isSpent c.count then t.remove i else t

/-- Sweeps the addresses from `start + n`, that one excluded, down to `start`. -/
@[specialize]
def sweep (start : Nat) : (n : Nat) → Table ν → Table ν
  | 0, t => t
  | n + 1, t => sweep start n (t.removeSpent (start + n))

/-- Removes all cells whose count is spent. -/
def keepPositive (t : Table ν) : Table ν :=
  sweep (t.lastEmpty?.getD 0) t.length t

theorem lastBelow_eq_some_iff {p : Nat → Bool} {n k : Nat} :
    lastBelow p n = some k ↔ k < n ∧ p k = true ∧ ∀ j, k < j → j < n → p j = false := by
  induction n with
  | zero => simp [lastBelow]
  | succ n ih =>
    rw [lastBelow]
    by_cases hn : p n = true
    · rw [if_pos hn]
      simp only [Option.some.injEq]
      constructor
      · rintro rfl
        exact ⟨by omega, hn, fun j _ _ => by omega⟩
      · rintro ⟨h1, _, h3⟩
        rcases Nat.lt_or_eq_of_le (Nat.le_of_lt_succ h1) with h | h
        · have := h3 n h (by omega)
          simp [this] at hn
        · exact h.symm
    · rw [if_neg hn, ih]
      constructor
      · rintro ⟨h1, h2, h3⟩
        refine ⟨by omega, h2, fun j hj hjn => ?_⟩
        rcases Nat.lt_or_eq_of_le (Nat.le_of_lt_succ hjn) with h | rfl
        · exact h3 j hj h
        · simpa using hn
      · rintro ⟨h1, h2, h3⟩
        have hne : k ≠ n := fun h => hn (h ▸ h2)
        exact ⟨by omega, h2, fun j hj hjn => h3 j hj (by omega)⟩

end HeavyHitters.Table
