import HeavyHitters.Table.Basic
import HeavyHitters.Table.Mixing

/-!
# Search in a table

The home of an item is the slot that its mixture names. The search for the item goes from there to
the first slot that is empty or holds it. It ends as long as one slot is empty.
-/

namespace HeavyHitters.Table

variable {ν : Type}

/-- The first of the `n` numbers from `d` on with a property. -/
def firstFrom (p : Nat → Bool) (d : Nat) : (n : Nat) → Option Nat
  | 0 => none
  | n + 1 => if p d then some d else firstFrom p (d + 1) n

/-- The address at which the search for an item starts. -/
def home (t : Table ν) (item : Int) : Nat := (mix item).toNat % t.length

/-- Whether the search for an item ends at an address: there is no other item there. -/
def endsAt (t : Table ν) (item : Int) (i : Nat) : Bool :=
  match t.cellAt i with
  | none => true
  | some c => c.item == item

/-- How far from the home of an item its search ends. -/
def distance? (t : Table ν) (item : Int) : Option Nat :=
  let h := t.home item
  firstFrom (fun d => t.endsAt item (h + d)) 0 t.length

/-- The cell of an item. -/
def find? (t : Table ν) (item : Int) : Option (Cell ν) :=
  (t.distance? item).bind fun d => t.cellAt (t.home item + d)

/-- The count of an item, or zero if the table does not hold it. -/
def count (t : Table Int) (item : Int) : Int :=
  match t.find? item with
  | some c => c.count
  | none => 0

/-- Whether the table holds an item. -/
def contains (t : Table ν) (item : Int) : Bool := (t.find? item).isSome

theorem firstFrom_eq_some_iff {p : Nat → Bool} {d n k : Nat} :
    firstFrom p d n = some k ↔
      d ≤ k ∧ k < d + n ∧ p k = true ∧ ∀ j, d ≤ j → j < k → p j = false := by
  induction n generalizing d with
  | zero =>
    simp only [firstFrom, reduceCtorEq, false_iff]
    omega
  | succ n ih =>
    rw [firstFrom]
    by_cases hd : p d = true
    · rw [if_pos hd]
      simp only [Option.some.injEq]
      constructor
      · rintro rfl
        exact ⟨Nat.le_refl _, by omega, hd, fun j _ _ => by omega⟩
      · rintro ⟨h1, _, _, h4⟩
        rcases Nat.lt_or_eq_of_le h1 with h | h
        · have := h4 d (Nat.le_refl _) h
          simp [this] at hd
        · exact h
    · rw [if_neg hd, ih]
      constructor
      · rintro ⟨h1, h2, h3, h4⟩
        refine ⟨by omega, by omega, h3, fun j hj hjk => ?_⟩
        rcases Nat.lt_or_eq_of_le hj with h | rfl
        · exact h4 j h hjk
        · simpa using hd
      · rintro ⟨h1, h2, h3, h4⟩
        have hne : k ≠ d := fun h => hd (h ▸ h3)
        exact ⟨by omega, by omega, h3, fun j hj hjk => h4 j (by omega) hjk⟩

end HeavyHitters.Table
