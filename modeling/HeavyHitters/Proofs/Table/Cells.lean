import HeavyHitters.Table.Search
import Mathlib.Data.List.Perm.Basic
import Mathlib.Data.Nat.ModEq

/-!
# The cells of a table

A table is seen in two ways: slot by slot, through `cellAt`, and as the list of its cells. This
module ties the two together. Slots are compared by congruence modulo the length, because addresses
are not reduced; what a change of one slot does to the list of cells is told up to the order of the
list, because that order is the order of the slots.

## What is proved

* `cellAt_setCell_self` and `cellAt_setCell_of_not_modEq`: a change of one slot, seen slot by slot.
* `cells_setCell_some` and `cells_perm_cons`: the same change, seen in the list of cells.
* `cells_eq_filterMap`, `mem_cells_iff`: the list holds what the slots hold, in their order.
* `occupants_eq_iff`, `eq_of_slotAt_eq`: what the slots of a table hold is seen address by address, and
  a table is known from its slots.
-/

namespace HeavyHitters.Table

variable {ν : Type} {t : Table ν}

/-! ### Addresses -/

theorem cellAt_congr {i j : ℕ} (h : i ≡ j [MOD t.length]) : t.cellAt i = t.cellAt j := by
  have hslot : i % t.length = j % t.length := h
  simp only [cellAt, slotAt, hslot]

/-- Addresses less than a turn apart are different slots. -/
theorem not_modEq_of_lt {n i j : ℕ} (hij : i < j) (hj : j < i + n) : ¬ i ≡ j [MOD n] := by
  intro h
  have hdvd : n ∣ j - i := (Nat.modEq_iff_dvd' hij.le).mp h
  have hzero : j - i = 0 := Nat.eq_zero_of_dvd_of_lt hdvd (by omega)
  omega

/-- Every slot has an address in the turn that starts at `k`. -/
theorem exists_modEq {n : ℕ} (hn : 0 < n) (i k : ℕ) :
    ∃ d, d < n ∧ k + d ≡ i [MOD n] := by
  have hk : k % n < n := Nat.mod_lt k hn
  refine ⟨(i + (n - k % n)) % n, Nat.mod_lt _ hn, ?_⟩
  have h₁ : k + (i + (n - k % n)) % n ≡ k % n + (i + (n - k % n)) [MOD n] :=
    Nat.ModEq.add (Nat.mod_modEq k n).symm (Nat.mod_modEq _ n)
  have h₂ : k % n + (i + (n - k % n)) = i + n := by omega
  rw [h₂] at h₁
  exact h₁.trans (by simp [Nat.ModEq])

/-! ### One slot changed -/

theorem cellAt_setCell_self {i j : ℕ} {c : Option (Cell ν)} (h : j ≡ i [MOD t.length]) :
    (t.setCell i c).cellAt j = c :=
  (cellAt_setCell t i j c).trans (if_pos h)

theorem cellAt_setCell_of_not_modEq {i j : ℕ} {c : Option (Cell ν)}
    (h : ¬ j ≡ i [MOD t.length]) : (t.setCell i c).cellAt j = t.cellAt j :=
  (cellAt_setCell t i j c).trans (if_neg h)

/-- The home of an item depends on the length only. -/
theorem home_congr {u : Table ν} (h : u.length = t.length) (item : ℤ) : u.home item = t.home item := by
  rw [home, home, h]

/-! ### The list of cells -/

/-- The cells that are found in a list of slots. -/
private theorem cells_setCell (t : Table ν) (i : ℕ) (c : Option (Cell ν)) :
    (t.setCell i c).cells =
      (t.slots.toList.set (i % t.length) ((t.slotAt i).hold c)).filterMap Slot.cell? := by
  simp only [cells, setCell, Array.toList_set]

private theorem getElem_slots (t : Table ν) (i : ℕ) (h : i % t.length < t.slots.toList.length) :
    t.slots.toList[i % t.length].cell? = t.cellAt i := by
  rw [Array.getElem_toList]
  rfl

private theorem mod_lt_length (t : Table ν) (i : ℕ) : i % t.length < t.slots.toList.length := by
  rw [Array.length_toList]
  exact t.mod_length_lt i

/-- A cell for an empty slot is one cell more. -/
theorem cells_setCell_some {i : ℕ} {c : Cell ν} (h : t.cellAt i = none) :
    (t.setCell i (some c)).cells.Perm (c :: t.cells) := by
  have hi := mod_lt_length t i
  have hset := (List.set_perm_cons_eraseIdx hi ((t.slotAt i).hold (some c))).filterMap Slot.cell?
  have hall := (List.getElem_cons_eraseIdx_perm hi).filterMap Slot.cell?
  rw [List.filterMap_cons, getElem_slots, h] at hall
  rw [List.filterMap_cons, Slot.cell?_hold] at hset
  rw [cells_setCell]
  exact hset.trans (hall.cons c)

/-- An occupied slot holds one of the cells, and the others are left when it is emptied. -/
theorem cells_perm_cons {i : ℕ} {c : Cell ν} (h : t.cellAt i = some c) :
    t.cells.Perm (c :: (t.setCell i none).cells) := by
  have hi := mod_lt_length t i
  have hset := (List.set_perm_cons_eraseIdx hi ((t.slotAt i).hold none)).filterMap Slot.cell?
  have hall := (List.getElem_cons_eraseIdx_perm hi).filterMap Slot.cell?
  rw [List.filterMap_cons, getElem_slots, h] at hall
  rw [List.filterMap_cons, Slot.cell?_hold] at hset
  rw [cells_setCell]
  exact hall.symm.trans (hset.symm.cons c)

theorem entries_setCell_some {i : ℕ} {c : Cell ν} (h : t.cellAt i = none) :
    (t.setCell i (some c)).entries.Perm ((c.item, c.count) :: t.entries) :=
  (cells_setCell_some h).map fun c : Cell ν => (c.item, c.count)

theorem entries_perm_cons {i : ℕ} {c : Cell ν} (h : t.cellAt i = some c) :
    t.entries.Perm ((c.item, c.count) :: (t.setCell i none).entries) :=
  (cells_perm_cons h).map fun c : Cell ν => (c.item, c.count)

/-- The cells stand in the order of their slots. -/
theorem cells_eq_filterMap : t.cells = (List.range' 0 t.length).filterMap t.cellAt := by
  have hslots : t.slots.toList = (List.range' 0 t.length).map t.slotAt := by
    apply List.ext_getElem
    · simp [length]
    · intro i hi hi'
      have hlt : i < t.length := by simpa using hi'
      simp [slotAt, Nat.mod_eq_of_lt hlt]
  rw [cells, hslots, List.filterMap_map]
  rfl

/-- The cells are what the slots hold. -/
theorem mem_cells_iff {c : Cell ν} : c ∈ t.cells ↔ ∃ i, t.cellAt i = some c := by
  constructor
  · intro h
    rw [cells_eq_filterMap, List.mem_filterMap] at h
    obtain ⟨i, -, hi⟩ := h
    exact ⟨i, hi⟩
  · rintro ⟨i, h⟩
    exact (cells_perm_cons h).symm.subset List.mem_cons_self

/-- An empty slot costs a cell, so as long as there are fewer cells than slots there is one. -/
theorem exists_empty_of_lt (h : t.cells.length < t.length) : ∃ i, i < t.length ∧ t.cellAt i = none := by
  rw [length, ← Array.length_toList, cells, List.length_filterMap_lt_length_iff_exists] at h
  obtain ⟨slot, hslot, hnone⟩ := h
  obtain ⟨i, hi, rfl⟩ := List.getElem_of_mem hslot
  have hlt : i < t.length := by simpa [length] using hi
  refine ⟨i, hlt, ?_⟩
  rw [← getElem_slots t i (mod_lt_length t i)]
  simpa only [Nat.mod_eq_of_lt hlt] using hnone

@[simp] theorem cells_ofLog2 [Amount ν] (lg : ℕ) : (ofLog2 lg : Table ν).cells = [] := by
  simp [cells, ofLog2, Array.toList_replicate]

@[simp] theorem length_ofLog2 [Amount ν] (lg : ℕ) : (ofLog2 lg : Table ν).length = powerOfTwo lg := by
  simp [length, ofLog2]

theorem length_entries : t.entries.length = t.cells.length := by simp [entries]

theorem counts_eq : t.counts = t.entries.map (·.2) := by simp [counts, entries, Function.comp_def]

theorem items_eq : t.items = t.entries.map (·.1) := by simp [items, entries, Function.comp_def]

/-- Tables of the same length with the same cells in the same slots have the same list of cells. -/
theorem cells_eq_map {u : Table ν} {f : Cell ν → Cell ν} (hl : u.length = t.length)
    (h : ∀ i, i < t.length → u.cellAt i = (t.cellAt i).map f) : u.cells = t.cells.map f := by
  rw [cells_eq_filterMap, cells_eq_filterMap, List.map_filterMap, hl]
  exact List.filterMap_congr fun i hi => h i (by simpa using hi)

/-! ### Equal tables -/

theorem lgLength_eq_of_length_eq {u : Table ν} (h : u.length = t.length) : u.lgLength = t.lgLength := by
  have hlog := congrArg Nat.log2 h
  rwa [Table.length_eq, Table.length_eq, log2_powerOfTwo, log2_powerOfTwo] at hlog

private theorem getElem?_occupants {i : ℕ} (hi : i < t.length) : t.occupants[i]? = some (t.cellAt i) := by
  have hsize : i < t.slots.size := hi
  simp only [occupants, Array.getElem?_map, cellAt, slotAt, Nat.mod_eq_of_lt hi,
    Array.getElem?_eq_getElem hsize, Option.map_some]

theorem cells_eq_occupants : t.cells = t.occupants.toList.filterMap id := by
  rw [cells, occupants, Array.toList_map, List.filterMap_map]
  rfl

@[simp] theorem size_occupants (t : Table ν) : t.occupants.size = t.length := Array.size_map

/-- The slots of two tables have the same cells if they are seen to have them, address by address. -/
theorem occupants_eq_iff {u : Table ν} (hl : u.length = t.length) :
    u.occupants = t.occupants ↔ ∀ i, i < t.length → u.cellAt i = t.cellAt i := by
  constructor
  · intro h i hi
    rw [← Option.some.injEq, ← getElem?_occupants hi, ← getElem?_occupants (hl ▸ hi), h]
  · intro h
    refine Array.ext_getElem? fun i => ?_
    by_cases hi : i < t.length
    · rw [getElem?_occupants hi, getElem?_occupants (hl ▸ hi), h i hi]
    · have hle : t.length ≤ i := not_lt.mp hi
      rw [Array.getElem?_eq_none (by rwa [size_occupants, hl]),
        Array.getElem?_eq_none (by rwa [size_occupants])]

/-- A table is known from its length, the number of its counters and its slots. -/
theorem eq_of_slotAt_eq {u : Table ν} (hl : u.length = t.length) (ha : u.active = t.active)
    (h : ∀ i, i < t.length → u.slotAt i = t.slotAt i) : u = t := by
  have hslots : u.slots = t.slots := by
    refine Array.ext hl fun i hi hi' => ?_
    have hlt : i < t.length := hi'
    have hslot := h i hlt
    simpa only [slotAt, hl, Nat.mod_eq_of_lt hlt] using hslot
  obtain ⟨lg, slots, hsize, active⟩ := u
  obtain rfl : lg = t.lgLength := lgLength_eq_of_length_eq hl
  obtain rfl : slots = t.slots := hslots
  obtain rfl : active = t.active := ha
  rfl

end HeavyHitters.Table
