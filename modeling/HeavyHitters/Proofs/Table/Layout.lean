import HeavyHitters.Proofs.Table.Cells

/-!
# The layout of a table

What makes a search in a table find what is there. A cell stands where the search for its item may
end: it records how far that is from its home, and every slot from its home to its own slot is
occupied (`Placed`). No item has two cells, and at least one slot is empty, so that every search
ends. A table with all this has a `Layout`.

While a cell is being removed one slot is empty that others are searched through. `Placed` therefore
takes a set of addresses, the gap, that a path may lead through although they are empty.

## What is proved

* `Layout.exists_distance`: in a table with a layout every search ends, and how.
* `Layout.find?_eq_some_iff`: it finds exactly the cells that there are.
-/

namespace HeavyHitters.Table

variable {ν : Type} {t : Table ν}

/-- The cell `c` may stand at the address `i`: its home is where it says, and no slot from there on
is empty, unless it lies in the gap. -/
structure Placed (t : Table ν) (gap : ℕ → Prop) (i : ℕ) (c : Cell ν) : Prop where
  /-- A search probes at least one slot. -/
  pos : 0 < c.probes
  /-- It probes no slot twice. -/
  le_length : c.probes ≤ t.length
  /-- From the home on, as many slots lead to the cell as it records. -/
  home : t.home c.item + c.probes ≡ i + 1 [MOD t.length]
  /-- The slots on the way, counted back from the cell, are occupied. -/
  path : ∀ e, e < c.probes → ¬ gap (i + t.length - e) → (t.cellAt (i + t.length - e)).isSome

/-- Every cell of the table can be found, and there is room to see that an item has none. -/
structure Layout (t : Table ν) : Prop where
  /-- The number of counters is right. -/
  active_eq : t.active = t.cells.length
  /-- At least one slot is empty. -/
  active_lt : t.active < t.length
  /-- Every cell stands where it may. -/
  placed : ∀ {i : ℕ} {c : Cell ν}, t.cellAt i = some c → t.Placed (fun _ => False) i c
  /-- No item has two cells. -/
  distinct : t.items.Nodup

/-- Whether a cell may stand somewhere does not depend on its count. -/
theorem Placed.with_count {gap : ℕ → Prop} {i : ℕ} {c : Cell ν} (h : t.Placed gap i c) (n : ν) :
    t.Placed gap i { c with count := n } :=
  ⟨h.pos, h.le_length, h.home, h.path⟩

/-- The slot that is `e` slots before a cell, as seen from the home of its item. -/
theorem Placed.address {gap : ℕ → Prop} {i e : ℕ} {c : Cell ν} (h : t.Placed gap i c) (he : e < c.probes) :
    t.home c.item + (c.probes - 1 - e) ≡ i + t.length - e [MOD t.length] := by
  have hle := h.le_length
  apply Nat.ModEq.add_right_cancel' (e + 1)
  have hforth : t.home c.item + (c.probes - 1 - e) + (e + 1) = t.home c.item + c.probes := by omega
  have hback : i + t.length - e + (e + 1) = i + 1 + t.length := by omega
  rw [hforth, hback]
  exact h.home.trans (by simp [Nat.ModEq])

/-- An address of a slot may be replaced by another one. -/
theorem Placed.congr {i j : ℕ} {c : Cell ν} (h : t.Placed (fun _ => False) i c)
    (hij : i ≡ j [MOD t.length]) : t.Placed (fun _ => False) j c := by
  refine ⟨h.pos, h.le_length, h.home.trans (hij.add_right 1), fun e he hgap => ?_⟩
  have hle := h.le_length
  have hback : i + t.length - e ≡ j + t.length - e [MOD t.length] := by
    have := hij.add_right (t.length - e)
    rwa [← Nat.add_sub_assoc (by omega), ← Nat.add_sub_assoc (by omega)] at this
  rw [← cellAt_congr hback]
  exact h.path e he hgap

namespace Layout

/-- An empty table. -/
theorem ofLog2 [Amount ν] (lg : ℕ) : Layout (Table.ofLog2 lg : Table ν) where
  active_eq := by simp only [cells_ofLog2]; rfl
  active_lt := by
    rw [length_ofLog2]
    exact powerOfTwo_pos lg
  placed := by
    intro i c h
    have hc := mem_cells_iff.mpr ⟨i, h⟩
    simp at hc
  distinct := by simp [items]

/-- Two cells of one item are the same cell, in the same slot. -/
theorem modEq_of_item_eq (h : Layout t) {i j : ℕ} {c d : Cell ν} (hc : t.cellAt i = some c)
    (hd : t.cellAt j = some d) (hitem : c.item = d.item) : i ≡ j [MOD t.length] := by
  by_contra hne
  have hd' : (t.setCell i none).cellAt j = some d := by
    rw [cellAt_setCell_of_not_modEq fun hji => hne hji.symm]
    exact hd
  have hmem : d ∈ (t.setCell i none).cells := mem_cells_iff.mpr ⟨j, hd'⟩
  have hnodup := ((cells_perm_cons hc).map Cell.item).nodup_iff.mp h.distinct
  rw [List.map_cons, List.nodup_cons] at hnodup
  exact hnodup.1 (hitem ▸ List.mem_map_of_mem hmem)

theorem cell_eq_of_item_eq (h : Layout t) {i j : ℕ} {c d : Cell ν} (hc : t.cellAt i = some c)
    (hd : t.cellAt j = some d) (hitem : c.item = d.item) : c = d := by
  have := cellAt_congr (h.modEq_of_item_eq hc hd hitem)
  rw [hc, hd] at this
  exact Option.some.inj this

/-- Some slot is empty. -/
theorem exists_empty (h : Layout t) : ∃ i, i < t.length ∧ t.cellAt i = none :=
  exists_empty_of_lt (h.active_eq ▸ h.active_lt)

/-! ### Searches -/

/-- A number with the property is not missed. -/
private theorem firstFrom_ne_none {p : ℕ → Bool} {n d k : ℕ} (hk : d ≤ k) (hk' : k < d + n)
    (hp : p k = true) : firstFrom p d n ≠ none := by
  induction n generalizing d with
  | zero => omega
  | succ n ih =>
    rw [firstFrom]
    split_ifs with hd
    · simp
    · rcases Nat.lt_or_eq_of_le hk with hlt | rfl
      · exact ih hlt (by omega)
      · exact absurd hp hd

/-- How a search ends: it passes cells of other items, up to an empty slot or the cell of the
item. -/
structure Ends (t : Table ν) (item : ℤ) (d : ℕ) : Prop where
  /-- Less than a turn is searched. -/
  lt_length : d < t.length
  /-- The slots passed hold other items. -/
  passed : ∀ e, e < d → ∃ c, t.cellAt (t.home item + e) = some c ∧ c.item ≠ item
  /-- No other item is where the search ends. -/
  here : ∀ c, t.cellAt (t.home item + d) = some c → c.item = item

/-- Every search ends. -/
theorem exists_distance (h : Layout t) (item : ℤ) :
    ∃ d, t.distance? item = some d ∧ Ends t item d := by
  obtain ⟨i, -, hi⟩ := h.exists_empty
  obtain ⟨k, hk, hki⟩ := exists_modEq t.length_pos i (t.home item)
  have hend : t.endsAt item (t.home item + k) = true := by
    rw [endsAt, cellAt_congr hki, hi]
  obtain ⟨d, hd⟩ := Option.ne_none_iff_exists'.mp
    (firstFrom_ne_none (p := fun e => t.endsAt item (t.home item + e)) (n := t.length)
      (Nat.zero_le k) (by omega) hend)
  refine ⟨d, hd, ?_⟩
  obtain ⟨-, hlt, hp, hmin⟩ := firstFrom_eq_some_iff.mp hd
  refine ⟨by omega, fun e he => ?_, fun c hc => ?_⟩
  · have hpe := hmin e (Nat.zero_le e) he
    cases hc : t.cellAt (t.home item + e) with
    | none => simp [endsAt, hc] at hpe
    | some c =>
      refine ⟨c, rfl, ?_⟩
      simpa [endsAt, hc] using hpe
  · simpa [endsAt, hc] using hp

/-- The search for the item of a cell ends at that cell. -/
theorem cellAt_distance (h : Layout t) {i d : ℕ} {c : Cell ν} (hc : t.cellAt i = some c)
    (hd : Ends t c.item d) : t.cellAt (t.home c.item + d) = some c := by
  have hp := h.placed hc
  have hpos := hp.pos
  rcases Nat.lt_or_ge (c.probes - 1) d with hlt | hge
  · -- the search would have passed the cell itself
    obtain ⟨b, hb, hne⟩ := hd.passed (c.probes - 1) hlt
    have h₀ := cellAt_congr (hp.address hpos)
    rw [Nat.sub_zero, Nat.sub_zero, hb, cellAt_add_length, hc] at h₀
    exact absurd (congrArg Cell.item (Option.some.inj h₀)) hne
  · -- the search ends on the path, where every slot is occupied
    have he : c.probes - 1 - d < c.probes := by omega
    have hocc := hp.path _ he id
    rw [← cellAt_congr (hp.address he), show c.probes - 1 - (c.probes - 1 - d) = d by omega] at hocc
    obtain ⟨b, hb⟩ := Option.isSome_iff_exists.mp hocc
    rw [hb, h.cell_eq_of_item_eq hb hc (hd.here b hb)]

/-- **A search finds exactly the cells that there are.** -/
theorem find?_eq_some_iff (h : Layout t) {item : ℤ} {c : Cell ν} :
    t.find? item = some c ↔ c ∈ t.cells ∧ c.item = item := by
  obtain ⟨d, hd, hend⟩ := h.exists_distance item
  rw [find?, hd, Option.bind_some]
  constructor
  · intro hc
    exact ⟨mem_cells_iff.mpr ⟨_, hc⟩, hend.here c hc⟩
  · rintro ⟨hmem, rfl⟩
    obtain ⟨i, hi⟩ := mem_cells_iff.mp hmem
    exact h.cellAt_distance hi hend

theorem find?_eq_none_iff (h : Layout t) {item : ℤ} : t.find? item = none ↔ item ∉ t.items := by
  rw [Option.eq_none_iff_forall_ne_some]
  simp only [ne_eq, h.find?_eq_some_iff, not_and, items, List.mem_map, not_exists]

/-- An item is in the table if it has a cell. -/
theorem contains_iff (h : Layout t) {item : ℤ} : t.contains item = true ↔ item ∈ t.items := by
  rw [contains, Option.isSome_iff_ne_none, ne_eq, h.find?_eq_none_iff, not_not]

end Layout

end HeavyHitters.Table
