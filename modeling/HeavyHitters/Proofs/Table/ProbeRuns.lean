import HeavyHitters.Proofs.Table.Rebuilding
import Mathlib.Data.Int.ModEq

/-!
# Probe runs

What makes every search in a table end where it should can be said slot by slot. The number of counters
is that of the occupied slots, and one slot is empty. Each cell records how far it stands from its home,
counted around the circle of slots, and no slot on the way is empty. And no item has two slots. This is
all that a layout asks for, said of the slots themselves instead of the list of cells and of addresses
counted back from a cell.

## What is proved

* `Layout.probeRuns`, `ProbeRuns.layout`: the one from the other.
* `layout_iff_probeRuns`: a table has a layout exactly if its probe runs are in order.
-/

namespace HeavyHitters.Table

variable {ν : Type} {t : Table ν}

/-- The probe runs of a table are in order. -/
structure ProbeRuns (t : Table ν) : Prop where
  /-- The number of counters is the number of occupied slots. -/
  active_eq : t.active = (List.range t.length).countP fun i => (t.cellAt i).isSome
  /-- That is less than the number of all slots. -/
  active_le : t.active ≤ t.length - 1
  /-- A cell records one slot more than it is away from its home, around the circle. -/
  probes_eq : ∀ i < t.length, ∀ c ∈ t.cellAt i, (c.probes : ℤ) = 1 + ((i : ℤ) - t.home c.item) % t.length
  /-- As many slots, from the home of its item to its own, are occupied. -/
  path : ∀ i < t.length, ∀ c ∈ t.cellAt i, ∀ e < c.probes, (t.cellAt (t.home c.item + e)).isSome
  /-- No item has two slots. -/
  distinct : ∀ i < t.length, ∀ j < t.length, ∀ c ∈ t.cellAt i, ∀ d ∈ t.cellAt j, c.item = d.item → i = j

/-- The occupied slots are as many as the cells. -/
theorem length_cells (t : Table ν) :
    t.cells.length = (List.range t.length).countP fun i => (t.cellAt i).isSome := by
  rw [cells_eq_filterMap, List.length_filterMap_eq_countP, List.range_eq_range']

/-! ### From the layout to the probe runs -/

/-- How far a cell is away from its home, around the circle. -/
private theorem Placed.probes_eq_emod {i : ℕ} {c : Cell ν} (h : t.Placed (fun _ => False) i c)
    (hi : i < t.length) : (c.probes : ℤ) = 1 + ((i : ℤ) - t.home c.item) % t.length := by
  have hprobes := h.probes_eq hi
  have hhome := t.home_lt c.item
  split_ifs at hprobes with hafter
  · rw [Int.emod_eq_of_lt (by omega) (by omega)]
    omega
  · rw [← Int.add_emod_right, Int.emod_eq_of_lt (by omega) (by omega)]
    omega

theorem Layout.probeRuns (h : Layout t) : t.ProbeRuns where
  active_eq := h.active_eq.trans t.length_cells
  active_le := Nat.le_sub_one_of_lt h.active_lt
  probes_eq i hi c hc := (h.placed hc).probes_eq_emod hi
  path i _ c hc e he := by
    have hp := h.placed hc
    have haddress := hp.address (e := c.probes - 1 - e) (by omega)
    rw [show c.probes - 1 - (c.probes - 1 - e) = e by omega] at haddress
    rw [cellAt_congr haddress]
    exact hp.path (c.probes - 1 - e) (by omega) id
  distinct i hi j hj c hc d hd hitem :=
    (h.modEq_of_item_eq hc hd hitem).eq_of_lt_of_lt hi hj

/-! ### From the probe runs to the layout -/

namespace ProbeRuns

variable {i : ℕ} {c : Cell ν}

/-- A cell stands where the search for it may end. -/
private theorem placed_of_lt (h : t.ProbeRuns) (hi : i < t.length) (hc : t.cellAt i = some c) :
    t.Placed (fun _ => False) i c := by
  have hprobes := h.probes_eq i hi c hc
  have hlength : (0 : ℤ) < t.length := by exact_mod_cast t.length_pos
  have hnonneg := Int.emod_nonneg ((i : ℤ) - t.home c.item) hlength.ne'
  have hlt := Int.emod_lt_of_pos ((i : ℤ) - t.home c.item) hlength
  have hhome : t.home c.item + c.probes ≡ i + 1 [MOD t.length] := by
    rw [← Int.natCast_modEq_iff]
    push_cast
    rw [hprobes]
    have hmod := ((Int.mod_modEq ((i : ℤ) - t.home c.item) t.length).add_left 1).add_left (t.home c.item)
    rwa [show (t.home c.item : ℤ) + (1 + ((i : ℤ) - t.home c.item)) = i + 1 by ring] at hmod
  have hway : t.Placed (fun _ => True) i c :=
    ⟨by omega, by omega, hhome, fun _ _ hgap => absurd trivial hgap⟩
  refine ⟨hway.pos, hway.le_length, hhome, fun e he _ => ?_⟩
  rw [← cellAt_congr (hway.address he)]
  exact h.path i hi c hc (c.probes - 1 - e) (by omega)

theorem layout (h : t.ProbeRuns) : Layout t where
  active_eq := h.active_eq.trans t.length_cells.symm
  active_lt := by
    have := h.active_le
    have := t.length_pos
    omega
  placed {i c} hc := by
    have hmod : i % t.length ≡ i [MOD t.length] := Nat.mod_modEq _ _
    rw [← cellAt_congr hmod] at hc
    exact (h.placed_of_lt (Nat.mod_lt _ t.length_pos) hc).congr hmod
  distinct := by
    have hitems : t.items = (List.range' 0 t.length).filterMap fun i => (t.cellAt i).map Cell.item := by
      rw [items, cells_eq_filterMap, List.map_filterMap]
    rw [hitems, List.Nodup, List.pairwise_filterMap]
    refine List.Pairwise.imp_of_mem (fun {i j} hi hj hne a ha b hb hab => hne ?_) List.nodup_range'
    obtain ⟨c, hc, rfl⟩ := Option.map_eq_some_iff.mp ha
    obtain ⟨d, hd, rfl⟩ := Option.map_eq_some_iff.mp hb
    have hi' : i < t.length := by simpa using hi
    have hj' : j < t.length := by simpa using hj
    exact h.distinct i hi' j hj' c hc d hd hab

end ProbeRuns

/-- **A table has a layout exactly if its probe runs are in order.** -/
theorem layout_iff_probeRuns : Layout t ↔ t.ProbeRuns := ⟨Layout.probeRuns, ProbeRuns.layout⟩

end HeavyHitters.Table
