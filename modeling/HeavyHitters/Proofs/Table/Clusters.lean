import HeavyHitters.Proofs.Table.Sweeping
import Mathlib.Data.Finset.Erase
import Mathlib.Data.Finset.Filter
import Mathlib.Data.Finset.Range

/-!
# One entry less

A removal takes one entry away, and other cells are moved to close its hole. The occupied slots of a table
form clusters, which are kept apart by the empty ones, and no cell is moved out of its cluster: the loop that
closes the hole ends at the end of it, and the cells of other clusters are not looked at.

Inside the cluster cells are moved from slot to slot, perhaps many of them. Still there is one hole at any
time, and with the hole the same slots are taken as before (`Frees`). So in the end one slot of the cluster
is free that was not, which need not be the one of the removed cell.

## What is proved

* `Frees.moved`, `Frees.emptied`, `Open.exists_frees`: what becomes of the occupied slots while a hole is
  closed, move by move and in all.
* `Layout.occupied_remove`, `Layout.cellAt_remove`: what a removal does to the cluster, and to the others.
* `removes_one`: a removal ends, takes away one entry, and frees one slot.
-/

namespace HeavyHitters.Table

open StateTransition

variable {ν : Type} {t : Table ν}

/-! ### Clusters -/

/-- The occupied slots. -/
def occupied (t : Table ν) : Finset ℕ := {i ∈ Finset.range t.length | (t.cellAt i).isSome}

theorem mem_occupied {i : ℕ} : i ∈ t.occupied ↔ i < t.length ∧ (t.cellAt i).isSome := by
  simp [occupied]

/-- Two occupied slots, one right after the other on the circle. -/
def Neighbours (t : Table ν) (i j : ℕ) : Prop :=
  i ∈ t.occupied ∧ j ∈ t.occupied ∧ (i + 1 ≡ j [MOD t.length] ∨ j + 1 ≡ i [MOD t.length])

/-- The cluster of an occupied slot: the slots that can be reached from it, in either direction, without
passing an empty one. -/
def cluster (t : Table ν) (p : ℕ) : Set ℕ := {q | Relation.ReflTransGen t.Neighbours p q}

/-- As long as the slots from `p` on are occupied, they are in the cluster of `p`. -/
theorem mem_cluster_of_run {p d : ℕ} (hp : p < t.length) (h : ∀ e ≤ d, (t.cellAt (p + e)).isSome) :
    (p + d) % t.length ∈ t.cluster p := by
  have hslot : ∀ e ≤ d, (p + e) % t.length ∈ t.occupied := fun e he => by
    rw [mem_occupied, cellAt_congr (Nat.mod_modEq _ _)]
    exact ⟨Nat.mod_lt _ t.length_pos, h e he⟩
  induction d with
  | zero =>
    rw [Nat.add_zero, Nat.mod_eq_of_lt hp]
    exact .refl
  | succ d ih =>
    have hnext : (p + d) % t.length + 1 ≡ (p + (d + 1)) % t.length [MOD t.length] :=
      ((Nat.mod_modEq _ _).add_right 1).trans (Nat.mod_modEq _ _).symm
    exact .tail (ih (fun e he => h e (by omega)) fun e he => hslot e (by omega))
      ⟨hslot d (by omega), hslot (d + 1) le_rfl, .inl hnext⟩

/-! ### The slot that is freed -/

/-- Closing the hole of the table `t` has left the table `u`, which has its hole at `q`. Nothing else has
changed in which slots are occupied. -/
structure Frees (t : Table ν) (hole stop : ℕ) (u : Table ν) (q : ℕ) : Prop where
  /-- The new hole is not before the old one. -/
  hole_le : hole ≤ q
  /-- It is before the empty slot ahead. -/
  lt_stop : q < stop
  /-- It is empty. -/
  empty : u.cellAt q = none
  /-- With the hole, the same slots are taken. -/
  covered : ∀ i, i ≡ q [MOD t.length] ∨ (u.cellAt i).isSome ↔ i ≡ hole [MOD t.length] ∨ (t.cellAt i).isSome

namespace Frees

variable {hole d stop q : ℕ} {u : Table ν}

/-- The hole stays where it is. -/
theorem refl {first : ℕ} (h : Open t first hole d stop) : Frees t hole stop t hole :=
  ⟨le_rfl, (Nat.lt_add_of_pos_right h.pos).trans_le h.le_stop, h.hole_empty, fun _ => .rfl⟩

/-- A move fills the hole, and the slot of the cell that is moved is the next one. -/
theorem moved {c : Cell ν} (hc : t.cellAt (hole + d) = some c)
    (h : Frees (t.moved hole d c) (hole + d) stop u q) : Frees t hole stop u q where
  hole_le := (Nat.le_add_right hole d).trans h.hole_le
  lt_stop := h.lt_stop
  empty := h.empty
  covered i := by
    have hcovered := h.covered i
    rw [length_moved] at hcovered
    exact hcovered.trans (covered_moved hc i)

/-- The slot of the removed cell is the first hole. -/
theorem emptied (h : Frees (t.emptied hole) hole stop u q) : Frees t hole stop u q where
  hole_le := h.hole_le
  lt_stop := h.lt_stop
  empty := h.empty
  covered i := by
    have hcovered := h.covered i
    rw [length_emptied] at hcovered
    refine hcovered.trans (or_congr_right' fun hmod => ?_)
    rw [cellAt_emptied_of_not_modEq hmod]

/-- If the hole of the table `t` is still occupied, the table `u` has one occupied slot less. -/
theorem occupied_eq (h : Frees t hole stop u q) (hl : u.length = t.length) (hhole : (t.cellAt hole).isSome) :
    u.occupied = t.occupied.erase (q % t.length) := by
  ext i
  rw [Finset.mem_erase, mem_occupied, mem_occupied, hl]
  have hcovered := h.covered i
  have hslot : q % t.length ≡ q [MOD u.length] := by
    rw [hl]
    exact Nat.mod_modEq q t.length
  constructor
  · rintro ⟨hi, hkept⟩
    refine ⟨?_, hi, (hcovered.mp (.inr hkept)).elim (fun hmod => ?_) id⟩
    · rintro rfl
      rw [cellAt_congr hslot, h.empty] at hkept
      cases hkept
    · rwa [cellAt_congr hmod]
  · rintro ⟨hne, hi, hsome⟩
    refine ⟨hi, (hcovered.mpr (.inr hsome)).resolve_left fun hmod => hne ?_⟩
    rwa [Nat.ModEq, Nat.mod_eq_of_lt hi] at hmod

end Frees

/-- **Closing a hole leaves one hole**, however many cells are moved. -/
theorem Open.exists_frees {first hole d stop : ℕ} (steps : ℕ) (h : Open t first hole d stop)
    (hsteps : stop < hole + d + steps) : ∃ q, Frees t hole stop (Table.closeGap steps t hole d) q := by
  refine Open.closeGap_induction (motive := fun t hole _ u => ∃ q, Frees t hole stop u q) ?_ ?_ ?_ steps h hsteps
  · intro t hole d h _
    exact ⟨hole, .refl h⟩
  · intro t hole d c u _ _ _ hrest
    exact hrest
  · rintro t hole d c u _ hc _ ⟨q, hq⟩
    exact ⟨q, hq.moved hc⟩

/-! ### Removals -/

namespace Layout

variable {p i : ℕ}

/-- **A removal frees one slot**, in the cluster of the removed cell. -/
theorem occupied_remove (h : Layout t) (hp : p ∈ t.occupied) :
    ∃ q ∈ t.cluster p, q ∈ t.occupied ∧ (t.remove p).occupied = t.occupied.erase q := by
  obtain ⟨hlt, hsome⟩ := mem_occupied.mp hp
  obtain ⟨stop, hstop, hturn, hempty, hrun⟩ := h.exists_stop hsome
  obtain ⟨q, hq⟩ := (h.hole hstop hturn hempty).exists_frees t.length (by omega)
  rw [← remove_eq] at hq
  have hfrees : Frees t p stop (t.remove p) q := hq.emptied
  have hbefore := hfrees.lt_stop
  obtain ⟨d, rfl⟩ := Nat.exists_eq_add_of_le hfrees.hole_le
  refine ⟨(p + d) % t.length, mem_cluster_of_run hlt fun e he => hrun (p + e) (by omega) (by omega), ?_,
    hfrees.occupied_eq (length_remove t p) hsome⟩
  rw [mem_occupied, cellAt_congr (Nat.mod_modEq _ _)]
  exact ⟨Nat.mod_lt _ t.length_pos, hrun (p + d) hfrees.hole_le hbefore⟩

/-- A removal changes nothing in the other clusters. -/
theorem cellAt_remove (h : Layout t) (hp : p ∈ t.occupied) (hi : i < t.length) (hout : i ∉ t.cluster p) :
    (t.remove p).cellAt i = t.cellAt i := by
  obtain ⟨hlt, hsome⟩ := mem_occupied.mp hp
  obtain ⟨stop, hstop, hturn, hempty, hrun⟩ := h.exists_stop hsome
  obtain ⟨d, hd, hmod⟩ := exists_modEq t.length_pos i p
  -- the slot is not reached from the removed cell before the empty one
  have hbehind : stop ≤ p + d := by
    by_contra hbefore
    have hmem : (p + d) % t.length ∈ t.cluster p :=
      mem_cluster_of_run hlt fun e he => hrun (p + e) (by omega) (by omega)
    rw [hmod, Nat.mod_eq_of_lt hi] at hmem
    exact hout hmem
  have hl : (t.remove p).length = t.length := length_remove t p
  rw [← cellAt_congr (hl ▸ hmod), ← cellAt_congr hmod]
  exact cellAt_remove_of_le hstop hempty hbehind (by omega)

end Layout

/-- **A removal takes away one entry and nothing else**, whatever the clusters are. The loop that closes the
hole ends, and the probe runs are in order again. One slot is free that was not, in the cluster of the
removed cell, and what is not in this cluster stays where it is. -/
theorem removes_one (h : t.ProbeRuns) {p : ℕ} {c : Cell ν} (hp : p < t.length) (hc : t.cellAt p = some c) :
    (∃ x ∈ eval Shift.round ⟨t.emptied p, p, 1⟩, x.table = t.remove p) ∧
      t.entries.Perm ((c.item, c.count) :: (t.remove p).entries) ∧
      (t.remove p).ProbeRuns ∧ (t.remove p).length = t.length ∧
      (∃ q ∈ t.cluster p, q ∈ t.occupied ∧ (t.remove p).occupied = t.occupied.erase q) ∧
      ∀ i < t.length, i ∉ t.cluster p → (t.remove p).cellAt i = t.cellAt i := by
  have hlayout := h.layout
  have hsome : (t.cellAt p).isSome := Option.isSome_of_eq_some hc
  have hmem : p ∈ t.occupied := mem_occupied.mpr ⟨hp, hsome⟩
  obtain ⟨stop, hstop, hturn, hempty, -⟩ := hlayout.exists_stop hsome
  have hremoves := hlayout.remove hc hstop hturn hempty
  exact ⟨hlayout.shift_ends hsome, hremoves.perm, hremoves.layout.probeRuns, length_remove t p,
    hlayout.occupied_remove hmem, fun i hi hout => hlayout.cellAt_remove hmem hi hout⟩

/-- Eight slots with a cluster of six, which goes around the end of the table. -/
def crossing : Table ℤ := counted 3 [4, 5, 2, 8, 31, 0]

/-- When the item two is removed from the last slot, the item eight comes back to it from the first one. The
item thirty-one stands at home and is passed by, and the item zero fills the second hole. So the slot that is
free then is the third. -/
theorem removes_one_crossing :
    crossing.ProbeRuns ∧ crossing.cellAt 7 = some ⟨2, 3, 1⟩ ∧ crossing.occupied = {5, 6, 7, 0, 1, 2} ∧
      (∃ x ∈ eval Shift.round ⟨crossing.emptied 7, 7, 1⟩, x.table = crossing.remove 7) ∧
      crossing.entries.Perm ((2, 3) :: (crossing.remove 7).entries) ∧ (crossing.remove 7).ProbeRuns ∧
      2 ∈ crossing.cluster 7 ∧ (crossing.remove 7).occupied = {5, 6, 7, 0, 1} ∧
      (crossing.remove 7).cellAt 7 = some ⟨8, 9, 1⟩ ∧ (crossing.remove 7).cellAt 0 = some ⟨0, 1, 1⟩ := by
  have hruns : crossing.ProbeRuns := (reachable_counted _ _).layout.probeRuns
  have hcell : crossing.cellAt 7 = some ⟨2, 3, 1⟩ := by decide +kernel
  obtain ⟨hends, hperm, hafter, -, ⟨q, hcluster, hq, hfreed⟩, -⟩ :=
    removes_one hruns (show 7 < crossing.length by decide +kernel) hcell
  have hbefore : crossing.occupied = {5, 6, 7, 0, 1, 2} := by decide +kernel
  have hleft : (crossing.remove 7).occupied = {5, 6, 7, 0, 1} := by decide +kernel
  obtain rfl : q = 2 := by
    have hmem : q ∈ crossing.occupied \ (crossing.remove 7).occupied := by
      rw [hfreed, Finset.mem_sdiff]
      exact ⟨hq, Finset.notMem_erase _ _⟩
    have hone : ({5, 6, 7, 0, 1, 2} \ {5, 6, 7, 0, 1} : Finset ℕ) = {2} := by decide
    rwa [hbefore, hleft, hone, Finset.mem_singleton] at hmem
  exact ⟨hruns, hcell, hbefore, hends, hperm, hafter, hcluster, hleft, by decide +kernel, by decide +kernel⟩

end HeavyHitters.Table
