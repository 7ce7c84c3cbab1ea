import HeavyHitters.Proofs.Table.Refinement

/-!
# What a purge drops

A purge subtracts one of the counts from all of them, and drops those that are not greater. How many these
are depends on what is drawn for the sample, but not without bound. The amount is a median of a sample, so
more than half of the sample is dropped with it, and the greater half of the sample pays for it.

If the sample is the whole table nothing depends on the draws. There is only one median then, whatever the
order of the slots, and so tables with the same entries have the same entries after it.

## What is proved

* `Drops.of_central`: what is dropped when a central count is subtracted.
* `sampled_of_active_le`: when a sample has all counts.
* `purge_drops`: what a purge of a reachable table drops, and that a sample of all counts decides it.
-/

namespace HeavyHitters.Table

variable {t u : Table ℤ} {size m : ℤ}

/-- How many counts a purge samples: as many as asked for, but no more than there are. -/
def sampled (t : Table ℤ) (size : ℤ) : ℕ := min size.toNat t.active

/-- What a purge of the table `t` by a sample of at most `size` counts has dropped when it has subtracted
`m` and left the table `u`. -/
structure Drops (t : Table ℤ) (size m : ℤ) (u : Table ℤ) : Prop where
  /-- The amount is one of the counts. -/
  mem : m ∈ t.counts
  /-- As many counters are dropped as there were counts that are not greater. -/
  active_eq : u.active + t.counts.countP (· ≤ m) = t.active
  /-- These are more than half of the sample. -/
  dropped : t.sampled size / 2 + 1 ≤ t.counts.countP (· ≤ m)
  /-- The greater half of the sample loses the whole amount. -/
  paid : u.counts.sum + (t.sampled size - t.sampled size / 2 : ℕ) * m ≤ t.counts.sum

/-- A purge of a reachable table subtracts a central count. -/
private theorem exists_purge (h : t.Reachable) (hactive : 0 < t.active) (hsize : 0 < size) (src : DrawSource)
    (g : src.State) :
    ∃ m u g', t.purge src (.int size) g = (.ok m, u, g') ∧ u.Holds t.lgLength (Entries.lessen t.entries m) ∧
      Median.Central t.counts (t.sampled size) m := by
  have hlength : t.active = t.entries.length := h.holds.active_eq
  have hne : t.entries ≠ [] := List.length_pos_iff.mp (hlength ▸ hactive)
  obtain ⟨m, u, g', hpurge, hholds, hcentral⟩ := h.holds.purge src hne hsize g
  refine ⟨m, u, g', hpurge, hholds, ?_⟩
  rw [counts_eq, sampled, min_comm, hlength]
  exact hcentral

/-- **What is dropped** when a central count is subtracted. -/
theorem Drops.of_central (h : t.Reachable) (hholds : u.Holds t.lgLength (Entries.lessen t.entries m))
    (hcentral : Median.Central t.counts (t.sampled size) m) : t.Drops size m u := by
  have hvalues : t.counts = Entries.values t.entries := t.counts_eq
  refine ⟨hcentral.mem, ?_, hcentral.below, ?_⟩
  · rw [hholds.active_eq, h.holds.active_eq, hvalues]
    exact Entries.length_lessen t.entries m
  · have hpaid := Entries.total_lessen_of_central h.positive (hvalues ▸ hcentral)
    have hleft : u.counts.sum = (Entries.lessen t.entries m).total := by
      rw [counts_eq]
      exact Entries.total_perm hholds.perm
    rw [hleft, hvalues]
    exact hpaid

/-- A sample that may have as many elements as there are counts has them all. -/
theorem sampled_of_active_le (h : t.Reachable) (hall : (t.active : ℤ) ≤ size) :
    t.sampled size = t.counts.length := by
  rw [sampled, counts, List.length_map, ← h.layout.active_eq]
  omega

/-- **What a purge drops**, from every table that requests can make, and whatever is drawn. By a sample of
all counts any table with the same entries, whatever its length and the order of its slots, is purged by the
same amount, and has the same entries after it. -/
theorem purge_drops (h : t.Reachable) (hactive : 0 < t.active) (hsize : 0 < size) (src : DrawSource)
    (g : src.State) :
    ∃ m u g₁, t.purge src (.int size) g = (.ok m, u, g₁) ∧ t.Drops size m u ∧
      ((t.active : ℤ) ≤ size → ∀ t' : Table ℤ, t'.Reachable → t'.entries.Perm t.entries →
        ∀ size', (t'.active : ℤ) ≤ size' → ∀ (src' : DrawSource) (g' : src'.State),
          ∃ u' g₂, t'.purge src' (.int size') g' = (.ok m, u', g₂) ∧ u'.entries.Perm u.entries) := by
  obtain ⟨m, u, g₁, hpurge, hholds, hcentral⟩ := exists_purge h hactive hsize src g
  refine ⟨m, u, g₁, hpurge, .of_central h hholds hcentral, fun hall t' h' hperm size' hall' src' g' => ?_⟩
  have hcounts : t'.counts.Perm t.counts := by
    rw [counts_eq, counts_eq]
    exact hperm.map _
  have hsame : t'.active = t.active := by
    rw [h'.holds.active_eq, h.holds.active_eq]
    exact hperm.length_eq
  have hsize' : 0 < size' := by omega
  obtain ⟨m', u', g₂, hpurge', hholds', hcentral'⟩ := exists_purge h' (by omega) hsize' src' g'
  rw [sampled_of_active_le h hall] at hcentral
  rw [sampled_of_active_le h' hall', hcounts.length_eq] at hcentral'
  obtain rfl : m = m' := hcentral.unique (hcentral'.perm hcounts)
  refine ⟨u', g₂, hpurge', hholds'.perm.trans (List.Perm.trans ?_ hholds.perm.symm)⟩
  exact (hperm.filter _).map _

/-- A table of `2 ^ lg` slots into which the items have been put, each of them once more often than it
says. -/
def counted (lg : ℕ) (items : List ℕ) : Table ℤ :=
  items.foldl (fun t (n : ℕ) => (t.serve (.put n (n + 1) (by omega))).2) (ofLog2 lg)

theorem reachable_counted (lg : ℕ) (items : List ℕ) : (counted lg items).Reachable :=
  List.foldlRecOn items _ (Reachable.ofLog2 lg) fun _ h _ _ => h.serve _

/-- Seven items in eight slots. -/
def ascending : Table ℤ := counted 3 [0, 1, 2, 3, 4, 5, 6]

/-- The same items in sixteen slots, put in the other order. -/
def descending : Table ℤ := counted 4 [6, 5, 4, 3, 2, 1, 0]

/-- The median of the counts from one to seven is four, and four counters are dropped. -/
theorem purge_drops_counted :
    ascending.Reachable ∧ descending.Reachable ∧
      ∃ u g₁, ascending.purge (constantDraws 0) (.int 256) () = (.ok 4, u, g₁) ∧
        ascending.Drops 256 4 u ∧ u.active = 3 ∧
        ∃ u' g₂, descending.purge (constantDraws 5) (.int 7) () = (.ok 4, u', g₂) ∧
          u'.entries.Perm u.entries := by
  have hforth : ascending.Reachable := reachable_counted _ _
  have hback : descending.Reachable := reachable_counted _ _
  obtain ⟨m, u, g₁, hpurge, hdrops, hall⟩ :=
    purge_drops hforth (by decide +kernel) (show (0 : ℤ) < 256 by decide) (constantDraws 0) ()
  have hmedian : (ascending.purge (constantDraws 0) (.int 256) ()).1 = .ok 4 := by
    decide +kernel
  rw [hpurge] at hmedian
  cases hmedian
  have hactive : u.active = 3 := by
    have hleft : (ascending.purge (constantDraws 0) (.int 256) ()).2.1.active = 3 := by
      decide +kernel
    rwa [hpurge] at hleft
  exact ⟨hforth, hback, u, g₁, hpurge, hdrops, hactive,
    hall (by decide +kernel) _ hback (by decide +kernel) 7 (by decide +kernel) (constantDraws 5) ()⟩

end HeavyHitters.Table
