import HeavyHitters.Proofs.Median.Approximation
import HeavyHitters.Proofs.Table.Insertion
import HeavyHitters.Proofs.Table.Removal
import HeavyHitters.Table.Purge

/-!
# Purges, seen in the entries

A purge lessens all entries by one of the counts. Subtraction keeps the layout, since it changes
counts only, and the sweep behind it removes the cells that are spent then.

## What is proved

* `Entries.total_lessen_of_central`: what the counts lose by a central amount.
* `Holds.subtract`: a subtraction changes all counts, and nothing else.
* `Holds.purge`: a purge lessens the entries by a central count, and there always is one.
* `Holds.purge_refused`: a purge by a sample of no counts is refused, and changes nothing.
-/

namespace HeavyHitters

/-- The greater half of the sampled counts pay for a purge: each of them loses the whole amount. -/
theorem Entries.total_lessen_of_central {es : Entries} {size : ℕ} {m : ℤ} (hpos : ∀ n ∈ es.values, 0 < n)
    (h : Median.Central es.values size m) :
    (es.lessen m).total + (size - size / 2 : ℕ) * m ≤ es.total := by
  have hpaid := total_lessen_le hpos m
  have hlost : (size - size / 2 : ℕ) * m ≤ es.values.countP (m ≤ ·) * m :=
    Int.mul_le_mul_of_nonneg_right (Int.ofNat_le.mpr h.above) (hpos m h.mem).le
  omega

namespace Table.Holds

variable {t : Table ℤ} {lg : ℕ} {es : Entries} (src : DrawSource)

/-- **A subtraction changes all counts**, and keeps the layout. -/
theorem subtract (h : t.Holds lg es) (amount : ℤ) :
    ∃ u, t.subtract amount = .ok u ∧ u.Holds lg (es.map fun e => (e.1, e.2 - amount)) := by
  obtain ⟨u, hu, hl, ha, hslots⟩ := exists_subtract_int t amount
  refine ⟨u, hu, h.layout.map_count _ hl ha hslots, (lgLength_eq_of_length_eq hl).trans h.lgLength_eq, ?_⟩
  refine List.Perm.trans (List.Perm.of_eq ?_) (h.perm.map _)
  simp only [entries, cells_eq_map hl hslots, List.map_map]
  rfl

/-- What is left of the entries after a subtraction and a sweep. -/
private theorem unspent_map (es : Entries) (amount : ℤ) :
    unspent (es.map fun e => (e.1, e.2 - amount)) = es.lessen amount := by
  rw [unspent, List.filter_map, Entries.lessen]
  congr 1
  refine List.filter_congr fun e _ => ?_
  rw [Function.comp_apply, Amount.isSpent_int, ← decide_not, decide_eq_decide]
  omega

/-- **A purge lessens the entries by a central count.** It succeeds if there are entries and a
sample may have elements, whatever is drawn. -/
theorem purge (h : t.Holds lg es) (hne : es ≠ []) {size : ℤ} (hsize : 0 < size) (g : src.State) :
    ∃ m u g', t.purge src (.int size) g = (.ok m, u, g') ∧ u.Holds lg (es.lessen m) ∧
      Median.Central es.values (min es.length size.toNat) m := by
  have hpos : 0 < es.length := List.length_pos_iff.mpr hne
  have hcounts : t.counts.Perm es.values := by
    rw [counts_eq]
    exact h.perm.map _
  have hcounts_ne : t.counts ≠ [] := by
    intro hnil
    have := hcounts.length_eq
    rw [hnil, Entries.values, List.length_map, List.length_nil] at this
    omega
  obtain ⟨m, g', hmedian, hcentral⟩ :=
    Median.exists_approximate src g hcounts_ne (show 0 < min size (t.active : ℤ) by
      rw [h.active_eq]
      omega)
  obtain ⟨u, hu, hholds⟩ := h.subtract m
  obtain ⟨hlayout, hlg, hperm⟩ := hholds.layout.keepPositive
  refine ⟨m, u.keepPositive, g', ?_, ⟨hlayout, hlg.trans hholds.lgLength_eq, ?_⟩, ?_⟩
  · have hactive : t.active ≠ 0 := by
      rw [h.active_eq]
      omega
    rw [Table.purge, if_neg hactive]
    simp only [sampleBound_int, hmedian, hu, Outcome.ok]
  · rw [← unspent_map]
    exact hperm.trans (hholds.perm.filter _)
  · have hmin : min t.counts.length (min size (t.active : ℤ)).toNat = min es.length size.toNat := by
      rw [hcounts.length_eq, h.active_eq, Entries.values, List.length_map]
      omega
    rw [← hmin]
    exact hcentral.perm hcounts

/-- A table without entries is not purged. -/
theorem purge_nil (h : t.Holds lg []) (size : Scalar) (g : src.State) :
    t.purge src size g = (.ok 0, t, g) := by
  have hactive : t.active = 0 := h.active_eq
  rw [Table.purge, if_pos hactive, Amount.zero_int]

/-- **A sample of no counts is refused**, and the table stays as it is. -/
theorem purge_refused (h : t.Holds lg es) (hne : es ≠ []) {size : ℤ} (hsize : size ≤ 0) (g : src.State) :
    t.purge src (.int size) g = (.error .sampleSize, t, g) := by
  have hactive : t.active ≠ 0 := by
    rw [h.active_eq]
    exact (List.length_pos_iff.mpr hne).ne'
  rw [Table.purge, if_neg hactive]
  simp only [sampleBound_int,
    Median.approximate_of_size_nonpos src g (show min size (t.active : ℤ) ≤ 0 by omega)]

end Table.Holds

end HeavyHitters
