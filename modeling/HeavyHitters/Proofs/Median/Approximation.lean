import HeavyHitters.Median
import HeavyHitters.Proofs.Median.Sampling
import HeavyHitters.Proofs.Median.Selection

/-!
# What an approximate median guarantees

A sample takes each value of the population at most once (`sampleFrom_subperm`). So the half of the
sample that reaches its median is also in the population, whatever is drawn. This is all that is
certain about the median of a sample, and it is enough to bound what a purge loses: a purge is paid
for by as many counts as that half has.

A sample of all values has only one median. It is the value in the middle when they are sorted, so neither
the draws nor the order in which the values come make a difference.

## What is proved

* `Central.isRank`, `Central.unique`: what is central among all values has the middle rank.
* `exists_approximate`: the approximate median of some values is one of them, and is `Central`.
* `approximate_ranked`: what is certain about an approximate median, and when it is exact.
-/

namespace HeavyHitters.Median

variable (src : DrawSource)

/-! ### Medians of samples -/

/-- The value is a median of some `size` of the values: it is one of the values, the greater half of
them reaches it, and it reaches more than the lesser half. -/
structure Central (values : List ℤ) (size : ℕ) (m : ℤ) : Prop where
  /-- It is one of the values. -/
  mem : m ∈ values
  /-- So many values are at least as great. -/
  above : size - size / 2 ≤ values.countP (m ≤ ·)
  /-- More values than this are at most as great. -/
  below : size / 2 < values.countP (· ≤ m)

theorem Central.perm {values values' : List ℤ} {size : ℕ} {m : ℤ} (h : Central values size m)
    (hp : values.Perm values') : Central values' size m where
  mem := hp.mem_iff.mp h.mem
  above := hp.countP_eq _ ▸ h.above
  below := hp.countP_eq _ ▸ h.below

/-- **What is central among all the values has the middle rank.** -/
theorem Central.isRank {values : List ℤ} {m : ℤ} (h : Central values values.length m) :
    IsRank values (values.length / 2) m where
  less := by
    have habove := h.above
    have hsplit := values.length_eq_countP_add_countP (fun x => decide (x < m))
    have hrest : values.countP (m ≤ ·) ≤ values.countP (fun x => ¬ decide (x < m) = true) := by
      refine List.countP_mono_left fun x _ hx => ?_
      simp only [decide_eq_true_eq] at hx ⊢
      omega
    omega
  reach := h.below

/-- **Only one value is central among all the values.** -/
theorem Central.unique {values : List ℤ} {m m' : ℤ} (h : Central values values.length m)
    (h' : Central values values.length m') : m = m' :=
  h.isRank.unique h'.isRank

/-- A median of a sample is central. -/
private theorem IsRank.central {sample values : List ℤ} {m : ℤ}
    (h : IsRank sample (sample.length / 2) m) (hsub : List.Subperm sample values) :
    Central values sample.length m where
  mem := hsub.subset h.mem
  above := by
    have hsample := h.length_le
    have hmono := hsub.countP_le (fun x => decide (m ≤ x))
    omega
  below := h.reach.trans_le (hsub.countP_le _)

/-- **The approximate median of some values is central**, and there is one if a sample can be
taken. -/
theorem exists_approximate {values : List ℤ} {size : ℤ} (g : src.State) (hne : values ≠ [])
    (hsize : 0 < size) :
    ∃ m g', approximate src values (.int size) g = (.ok m, g') ∧
      Central values (min values.length size.toNat) m := by
  have hlength : 0 < values.length := List.length_pos_iff.mpr hne
  have hsampled := size_sampleFrom src size.toNat values 0 #[] g (by simp)
  have hsub := sampleFrom_subperm src size.toNat values 0 #[] g
  rw [approximate, reservoir_int, if_neg (by omega)]
  generalize sampleFrom src size.toNat values 0 #[] g = sampled at hsampled hsub
  obtain ⟨sample, g₁⟩ := sampled
  rw [Nat.zero_add] at hsampled
  have hhalf : sample.size / 2 < sample.size := by
    dsimp only at hsampled
    omega
  obtain ⟨m, ys, g₂, hselect, hrank⟩ := exists_select src g₁ hhalf
  have hcentral := IsRank.central (by simpa using hrank) hsub
  refine ⟨m, g₂, ?_, ?_⟩
  · have hempty : sample.isEmpty = false := by
      rw [Array.isEmpty_eq_false_iff_exists_mem]
      exact ⟨m, by simpa using hrank.mem⟩
    simp only [hempty, hselect, Except.map]
    rfl
  · rw [← hsampled]
    simpa using hcentral

/-- A sample of no values is refused, and nothing is drawn for it. -/
theorem approximate_of_size_nonpos {values : List ℤ} {size : ℤ} (g : src.State) (hsize : size ≤ 0) :
    approximate src values (.int size) g = (.error .sampleSize, g) := by
  rw [approximate, reservoir_int, if_pos hsize]

/-- **What is certain about an approximate median**, whatever is drawn: it is one of the values, more of
them than the lesser half of the sample are at most as great, and as many as the greater half are at least
as great. If the sample is all values it is the one in the middle of the sorted values, and any other order
of the values and any other draws give the same. -/
theorem approximate_ranked {values : List ℤ} {size : ℤ} (hne : values ≠ []) (hsize : 0 < size)
    (src : DrawSource) (g : src.State) :
    ∃ m g', approximate src values (.int size) g = (.ok m, g') ∧
      Central values (min size.toNat values.length) m ∧
      ((values.length : ℤ) ≤ size →
        values.mergeSort[values.length / 2]? = some m ∧
          ∀ values' : List ℤ, values'.Perm values → ∀ size' : ℤ, (values'.length : ℤ) ≤ size' →
            ∀ (src' : DrawSource) (g : src'.State),
              (approximate src' values' (.int size') g).1 = .ok m) := by
  obtain ⟨m, g', hmedian, hcentral⟩ := exists_approximate src g hne hsize
  rw [min_comm] at hcentral
  refine ⟨m, g', hmedian, hcentral, fun hall => ?_⟩
  rw [min_eq_right (by omega)] at hcentral
  refine ⟨hcentral.isRank.getElem?_mergeSort, fun values' hperm size' hall' src' g => ?_⟩
  have hlength := hperm.length_eq
  have hpos := List.length_pos_iff.mpr hne
  have hne' : values' ≠ [] := List.length_pos_iff.mp (by omega)
  obtain ⟨m', g'', hmedian', hcentral'⟩ := exists_approximate src' g hne' (show 0 < size' by omega)
  rw [min_eq_left (by omega), hlength] at hcentral'
  obtain rfl : m' = m := (hcentral'.perm hperm).unique hcentral
  rw [hmedian']

/-- Five values, two of them equal. -/
def unsorted : List ℤ := [5, 1, 4, 1, 3]

/-- A sample of three of them has another median than all five have, in this order or in any other. -/
theorem approximate_ranked_unsorted :
    unsorted ≠ [] ∧ (0 : ℤ) < 3 ∧
      (approximate .script unsorted (.int 3) [⟨4, 3⟩, ⟨5, 1⟩]).1 = .ok 4 ∧ Central unsorted 3 4 ∧
      (unsorted.length : ℤ) ≤ 256 ∧ unsorted.mergeSort[2]? = some 3 ∧
      (approximate .script ([1, 1, 3, 4, 5] : List ℤ) (.int 5) [⟨5, 4⟩]).1 = .ok 3 := by
  have hne : unsorted ≠ [] := by decide
  have hall : (unsorted.length : ℤ) ≤ 256 := by decide
  obtain ⟨m, g, hmedian, hcentral, -⟩ :=
    approximate_ranked hne (show (0 : ℤ) < 3 by decide) .script [⟨4, 3⟩, ⟨5, 1⟩]
  have hfour : (approximate .script unsorted (.int 3) [⟨4, 3⟩, ⟨5, 1⟩]).1 = .ok 4 := by decide +kernel
  rw [hmedian] at hfour
  cases hfour
  obtain ⟨m, g, hmedian', -, hexact⟩ :=
    approximate_ranked hne (show (0 : ℤ) < 256 by decide) .script [⟨5, 2⟩]
  have hthree : (approximate .script unsorted (.int 256) [⟨5, 2⟩]).1 = .ok 3 := by decide +kernel
  rw [hmedian'] at hthree
  cases hthree
  obtain ⟨hmiddle, hsame⟩ := hexact hall
  exact ⟨hne, by decide, congrArg Prod.fst hmedian, hcentral, hall, hmiddle,
    hsame [1, 1, 3, 4, 5] (by decide) 5 (by decide) .script [⟨5, 4⟩]⟩

end HeavyHitters.Median
