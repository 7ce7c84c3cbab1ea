import HeavyHitters.Median.Select
import Mathlib.Algebra.Order.Ring.Int
import Mathlib.Computability.StateTransition
import Mathlib.Data.List.Perm.Basic
import Mathlib.Data.List.Sort

/-!
# Selection finds the element of the rank

The search narrows a range of positions. What it relies on is that the values before a bound of the
range are all less than those behind it: such a place in an array is a cut (`Cut`). A partition
changes the range only (`Rearranged`), and makes two new cuts in it, with the values that equal the
pivot between them (`Zones`). At the end the rank lies between two cuts with one value in between,
and that value has the rank, so it is the one that stands there when the values are sorted.

The search does not count its rounds. It ends because each of them takes at least the pivot out of the
range that holds the rank (`Bracket`), and as many rounds as there are values are enough.

## What is proved

* `IsRank.getElem?_mergeSort`: the value of a rank is the one at that position of the sorted values.
* `exists_partition`: a partition ends with the three zones, whatever the pivot.
* `Bracket.narrowOnce`: a round ends with a value of the rank, or with a shorter range that holds it.
* `exists_select`: the selected value has the rank that was asked for.
* `select_finds`: what a search finds, that it ends, and when it is refused.
-/

namespace HeavyHitters.Median

open StateTransition

/-! ### Ranks -/

/-- The value may stand at position `k` when the values are sorted: no more than `k` are less, and
more than `k` are not greater. -/
structure IsRank (xs : List ℤ) (k : ℕ) (v : ℤ) : Prop where
  /-- At most `k` values are less. -/
  less : xs.countP (· < v) ≤ k
  /-- More than `k` values are less or equal. -/
  reach : k < xs.countP (· ≤ v)

namespace IsRank

variable {xs ys : List ℤ} {k : ℕ} {v w : ℤ}

theorem perm (h : IsRank xs k v) (hp : xs.Perm ys) : IsRank ys k v where
  less := hp.countP_eq _ ▸ h.less
  reach := hp.countP_eq _ ▸ h.reach

/-- A value that has a rank is one of the values. -/
theorem mem (h : IsRank xs k v) : v ∈ xs := by
  by_contra hv
  have hsame : xs.countP (· ≤ v) = xs.countP (· < v) := by
    refine List.countP_congr fun x hx => ?_
    have hne : x ≠ v := fun heq => hv (heq ▸ hx)
    simp only [decide_eq_true_eq]
    exact ⟨fun hle => lt_of_le_of_ne hle hne, le_of_lt⟩
  have hless := h.less
  have hreach := h.reach
  omega

/-- The values from the rank on reach the value. -/
theorem length_le (h : IsRank xs k v) : xs.length ≤ k + xs.countP (v ≤ ·) := by
  have hsplit := List.length_eq_countP_add_countP (fun x => decide (x < v)) (l := xs)
  have hrest : xs.countP (fun x => !decide (x < v)) = xs.countP (v ≤ ·) :=
    List.countP_congr fun x _ => by simp
  have hless := h.less
  simp only [Bool.not_eq_true, decide_eq_false_iff_not, not_lt] at hsplit hrest
  omega

private theorem le (h : IsRank xs k v) (h' : IsRank xs k w) : w ≤ v := by
  by_contra hlt
  -- what is not greater than the one is less than the other
  have hmono : xs.countP (· ≤ v) ≤ xs.countP (· < w) := by
    refine List.countP_mono_left fun x _ hx => ?_
    simp only [decide_eq_true_eq] at hx ⊢
    omega
  have hreach := h.reach
  have hless := h'.less
  omega

/-- **Only one value has a rank.** -/
theorem unique (h : IsRank xs k v) (h' : IsRank xs k w) : v = w :=
  le_antisymm (h'.le h) (h.le h')

/-- A value in sorted order has the rank of its position. -/
theorem of_sorted (hsorted : xs.Pairwise (· ≤ ·)) (hk : k < xs.length) : IsRank xs k xs[k] := by
  have horder := List.pairwise_iff_getElem.mp hsorted
  have hle : ∀ i (hi : i < xs.length), i ≤ k → xs[i] ≤ xs[k] := by
    intro i hi hik
    rcases hik.eq_or_lt with rfl | hlt
    · exact le_rfl
    · exact horder i k hi hk hlt
  constructor
  · -- the values from the position on are not less
    have hdrop : (xs.drop k).countP (· < xs[k]) = 0 := by
      refine List.countP_eq_zero.mpr fun v hv => ?_
      obtain ⟨i, hi, rfl⟩ := List.mem_iff_getElem.mp hv
      rw [List.getElem_drop, decide_eq_true_eq, not_lt]
      rcases Nat.eq_zero_or_pos i with rfl | hpos
      · exact le_rfl
      · exact horder k (k + i) hk _ (by omega)
    calc xs.countP (· < xs[k])
        = (xs.take k).countP (· < xs[k]) + (xs.drop k).countP (· < xs[k]) := by
          rw [← List.countP_append, List.take_append_drop]
      _ ≤ (xs.take k).length + 0 := by
          rw [hdrop]
          exact Nat.add_le_add_right List.countP_le_length 0
      _ ≤ k := by
          rw [Nat.add_zero]
          exact List.length_take_le k xs
  · -- those up to it are not greater
    have htake : (xs.take (k + 1)).countP (· ≤ xs[k]) = k + 1 := by
      have hlen : (xs.take (k + 1)).length = k + 1 := by
        rw [List.length_take]
        omega
      refine (List.countP_eq_length.mpr fun v hv => ?_).trans hlen
      obtain ⟨i, hi, rfl⟩ := List.mem_iff_getElem.mp hv
      rw [List.getElem_take, decide_eq_true_eq]
      exact hle i _ (by omega)
    have hmono := (List.take_sublist (k + 1) xs).countP_le (p := (· ≤ xs[k]))
    omega

/-- **The value of a rank stands at that position of the sorted values.** -/
theorem getElem?_mergeSort (h : IsRank xs k v) : xs.mergeSort[k]? = some v := by
  have hperm := List.mergeSort_perm xs (· ≤ ·)
  have hk : k < (xs.mergeSort).length := by
    have hreach := h.reach
    have hle : xs.countP (· ≤ v) ≤ xs.length := List.countP_le_length
    rw [hperm.length_eq]
    omega
  have hrank := (of_sorted List.sortedLE_mergeSort.pairwise hk).perm hperm
  rw [List.getElem?_eq_getElem hk, hrank.unique h]

end IsRank

/-! ### Rearrangements of a range -/

/-- The values of a range of positions have been put in another order. -/
structure Rearranged (xs ys : Array ℤ) (lo hi : ℕ) : Prop where
  /-- No value is lost. -/
  perm : ys.toList.Perm xs.toList
  /-- The positions outside keep their values. -/
  outside : ∀ j, ¬ (lo ≤ j ∧ j < hi) → ys[j]? = xs[j]?
  /-- The values inside come from inside. -/
  inside : ∀ j v, lo ≤ j → j < hi → ys[j]? = some v → ∃ i, lo ≤ i ∧ i < hi ∧ xs[i]? = some v

namespace Rearranged

variable {xs ys zs : Array ℤ} {lo hi : ℕ}

theorem refl (xs : Array ℤ) (lo hi : ℕ) : Rearranged xs xs lo hi :=
  ⟨.refl _, fun _ _ => rfl, fun j _ hlo hhi hj => ⟨j, hlo, hhi, hj⟩⟩

theorem trans (h : Rearranged xs ys lo hi) (h' : Rearranged ys zs lo hi) : Rearranged xs zs lo hi where
  perm := h'.perm.trans h.perm
  outside j hj := (h'.outside j hj).trans (h.outside j hj)
  inside j v hlo hhi hj := by
    obtain ⟨i, hlo, hhi, hi⟩ := h'.inside j v hlo hhi hj
    exact h.inside i v hlo hhi hi

end Rearranged

/-- The values after a swap. -/
private theorem getElem?_swapped (xs : Array ℤ) {i j : ℕ} (hi : i < xs.size) (hj : j < xs.size) (m : ℕ) :
    (xs.swapIfInBounds i j)[m]? = if m = j then xs[i]? else if m = i then xs[j]? else xs[m]? := by
  rw [Array.swapIfInBounds_def, dif_pos hi, dif_pos hj, Array.getElem?_swap]
  simp only [eq_comm, getElem?_pos xs i hi, getElem?_pos xs j hj]

theorem Rearranged.swap {xs : Array ℤ} {lo hi i j : ℕ} (hsize : hi ≤ xs.size) (hlo : lo ≤ i)
    (hhi : i < hi) (hlo' : lo ≤ j) (hhi' : j < hi) :
    Rearranged xs (xs.swapIfInBounds i j) lo hi := by
  have hget := getElem?_swapped xs (hhi.trans_le hsize) (hhi'.trans_le hsize)
  refine ⟨?_, fun m hm => ?_, fun m v hlom hmhi hm => ?_⟩
  · rw [Array.swapIfInBounds_def, dif_pos (by omega), dif_pos (by omega)]
    exact Array.perm_iff_toList_perm.mp (Array.swap_perm _ _)
  · rw [hget, if_neg (by rintro rfl; omega), if_neg (by rintro rfl; omega)]
  · rw [hget] at hm
    split_ifs at hm
    · exact ⟨i, hlo, hhi, hm⟩
    · exact ⟨j, hlo', hhi', hm⟩
    · exact ⟨m, hlom, hmhi, hm⟩

/-! ### Cuts -/

/-- The values before position `n` are less than those from there on. -/
def Cut (xs : Array ℤ) (n : ℕ) : Prop :=
  ∀ i j v w, i < n → n ≤ j → xs[i]? = some v → xs[j]? = some w → v < w

namespace Cut

variable {xs ys : Array ℤ} {lo hi n : ℕ}

theorem zero (xs : Array ℤ) : Cut xs 0 := fun _ _ _ _ h => absurd h (Nat.not_lt_zero _)

theorem size (xs : Array ℤ) : Cut xs xs.size := by
  intro i j v w _ hj _ hw
  rw [Array.getElem?_eq_none hj] at hw
  cases hw

/-- A cut that is not inside the range is not touched. -/
theorem rearranged (h : Cut xs n) (hr : Rearranged xs ys lo hi) (hn : n ≤ lo ∨ hi ≤ n) : Cut ys n := by
  -- every value comes from the side of the cut where it is
  have hfrom : ∀ j v, ys[j]? = some v → ∃ i, (i < n ↔ j < n) ∧ xs[i]? = some v := by
    intro j v hj
    by_cases hin : lo ≤ j ∧ j < hi
    · obtain ⟨i, hlo, hhi, hi⟩ := hr.inside j v hin.1 hin.2 hj
      exact ⟨i, by omega, hi⟩
    · exact ⟨j, Iff.rfl, (hr.outside j hin).symm.trans hj⟩
  intro i j v w hin hnj hv hw
  obtain ⟨i', hi', hv'⟩ := hfrom i v hv
  obtain ⟨j', hj', hw'⟩ := hfrom j w hw
  exact h i' j' v w (hi'.mpr hin) (by omega) hv' hw'

/-- Whether a position between two cuts is one is decided by the values between them. -/
theorem between (hlo : Cut xs lo) (hhi : Cut xs hi) (hle : lo ≤ n) (hle' : n ≤ hi)
    (h : ∀ i j v w, lo ≤ i → i < n → n ≤ j → j < hi → xs[i]? = some v → xs[j]? = some w → v < w) :
    Cut xs n := by
  intro i j v w hin hnj hv hw
  by_cases hilo : i < lo
  · exact hlo i j v w hilo (by omega) hv hw
  by_cases hjhi : hi ≤ j
  · exact hhi i j v w (by omega) hjhi hv hw
  · exact h i j v w (by omega) hin hnj (by omega) hv hw

end Cut

/-- As many values satisfy a predicate as stand before the position where it stops to hold. -/
private theorem countP_eq_of_split (p : ℤ → Bool) (xs : Array ℤ) (n : ℕ) (hn : n ≤ xs.size)
    (hbefore : ∀ i v, i < n → xs[i]? = some v → p v = true)
    (hafter : ∀ i v, n ≤ i → xs[i]? = some v → p v = false) : xs.toList.countP p = n := by
  have htake : (xs.toList.take n).countP p = n := by
    have hlen : (xs.toList.take n).length = n := by simpa using hn
    refine (List.countP_eq_length.mpr fun v hv => ?_).trans hlen
    obtain ⟨i, hi, rfl⟩ := List.mem_iff_getElem.mp hv
    refine hbefore i _ (by omega) ?_
    rw [List.getElem_take, ← Array.getElem?_toList, List.getElem?_eq_getElem]
  have hdrop : (xs.toList.drop n).countP p = 0 := by
    refine List.countP_eq_zero.mpr fun v hv => ?_
    obtain ⟨i, hi, rfl⟩ := List.mem_iff_getElem.mp hv
    rw [Bool.not_eq_true]
    refine hafter (n + i) _ (by omega) ?_
    rw [List.getElem_drop, ← Array.getElem?_toList, List.getElem?_eq_getElem]
  calc xs.toList.countP p
      = (xs.toList.take n).countP p + (xs.toList.drop n).countP p := by
        rw [← List.countP_append, List.take_append_drop]
    _ = n := by rw [htake, hdrop, Nat.add_zero]

/-- The one value between two cuts has every rank in between. -/
theorem isRank_of_cuts {xs : Array ℤ} {a b k : ℕ} {v : ℤ} (ha : Cut xs a) (hb : Cut xs b)
    (hak : a ≤ k) (hkb : k < b) (hsize : b ≤ xs.size)
    (hv : ∀ i, a ≤ i → i < b → xs[i]? = some v) : IsRank xs.toList k v := by
  have hless : xs.toList.countP (· < v) = a := by
    refine countP_eq_of_split _ xs a (by omega) (fun i x hi hx => ?_) fun i x hi hx => ?_
    · exact decide_eq_true (ha i k x v hi hak hx (hv k hak hkb))
    · refine decide_eq_false (not_lt.mpr ?_)
      by_cases hib : i < b
      · rw [hv i hi hib, Option.some.injEq] at hx
        exact hx.le
      · exact (hb k i v x hkb (by omega) (hv k hak hkb) hx).le
  have hreach : xs.toList.countP (· ≤ v) = b := by
    refine countP_eq_of_split _ xs b hsize (fun i x hi hx => ?_) fun i x hi hx => ?_
    · refine decide_eq_true ?_
      by_cases hia : a ≤ i
      · rw [hv i hia hi, Option.some.injEq] at hx
        exact hx.ge
      · exact (ha i k x v (by omega) hak hx (hv k hak hkb)).le
    · exact decide_eq_false (not_le.mpr (hb k i v x hkb hi (hv k hak hkb) hx))
  exact ⟨by omega, by omega⟩

/-! ### Partitions -/

/-- The zones of a range while it is partitioned: `lt` ends the values below the pivot, `i` those
that equal it, and `n` values are not yet known. -/
structure Zones (pivot : ℤ) (xs : Array ℤ) (lo lt i n hi : ℕ) : Prop where
  /-- The range starts with the values below the pivot. -/
  lo_le : lo ≤ lt
  /-- The equal values follow. -/
  lt_le : lt ≤ i
  /-- The values above the pivot end the range. -/
  le_hi : i + n ≤ hi
  /-- The range lies in the array. -/
  hi_le : hi ≤ xs.size
  /-- The first values are below the pivot. -/
  less : ∀ j v, lo ≤ j → j < lt → xs[j]? = some v → v < pivot
  /-- The next equal it. -/
  equal : ∀ j, lt ≤ j → j < i → xs[j]? = some pivot
  /-- The last are above it. -/
  greater : ∀ j v, i + n ≤ j → j < hi → xs[j]? = some v → pivot < v
  /-- The pivot is among the values that are not below and not known to be above. -/
  present : ∃ j, lt ≤ j ∧ j < i + n ∧ xs[j]? = some pivot

namespace Zones

variable {pivot v : ℤ} {xs : Array ℤ} {lo lt i n hi : ℕ}

/-- Before the first step nothing is known. -/
theorem start {j : ℕ} (hlo : lo < hi) (hhi : hi ≤ xs.size) (hj : j < hi - lo)
    (hpivot : xs[lo + j]? = some pivot) : Zones pivot xs lo lo lo (hi - lo) hi where
  lo_le := le_rfl
  lt_le := le_rfl
  le_hi := by omega
  hi_le := hhi
  less m w hm hm' := by omega
  equal m hm hm' := by omega
  greater m w hm hm' := by omega
  present := ⟨lo + j, by omega, by omega, hpivot⟩

/-- A value below the pivot is swapped with the first that equals it. -/
theorem below (h : Zones pivot xs lo lt i (n + 1) hi) (hv : xs[i]? = some v) (hlt : v < pivot) :
    Zones pivot (xs.swapIfInBounds lt i) lo (lt + 1) (i + 1) n hi := by
  obtain ⟨hlo, hlti, hhi, hsize, hless, hequal, hgreater, p, hp, hp', hpivot⟩ := h
  have hget := getElem?_swapped xs (show lt < xs.size by omega) (show i < xs.size by omega)
  have hpi : p ≠ i := by
    rintro rfl
    rw [hv, Option.some.injEq] at hpivot
    omega
  refine ⟨by omega, by omega, by omega, by simpa using hsize, fun j w hj hj' hw => ?_,
    fun j hj hj' => ?_, fun j w hj hj' hw => ?_, ?_⟩
  · rw [hget] at hw
    split_ifs at hw with h1 h2
    · have hlt_eq : lt = i := by omega
      rw [hlt_eq, hv, Option.some.injEq] at hw
      omega
    · rw [hv, Option.some.injEq] at hw
      omega
    · exact hless j w hj (by omega) hw
  · rw [hget]
    split_ifs with h1 h2
    · exact hequal lt le_rfl (by omega)
    · omega
    · exact hequal j (by omega) (by omega)
  · rw [hget, if_neg (by omega), if_neg (by omega)] at hw
    exact hgreater j w (by omega) hj' hw
  · -- a pivot at the front of its zone moves to the end of it
    by_cases hplt : p = lt
    · refine ⟨i, by omega, by omega, ?_⟩
      rw [hget, if_pos rfl, ← hplt, hpivot]
    · refine ⟨p, by omega, by omega, ?_⟩
      rw [hget, if_neg hpi, if_neg hplt, hpivot]

/-- A value above the pivot is swapped with the last unknown one. -/
theorem above (h : Zones pivot xs lo lt i (n + 1) hi) (hv : xs[i]? = some v) (hgt : pivot < v) :
    Zones pivot (xs.swapIfInBounds i (i + n)) lo lt i n hi := by
  obtain ⟨hlo, hlti, hhi, hsize, hless, hequal, hgreater, p, hp, hp', hpivot⟩ := h
  have hget := getElem?_swapped xs (show i < xs.size by omega) (show i + n < xs.size by omega)
  have hpi : p ≠ i := by
    rintro rfl
    rw [hv, Option.some.injEq] at hpivot
    omega
  refine ⟨hlo, hlti, by omega, by simpa using hsize, fun j w hj hj' hw => ?_, fun j hj hj' => ?_,
    fun j w hj hj' hw => ?_, ?_⟩
  · rw [hget, if_neg (by omega), if_neg (by omega)] at hw
    exact hless j w hj hj' hw
  · rw [hget, if_neg (by omega), if_neg (by omega)]
    exact hequal j hj hj'
  · rw [hget] at hw
    split_ifs at hw with h1 h2
    · rw [hv, Option.some.injEq] at hw
      omega
    · have hn : n = 0 := by omega
      rw [hn, Nat.add_zero, hv, Option.some.injEq] at hw
      omega
    · exact hgreater j w (by omega) hj' hw
  · by_cases hpn : p = i + n
    · refine ⟨i, by omega, by omega, ?_⟩
      rw [hget, if_neg (by omega), if_pos rfl, ← hpn, hpivot]
    · refine ⟨p, by omega, by omega, ?_⟩
      rw [hget, if_neg hpn, if_neg hpi, hpivot]

/-- A value that equals the pivot stays where it is. -/
theorem same (h : Zones pivot xs lo lt i (n + 1) hi) (hv : xs[i]? = some pivot) :
    Zones pivot xs lo lt (i + 1) n hi := by
  obtain ⟨hlo, hlti, hhi, hsize, hless, hequal, hgreater, p, hp, hp', hpivot⟩ := h
  refine ⟨hlo, by omega, by omega, hsize, hless, fun j hj hj' => ?_,
    fun j w hj hj' hw => hgreater j w (by omega) hj' hw, p, hp, by omega, hpivot⟩
  by_cases hji : j = i
  · rw [hji, hv]
  · exact hequal j hj (by omega)

/-- At the end there is a value that equals the pivot. -/
theorem lt_lt (h : Zones pivot xs lo lt i 0 hi) : lt < i := by
  obtain ⟨p, hp, hp', -⟩ := h.present
  omega

/-- The values below the pivot are cut off from the others. -/
theorem cut_lt (h : Zones pivot xs lo lt i 0 hi) (hlo : Cut xs lo) (hhi : Cut xs hi) : Cut xs lt := by
  have hlt := h.lt_lt
  have hle := h.le_hi
  refine hlo.between hhi h.lo_le (by omega) fun a b v w ha halt hb hbhi hv hw => ?_
  have hvp : v < pivot := h.less a v ha halt hv
  by_cases hbi : b < i
  · rw [h.equal b hb hbi, Option.some.injEq] at hw
    omega
  · have := h.greater b w (by omega) hbhi hw
    omega

/-- The values above the pivot are cut off from the others. -/
theorem cut_i (h : Zones pivot xs lo lt i 0 hi) (hlo : Cut xs lo) (hhi : Cut xs hi) : Cut xs i := by
  have hlt := h.lt_lt
  have hle := h.lo_le
  refine hlo.between hhi (by omega) h.le_hi fun a b v w ha hai hb hbhi hv hw => ?_
  have hpw : pivot < w := h.greater b w hb hbhi hw
  by_cases halt : a < lt
  · have := h.less a v ha halt hv
    omega
  · rw [h.equal a (by omega) hai, Option.some.injEq] at hv
    omega

end Zones

/-- **A partition ends with the three zones.** -/
theorem exists_partition {pivot : ℤ} {xs : Array ℤ} {lo lt i n hi : ℕ}
    (h : Zones pivot xs lo lt i n hi) :
    ∃ ys lt' i', partition pivot xs lt i n = (.ok (lt', i'), ys) ∧
      Zones pivot ys lo lt' i' 0 hi ∧ Rearranged xs ys lo hi := by
  induction n generalizing xs lt i with
  | zero => exact ⟨xs, lt, i, rfl, h, .refl _ _ _⟩
  | succ n ih =>
    have hlo := h.lo_le
    have hlt := h.lt_le
    have hhi := h.le_hi
    have hsize := h.hi_le
    have hi' : i < xs.size := by omega
    have hv : xs[i]? = some (xs.getD i pivot) := by
      rw [Array.getD_eq_getD_getElem?, getElem?_pos xs i hi', Option.getD_some]
    rw [partition_int_succ]
    generalize xs.getD i pivot = v at hv
    dsimp only
    split_ifs with hbelow habove
    · obtain ⟨ys, lt', i', heq, hz, hr⟩ := ih (h.below hv hbelow)
      exact ⟨ys, lt', i', heq, hz,
        (Rearranged.swap hsize (by omega) (by omega) (by omega) (by omega)).trans hr⟩
    · obtain ⟨ys, lt', i', heq, hz, hr⟩ := ih (h.above hv habove)
      exact ⟨ys, lt', i', heq, hz,
        (Rearranged.swap hsize (by omega) (by omega) (by omega) (by omega)).trans hr⟩
    · have hvp : v = pivot := by omega
      exact ih (h.same (hvp ▸ hv))

/-! ### The search -/

variable (src : DrawSource)

/-- A range between two cuts that holds a rank. -/
structure Bracket (k : ℕ) (xs : Array ℤ) (lo hi : ℕ) : Prop where
  /-- The values before the range are less. -/
  cut_lo : Cut xs lo
  /-- The values behind it are greater. -/
  cut_hi : Cut xs hi
  /-- The rank is not before the range. -/
  lo_le : lo ≤ k
  /-- It is not behind it. -/
  lt_hi : k < hi
  /-- The range lies in the array. -/
  hi_le : hi ≤ xs.size

/-- The whole array holds every rank. -/
theorem Bracket.whole {k : ℕ} {xs : Array ℤ} (hk : k < xs.size) : Bracket k xs 0 xs.size :=
  ⟨Cut.zero xs, Cut.size xs, Nat.zero_le k, hk, le_rfl⟩

/-- **A round of the search** only moves values, whatever is drawn. Either it finds a value of the rank,
or the rank is in a shorter range after it. -/
theorem Bracket.narrowOnce {k : ℕ} {xs : Array ℤ} {lo hi : ℕ} (h : Bracket k xs lo hi) (g : src.State) :
    ∃ progress ys g', narrowOnce src k k xs lo hi g = (progress, ys, g') ∧ ys.toList.Perm xs.toList ∧
      ((∃ v, progress = .ended (.ok v) ∧ IsRank xs.toList k v) ∨
        ∃ lo' hi', progress = .within lo' hi' ∧ Bracket k ys lo' hi' ∧ hi' - lo' < hi - lo) := by
  obtain ⟨hlo, hhi, hk, hk', hsize⟩ := h
  rw [Median.narrowOnce]
  by_cases hone : hi ≤ lo + 1
  · have hlok : lo = k := by omega
    have hhik : hi = k + 1 := by omega
    subst hlok hhik
    have hv : xs[lo]? = some xs[lo] := getElem?_pos xs lo hsize
    refine ⟨.ended (.ok xs[lo]), xs, g, ?_, .refl _, .inl ⟨_, rfl, ?_⟩⟩
    · rw [if_pos hone, elementAt, hv]
    · refine isRank_of_cuts hlo hhi le_rfl (Nat.lt_succ_self _) hsize fun i h1 h2 => ?_
      rw [← hv, show i = lo by omega]
  · have hj : (src.draw g (hi - lo)).1 < hi - lo := src.draw_lt g (hi - lo) (by omega)
    rw [if_neg hone]
    generalize src.draw g (hi - lo) = drawn at hj ⊢
    obtain ⟨j, g'⟩ := drawn
    have hpivot : xs[lo + j]? = some xs[lo + j] := getElem?_pos xs (lo + j) (by dsimp only at hj; omega)
    obtain ⟨ys, lt, i, heq, hz, hr⟩ := exists_partition (Zones.start (by omega) hsize hj hpivot)
    have hlo' := hlo.rearranged hr (.inl le_rfl)
    have hhi' := hhi.rearranged hr (.inr le_rfl)
    have hcuts := hz.cut_lt hlo' hhi'
    have hcuts' := hz.cut_i hlo' hhi'
    have hlti := hz.lt_lt
    have hlolt := hz.lo_le
    have hihi := hz.le_hi
    have hsize' := hz.hi_le
    simp only [hpivot, heq]
    split_ifs with hklt hik
    · -- the rank lies below the pivot
      exact ⟨_, ys, g', rfl, hr.perm,
        .inr ⟨lo, lt, rfl, ⟨hlo', hcuts, hk, hklt, by omega⟩, by omega⟩⟩
    · -- the rank lies above the pivot
      exact ⟨_, ys, g', rfl, hr.perm,
        .inr ⟨i, hi, rfl, ⟨hcuts', hhi', hik, hk', hsize'⟩, by omega⟩⟩
    · exact ⟨_, ys, g', rfl, hr.perm, .inl ⟨_, rfl,
        (isRank_of_cuts hcuts hcuts' (by omega) (by omega) (by omega) hz.equal).perm hr.perm⟩⟩

/-- One round after the other, until the search has ended. The rounds are not counted. -/
def goOn (k : ℕ) : Progress ℤ × Array ℤ × src.State → Option (Progress ℤ × Array ℤ × src.State)
  | (.ended _, _, _) => none
  | (.within lo hi, xs, g) => some (narrowOnce src k k xs lo hi g)

/-- **The search in a range that holds the rank ends**, with a value of that rank, and only moves values.
A round less is left for each position that the range loses. -/
theorem Bracket.exists_narrow {k rounds : ℕ} {xs : Array ℤ} {lo hi : ℕ} (h : Bracket k xs lo hi)
    (g : src.State) (hrounds : hi ≤ lo + rounds) :
    ∃ v ys g', narrow src k k rounds xs lo hi g = (.ok v, ys, g') ∧ IsRank xs.toList k v ∧
      ys.toList.Perm xs.toList ∧ (.ended (.ok v), ys, g') ∈ eval (goOn src k) (.within lo hi, xs, g) := by
  induction rounds generalizing xs lo hi g with
  | zero =>
    have hlo := h.lo_le
    have hhi := h.lt_hi
    omega
  | succ rounds ih =>
    obtain ⟨progress, ys, g', hround, hperm, hends⟩ := h.narrowOnce src g
    have hstep : goOn src k (.within lo hi, xs, g) = some (progress, ys, g') := congrArg some hround
    rw [narrow, hround, reaches_eval (.single hstep)]
    rcases hends with ⟨v, rfl, hrank⟩ | ⟨lo', hi', rfl, h', hshorter⟩
    · exact ⟨v, ys, g', rfl, hrank, hperm, mem_eval.mpr ⟨.refl, rfl⟩⟩
    · obtain ⟨v, zs, g'', hnarrow, hrank, hperm', hended⟩ := ih h' g' (by omega)
      exact ⟨v, zs, g'', hnarrow, hrank.perm hperm, hperm'.trans hperm, hended⟩

/-- A rank among the values is searched for in all of them. -/
theorem selectInPlace_of_lt {values : Array ℤ} {k : ℕ} (g : src.State) (hk : k < values.size) :
    selectInPlace src values (.int (k : ℕ)) g = narrow src k k values.size values 0 values.size g := by
  have hpos : positionsOf values.size (.int (k : ℕ)) = .ok (k, k) := by
    rw [positionsOf_int, if_pos ⟨by omega, by omega⟩, Int.toNat_natCast]
  simp only [selectInPlace, hpos]

/-- **The selected value has the rank.** -/
theorem exists_select {values : Array ℤ} {k : ℕ} (g : src.State) (hk : k < values.size) :
    ∃ v ys g', select src values (.int (k : ℕ)) g = (.ok (v, ys), g') ∧ IsRank values.toList k v := by
  obtain ⟨v, ys, g', hnarrow, hrank, -⟩ :=
    (Bracket.whole hk).exists_narrow src g (Nat.zero_add _).ge
  refine ⟨v, ys, g', ?_, hrank⟩
  rw [select, selectInPlace_of_lt src g hk, hnarrow]
  rfl

/-- **What a search finds**, whatever is drawn. If there is a position of the rank the rounds come to an
end, and what is found then stands at that position of the sorted values; the values are in another
order. Otherwise the rank is refused as a value, and neither are values moved nor is anything drawn. -/
theorem select_finds (values : Array ℤ) (k : ℤ) (src : DrawSource) (g : src.State) :
    (0 ≤ k ∧ k < values.size → ∃ v ys g',
      selectInPlace src values (.int k) g = (.ok v, ys, g') ∧
        (.ended (.ok v), ys, g') ∈ eval (goOn src k.toNat) (.within 0 values.size, values, g) ∧
        values.toList.mergeSort[k.toNat]? = some v ∧ ys.toList.Perm values.toList) ∧
      (¬ (0 ≤ k ∧ k < values.size) →
        selectInPlace src values (.int k) g = (.error (.rankRange (.int k) values.size), values, g) ∧
          (Error.rankRange (.int k) values.size).kind = .value) := by
  refine ⟨fun ⟨hnonneg, hlt⟩ => ?_, fun hrank => ⟨selectInPlace_of_rank_out_of_range src g hrank, rfl⟩⟩
  obtain ⟨n, rfl⟩ := Int.eq_ofNat_of_zero_le hnonneg
  have hn : n < values.size := Int.ofNat_lt.mp hlt
  obtain ⟨v, ys, g', hnarrow, hrank, hperm, hended⟩ :=
    (Bracket.whole hn).exists_narrow src g (Nat.zero_add _).ge
  exact ⟨v, ys, g', (selectInPlace_of_lt src g hn).trans hnarrow, hended, hrank.getElem?_mergeSort, hperm⟩

/-- Six values, and one of them three times. -/
def repeated : Array ℤ := #[3, 1, 3, 2, 3, 0]

/-- The first pivot is the greatest value, the second the least, and the third has the rank. There is no
element of rank six. -/
theorem select_finds_repeated :
    (∃ ys, selectInPlace .script repeated (.int 2) [⟨6, 2⟩, ⟨3, 2⟩, ⟨2, 1⟩] = (.ok 2, ys, []) ∧
        ys.toList.Perm repeated.toList) ∧
      repeated.toList.mergeSort[2]? = some 2 ∧
      selectInPlace .script repeated (.int 6) [⟨6, 2⟩] =
        (.error (.rankRange (.int 6) 6), repeated, [⟨6, 2⟩]) := by
  obtain ⟨hfinds, -⟩ := select_finds repeated 2 .script [⟨6, 2⟩, ⟨3, 2⟩, ⟨2, 1⟩]
  obtain ⟨v, ys, g, hselect, -, hsorted, hperm⟩ := hfinds (by decide)
  have htwo : (selectInPlace .script repeated (.int 2) [⟨6, 2⟩, ⟨3, 2⟩, ⟨2, 1⟩]).1 = .ok 2 := by
    decide +kernel
  have hused : (selectInPlace .script repeated (.int 2) [⟨6, 2⟩, ⟨3, 2⟩, ⟨2, 1⟩]).2.2 = [] := by
    decide +kernel
  rw [hselect] at htwo hused
  cases htwo
  cases hused
  obtain ⟨-, hrefused⟩ := select_finds repeated 6 .script [⟨6, 2⟩]
  exact ⟨⟨ys, hselect, hperm⟩, hsorted, (hrefused (by decide)).1⟩

end HeavyHitters.Median
