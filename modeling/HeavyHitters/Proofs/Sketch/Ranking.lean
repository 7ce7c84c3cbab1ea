import HeavyHitters.Proofs.Sketch.Frequent
import HeavyHitters.Proofs.Sorting.Alike

/-!
# The order of frequent items

An answer lists the items whose bound reaches the threshold, by descending estimate, and items of equal
estimate in the order of their slots. Rows are made slot by slot and then sorted, and the sort is stable: rows
of equal estimate are after it what they were before (`Row.filter_descending`). As no two rows have one slot,
there is only one such order, so it does not matter whether rows are dropped before the sort or after it. Each
of the bounds falls where the estimate falls, because the two differ by the offset or not at all. So a higher
threshold cuts off the end of the list and does nothing else.

The rows come from the slots, and the bounds of an item from a search for it. That they say the same is due to
the layout of the table, where every item has one slot, and the search finds it.

## What is proved

* `Row.pairwise_descending`: sorted rows, and the order of those with equal estimates.
* `Table.pairwise_earlier`, `Table.Layout.earlier_asymm`: the order of the slots.
* `frequent_eq_filter`: rows may be dropped after the sort as well.
* `frequent_ranked`: what an answer lists, in which order, and what a higher threshold leaves of it.
-/

namespace HeavyHitters

/-! ### Sorted rows -/

namespace Row

variable {rows : List (Row ℤ)} {R : Row ℤ → Row ℤ → Prop}

/-- No row has a greater estimate than one before it. -/
theorem pairwise_estimate (rows : List (Row ℤ)) :
    (descending rows).Pairwise fun a b => b.estimate ≤ a.estimate := by
  rw [descending_eq]
  exact (ascending_ascend (fun r : Row ℤ => -r.estimate) rows).imp fun h => neg_le_neg_iff.mp h

/-- **Rows of equal estimate stay in their order.** -/
theorem filter_descending (rows : List (Row ℤ)) (n : ℤ) :
    (descending rows).filter (·.estimate = n) = rows.filter (·.estimate = n) := by
  have hkept := alike_ascend (fun r : Row ℤ => -r.estimate) rows (-n)
  simp only [neg_inj] at hkept
  rw [descending_eq, hkept]

/-- **Sorted rows**: an earlier one has a greater estimate, or an equal one and was earlier before. -/
theorem pairwise_descending (h : rows.Pairwise R) :
    (descending rows).Pairwise fun a b => b.estimate < a.estimate ∨ b.estimate = a.estimate ∧ R a b := by
  rw [List.pairwise_iff_forall_sublist]
  intro a b hab
  have hle : b.estimate ≤ a.estimate := List.pairwise_iff_forall_sublist.mp (pairwise_estimate rows) hab
  rcases hle.lt_or_eq with hlt | heq
  · exact .inl hlt
  · have hpair := hab.filter (·.estimate = a.estimate)
    rw [filter_descending] at hpair
    simp only [List.filter_cons, List.filter_nil, heq, decide_true, if_true] at hpair
    exact .inr ⟨heq, List.pairwise_iff_forall_sublist.mp h (hpair.trans List.filter_sublist)⟩

end Row

/-! ### The order of the slots -/

namespace Table

variable {t : Table ℤ} {x y : ℤ}

/-- One item has an earlier slot than another. -/
def Earlier (t : Table ℤ) (x y : ℤ) : Prop :=
  ∃ i j, i < j ∧ j < t.length ∧ (t.cellAt i).map Cell.item = some x ∧ (t.cellAt j).map Cell.item = some y

/-- The entries stand in the order of their slots. -/
theorem pairwise_earlier (t : Table ℤ) : t.entries.Pairwise fun e f => t.Earlier e.1 f.1 := by
  rw [entries, cells_eq_filterMap, List.pairwise_map, List.pairwise_filterMap]
  refine List.Pairwise.imp_of_mem (fun {i j} _ hj hij c hc d hd => ?_) (List.pairwise_lt_range' 1)
  exact ⟨i, j, hij, by simpa using hj, Option.map_eq_some_iff.mpr ⟨c, hc, rfl⟩,
    Option.map_eq_some_iff.mpr ⟨d, hd, rfl⟩⟩

/-- No two items have earlier slots than each other, as every item has one slot. -/
theorem Layout.earlier_asymm (h : Layout t) (hxy : t.Earlier x y) : ¬ t.Earlier y x := by
  rintro ⟨i', j', hij', hj', hy', hx'⟩
  obtain ⟨i, j, hij, hj, hx, hy⟩ := hxy
  obtain ⟨c, hc, hcx⟩ := Option.map_eq_some_iff.mp hx
  obtain ⟨d, hd, hdy⟩ := Option.map_eq_some_iff.mp hy
  obtain ⟨c', hc', rfl⟩ := Option.map_eq_some_iff.mp hy'
  obtain ⟨d', hd', rfl⟩ := Option.map_eq_some_iff.mp hx'
  have hfirst : i = j' := (h.modEq_of_item_eq hc hd' hcx).eq_of_lt_of_lt (hij.trans hj) hj'
  have hsecond : j = i' := (h.modEq_of_item_eq hd hc' hdy).eq_of_lt_of_lt hj (hij'.trans hj')
  omega

end Table

/-! ### Ranked answers -/

namespace Sketch

variable {s : Sketch} {g : Guarantee} {threshold : Option ℤ}

/-- What a condition leaves of a list is a part from its beginning if no later element fulfils it where an
earlier one does not. -/
private theorem filter_prefix {α : Type} {p : α → Bool} {l : List α}
    (h : l.Pairwise fun a b => p b = true → p a = true) : l.filter p <+: l := by
  induction l with
  | nil => exact List.prefix_rfl
  | cons a l ih =>
    obtain ⟨hfirst, hrest⟩ := List.pairwise_cons.mp h
    by_cases ha : p a = true
    · rw [List.filter_cons_of_pos ha, List.prefix_cons_inj]
      exact ih hrest
    · have hnone : (a :: l).filter p = [] :=
        List.filter_eq_nil_iff.mpr (List.forall_mem_cons.mpr ⟨ha, fun b hb hpb => ha (hfirst b hb hpb)⟩)
      rw [hnone]
      exact List.nil_prefix

/-- One row comes before another in an answer: it has a greater estimate, or an equal one and an earlier
slot. -/
def Ahead (s : Sketch) (a b : Row ℤ) : Prop :=
  b.estimate < a.estimate ∨ b.estimate = a.estimate ∧ s.table.Earlier a.item b.item

/-- The bound of an item that a guarantee compares with the threshold, as a query answers it. -/
def boundOf (s : Sketch) : Guarantee → Scalar → Except Error ℤ
  | .noFalsePositives => s.lowerBound
  | .noFalseNegatives => s.upperBound

theorem pairwise_rows (s : Sketch) : s.rows.Pairwise fun a b => s.table.Earlier a.item b.item :=
  List.pairwise_map.mpr s.table.pairwise_earlier

/-- The rows that a condition leaves are sorted. -/
theorem pairwise_ahead (s : Sketch) (p : Row ℤ → Bool) : (Row.descending (s.rows.filter p)).Pairwise s.Ahead :=
  Row.pairwise_descending (s.pairwise_rows.filter p)

/-- **Rows may be dropped after the sort as well**, because there is only one way to sort them. -/
theorem frequent_eq_filter (h : s.Sound) (g : Guarantee) (threshold : Option ℤ) :
    s.frequent g threshold =
      (Row.descending s.rows).filter fun r => threshold.getD s.maximumError ≤ g.bound r := by
  have hall : (Row.descending s.rows).Pairwise s.Ahead := Row.pairwise_descending s.pairwise_rows
  refine List.Perm.eq_of_pairwise ?_ (s.pairwise_ahead _) (hall.filter _)
    ((Row.descending_perm _).trans ((Row.descending_perm _).filter _).symm)
  intro a b _ _ hab hba
  rcases hab with hlt | ⟨heq, hearlier⟩
  · rcases hba with hlt' | ⟨heq', -⟩ <;> omega
  · rcases hba with hlt' | ⟨-, hearlier'⟩
    · omega
    · exact absurd hearlier' (h.layout.earlier_asymm hearlier)

/-- Each bound falls where the estimate falls. -/
theorem bound_mono {a b : Row ℤ} (ha : a ∈ s.rows) (hb : b ∈ s.rows) (h : b.estimate ≤ a.estimate) :
    g.bound b ≤ g.bound a := by
  obtain ⟨e, -, rfl⟩ := List.mem_map.mp ha
  obtain ⟨f, -, rfl⟩ := List.mem_map.mp hb
  cases g with
  | noFalsePositives => exact (add_le_add_iff_right s.offset).mp h
  | noFalseNegatives => exact h

/-- **A higher threshold leaves the beginning of an answer.** -/
theorem frequent_prefix (h : s.Sound) {higher : Option ℤ}
    (hle : threshold.getD s.maximumError ≤ higher.getD s.maximumError) :
    s.frequent g higher <+: s.frequent g threshold := by
  have hfilter : s.frequent g higher =
      (s.frequent g threshold).filter fun r => higher.getD s.maximumError ≤ g.bound r := by
    rw [frequent_eq_filter h, frequent_eq_filter h, List.filter_filter]
    refine List.filter_congr fun r _ => ?_
    rw [← Bool.decide_and, decide_eq_decide]
    omega
  have hrows : ∀ r ∈ s.frequent g threshold, r ∈ s.rows :=
    fun r hr => List.mem_of_mem_filter ((Row.descending_perm _).mem_iff.mp hr)
  have hfalling : (s.frequent g threshold).Pairwise fun a b => b.estimate ≤ a.estimate :=
    Row.pairwise_estimate _
  rw [hfilter]
  refine filter_prefix (hfalling.imp_of_mem fun {a b} ha hb hba hreached => ?_)
  exact decide_eq_true ((of_decide_eq_true hreached).trans (bound_mono (hrows a ha) (hrows b hb) hba))

/-- No item is listed twice. -/
theorem nodup_items_frequent (h : s.Sound) : ((s.frequent g threshold).map Row.item).Nodup := by
  have hrows : (s.rows.map Row.item).Nodup := by
    rw [rows, List.map_map]
    exact h.holds.distinct
  refine (((Row.descending_perm _).map Row.item).nodup_iff).mpr (hrows.sublist ?_)
  exact List.filter_sublist.map Row.item

/-- **What an answer lists, and in which order**, for every sketch that can be reached, both guarantees, and
every threshold, or none. Each item that has a counter and whose bound reaches the threshold is listed once,
and no other item. The rows say what queries for their items answer. They come by descending estimate, and
where estimates are equal in the order of the slots. With a higher threshold the beginning of the list is
left. -/
theorem frequent_ranked (h : Reachable s) (g : Guarantee) (threshold : Option ℤ) :
    ∃ rows, s.frequentOfScalars (.inl g) (threshold.elim .nothing .int) = .ok rows ∧
      (rows.map Row.item).Nodup ∧
      (∀ x, x ∈ rows.map Row.item ↔ s.table.contains x = true ∧
        ∃ bound, s.boundOf g (.int x) = .ok bound ∧ threshold.getD s.maximumError ≤ bound) ∧
      (∀ r ∈ rows, s.estimate (.int r.item) = .ok r.estimate ∧ s.upperBound (.int r.item) = .ok r.upper ∧
        s.lowerBound (.int r.item) = .ok r.lower) ∧
      rows.Pairwise s.Ahead ∧
      ∀ higher : Option ℤ, threshold.getD s.maximumError ≤ higher.getD s.maximumError →
        ∃ rows', s.frequentOfScalars (.inl g) (higher.elim .nothing .int) = .ok rows' ∧
          rows' <+: rows := by
  have hsound := h.sound
  have hword : ∀ x, 0 < s.table.count x → IsWord x :=
    fun x hx => h.numbered.words x (hsound.mem_keys_iff.mpr hx)
  refine ⟨s.frequent g threshold, frequentOfScalars_eq s g threshold, nodup_items_frequent hsound, fun x => ?_,
    fun r hr => ?_, s.pairwise_ahead _, fun higher hle => ⟨_, frequentOfScalars_eq s g higher,
      frequent_prefix hsound hle⟩⟩
  · rw [mem_items_frequent_iff hsound, hsound.contains_iff]
    refine and_congr_right fun hpos => ?_
    have hbound : s.boundOf g (.int x) = .ok (g.bound (s.row x (s.table.count x))) := by
      cases g with
      | noFalsePositives => exact lowerBound_eq (hword x hpos)
      | noFalseNegatives => exact upperBound_eq (hword x hpos)
    simp [hbound]
  · obtain ⟨hpos, hrow, -⟩ := (mem_frequent_iff hsound).mp hr
    have hitem := hword r.item hpos
    rw [estimate_eq hitem, upperBound_eq hitem, lowerBound_eq hitem, if_pos hpos]
    rw [hrow]
    exact ⟨rfl, rfl, rfl⟩

/-- The crowded sketch, in which two more items were counted once each. -/
def levelled : Sketch := (crowded.state.extend leastDraws [.int 3, .int 9]).state

/-- The items three and four have the same estimate then, and four has the earlier slot. Nine has an earlier
slot than both, but the least estimate, and with a threshold of four it is cut off. -/
theorem frequent_ranked_levelled :
    Reachable levelled ∧ levelled.table.entries = [(9, 1), (4, 2), (3, 2), (5, 3)] ∧
      ∃ rows, levelled.frequentOfScalars (.inl .noFalseNegatives) .nothing = .ok rows ∧
        rows = [⟨5, 5, 5, 3⟩, ⟨4, 4, 4, 2⟩, ⟨3, 4, 4, 2⟩, ⟨9, 3, 3, 1⟩] ∧ rows.Pairwise levelled.Ahead ∧
        ∃ rows', levelled.frequentOfScalars (.inl .noFalseNegatives) (.int 4) = .ok rows' ∧
          9 ∉ rows'.map Row.item ∧ rows' <+: rows := by
  have hcrowded : Reachable crowded.state :=
    .call leastDraws (.extend (crowd.map .int)) (.ofSize ofSize_eq_narrow) fun _ hc => by cases hc
  have hlevelled : Reachable levelled :=
    .call leastDraws (.extend [.int 3, .int 9]) hcrowded fun _ hc => by cases hc
  obtain ⟨rows, hrows, -, -, -, hahead, hhigher⟩ := frequent_ranked hlevelled .noFalseNegatives none
  obtain ⟨rows', hrows', hprefix⟩ := hhigher (some 4) (by decide +kernel)
  refine ⟨hlevelled, by decide +kernel, rows, hrows, ?_, hahead, rows', hrows', ?_, hprefix⟩
  · rw [frequentOfScalars_eq, Except.ok.injEq, frequent] at hrows
    have hslots : levelled.rows.filter (fun r => levelled.maximumError ≤ Guarantee.bound .noFalseNegatives r) =
        [⟨9, 3, 3, 1⟩, ⟨4, 4, 4, 2⟩, ⟨3, 4, 4, 2⟩, ⟨5, 5, 5, 3⟩] := by decide +kernel
    rw [← hrows, Option.getD_none, hslots]
    simp [Row.descending, List.mergeSort, List.MergeSort.Internal.splitInTwo]
  · rw [frequentOfScalars_eq, Except.ok.injEq] at hrows'
    rw [← hrows', mem_items_frequent_iff hlevelled.sound]
    decide +kernel

end Sketch

end HeavyHitters
