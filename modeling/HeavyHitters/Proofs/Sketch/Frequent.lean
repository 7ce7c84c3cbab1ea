import HeavyHitters.Proofs.Sketch.Bounds

/-!
# Frequent items

A frequent-items answer lists the counters whose bound reaches the threshold. With upper bounds no
item is missed whose true count exceeds the threshold; with lower bounds no item is listed whose true
count does not reach it. How far either answer can be off is the maximum error. The items that have
lost their counter to a purge are the reason why the threshold must not be below that: their true
count may be anything up to it. Their upper bound reaches a lower threshold, but they are not listed.

## What is proved

* `mem_frequent_iff`: which rows an answer lists.
* `frequentOfScalars_eq`: a caller who asks for a guarantee, with a threshold or none, gets that answer.
* `frequent_guarantees`: what the answers of a genuine sketch say about true counts.
* `missed_iff_purged`: what is missed with upper bounds below the maximum error.
-/

namespace HeavyHitters

namespace Sketch

variable {s : Sketch} {hist : History} {threshold : Option ℤ}

/-! ### The rows of an answer -/

/-- **The rows of an answer** are those of the items that have a counter and whose bound reaches the
threshold. -/
theorem mem_frequent_iff (h : s.Sound) {g : Guarantee} {r : Row ℤ} :
    r ∈ s.frequent g threshold ↔
      0 < s.table.count r.item ∧ r = s.row r.item (s.table.count r.item) ∧
        threshold.getD s.maximumError ≤ g.bound r := by
  have hmem : ∀ x n, (x, n) ∈ s.counters ↔ 0 < n ∧ n = s.table.count x := by
    intro x n
    rw [Entries.mem_iff_count h.positive h.holds.distinct, h.holds.count_eq]
  rw [frequent, (Row.descending_perm _).mem_iff, List.mem_filter, decide_eq_true_eq, ← and_assoc]
  apply and_congr_left
  intro _
  constructor
  · intro hr
    obtain ⟨⟨x, n⟩, he, rfl⟩ := List.mem_map.mp hr
    obtain ⟨hpos, rfl⟩ := (hmem x n).mp he
    exact ⟨hpos, rfl⟩
  · rintro ⟨hpos, hr⟩
    rw [hr]
    exact List.mem_map_of_mem (f := fun e => s.row e.1 e.2) ((hmem _ _).mpr ⟨hpos, rfl⟩)

/-- The items of an answer. -/
theorem mem_items_frequent_iff (h : s.Sound) {g : Guarantee} {x : ℤ} :
    x ∈ (s.frequent g threshold).map Row.item ↔
      0 < s.table.count x ∧ threshold.getD s.maximumError ≤ g.bound (s.row x (s.table.count x)) := by
  constructor
  · intro hx
    obtain ⟨r, hr, rfl⟩ := List.mem_map.mp hx
    obtain ⟨hpos, hrow, hbound⟩ := (mem_frequent_iff h).mp hr
    exact ⟨hpos, hrow ▸ hbound⟩
  · rintro ⟨hpos, hbound⟩
    exact List.mem_map.mpr ⟨s.row x (s.table.count x), (mem_frequent_iff h).mpr ⟨hpos, rfl, hbound⟩, rfl⟩

/-- **A caller who asks for a guarantee gets that answer**, with a threshold that is an integer or left
out. -/
theorem frequentOfScalars_eq (s : Sketch) (g : Guarantee) (threshold : Option ℤ) :
    s.frequentOfScalars (.inl g) (threshold.elim .nothing .int) = .ok (s.frequent g threshold) := by
  cases threshold with
  | some t => exact frequentOfScalars_int s g t
  | none =>
    -- without a threshold the maximum error takes its place
    have hdefault : s.frequentOfScalars (.inl g) .nothing =
        s.frequentOfScalars (.inl g) (.int s.maximumError) := by
      simp [frequentOfScalars]
    exact hdefault.trans (frequentOfScalars_int s g s.maximumError)

/-! ### Guarantees -/

/-- Which items are listed with their upper bounds. -/
private theorem Accounted.likely (h : Accounted s hist)
    (ht : s.maximumError ≤ threshold.getD s.maximumError) (x : ℤ) :
    (threshold.getD s.maximumError < hist.count x →
        x ∈ (s.frequent .noFalseNegatives threshold).map Row.item) ∧
      (x ∈ (s.frequent .noFalseNegatives threshold).map Row.item →
        threshold.getD s.maximumError - s.maximumError ≤ hist.count x) := by
  have hlower := h.lower x
  have hupper := h.upper x
  have hnonneg := h.sound.count_nonneg x
  rw [mem_items_frequent_iff h.sound]
  simp only [maximumError, Guarantee.bound, row] at ht ⊢
  constructor
  · intro hfrequent
    omega
  · rintro ⟨-, hbound⟩
    omega

/-- Which items are listed with their lower bounds. -/
private theorem Accounted.certain (h : Accounted s hist)
    (ht : s.maximumError ≤ threshold.getD s.maximumError) (x : ℤ) :
    (x ∈ (s.frequent .noFalsePositives threshold).map Row.item →
        threshold.getD s.maximumError ≤ hist.count x) ∧
      (0 < hist.count x → threshold.getD s.maximumError + s.maximumError ≤ hist.count x →
        x ∈ (s.frequent .noFalsePositives threshold).map Row.item) := by
  have hlower := h.lower x
  have hupper := h.upper x
  have hoffset := h.offset_nonneg
  rw [mem_items_frequent_iff h.sound]
  simp only [maximumError, Guarantee.bound, row] at ht ⊢
  constructor
  · rintro ⟨-, hbound⟩
    omega
  · intro hpos hfrequent
    omega

/-- A lower bound that reaches the threshold is below an upper bound that does. -/
private theorem Accounted.likely_of_certain (h : Accounted s hist) (x : ℤ)
    (hx : x ∈ (s.frequent .noFalsePositives threshold).map Row.item) :
    x ∈ (s.frequent .noFalseNegatives threshold).map Row.item := by
  have hoffset := h.offset_nonneg
  rw [mem_items_frequent_iff h.sound] at hx ⊢
  obtain ⟨hpos, hbound⟩ := hx
  refine ⟨hpos, hbound.trans ?_⟩
  simp only [Guarantee.bound, row]
  omega

/-- **What the answers of a genuine sketch guarantee**, for each threshold from the maximum error on. One
answer misses no item whose true count exceeds the threshold, and lists none whose true count falls
short of it by more than the maximum error. The other lists no item whose true count does not reach the
threshold, and misses none whose true count exceeds it by the maximum error. All items of the second are
listed in the first. -/
theorem frequent_guarantees (h : Genuine s hist) (ht : s.maximumError ≤ threshold.getD s.maximumError) :
    ∃ likely certain,
      s.frequentOfScalars (.inl .noFalseNegatives) (threshold.elim .nothing .int) =
        .ok likely ∧
      s.frequentOfScalars (.inl .noFalsePositives) (threshold.elim .nothing .int) =
        .ok certain ∧
      (∀ x, threshold.getD s.maximumError < hist.count x → x ∈ likely.map Row.item) ∧
      (∀ x ∈ likely.map Row.item, threshold.getD s.maximumError - s.maximumError ≤ hist.count x) ∧
      (∀ x ∈ certain.map Row.item, threshold.getD s.maximumError ≤ hist.count x) ∧
      (∀ x, 0 < hist.count x → threshold.getD s.maximumError + s.maximumError ≤ hist.count x →
        x ∈ certain.map Row.item) ∧
      ∀ x ∈ certain.map Row.item, x ∈ likely.map Row.item := by
  have haccounted := h.accounted
  exact ⟨_, _, frequentOfScalars_eq s _ threshold, frequentOfScalars_eq s _ threshold,
    fun x => (haccounted.likely ht x).1, fun x => (haccounted.likely ht x).2,
    fun x => (haccounted.certain ht x).1, fun x => (haccounted.certain ht x).2,
    fun x => haccounted.likely_of_certain x⟩

/-- Five was counted ten times and four eight times, but four counts of each are lost. So five is sure to
reach six, and four is not missed. -/
theorem frequent_guarantees_doubled :
    Genuine doubled doubledHistory ∧ doubled.maximumError = 4 ∧ doubledHistory.count 5 = 10 ∧
      doubledHistory.count 4 = 8 ∧
      ∃ likely certain,
        doubled.frequentOfScalars (.inl .noFalseNegatives) (.int 6) = .ok likely ∧
        doubled.frequentOfScalars (.inl .noFalsePositives) (.int 6) = .ok certain ∧
        4 ∈ likely.map Row.item ∧ 5 ∈ certain.map Row.item ∧
        ∀ x ∈ certain.map Row.item, 6 ≤ doubledHistory.count x := by
  have herror : doubled.maximumError = 4 := by decide +kernel
  have hfive : doubledHistory.count 5 = 10 := by decide +kernel
  have hfour : doubledHistory.count 4 = 8 := by decide +kernel
  have hthreshold : doubled.maximumError ≤ (some 6).getD doubled.maximumError := herror.le.trans (by decide)
  obtain ⟨likely, certain, hlikely, hcertain, hfound, -, htrue, hsure, -⟩ :=
    frequent_guarantees genuine_doubled hthreshold
  refine ⟨genuine_doubled, herror, hfive, hfour, likely, certain, hlikely, hcertain, hfound 4 ?_,
    hsure 5 (by omega) ?_, htrue⟩
  · rw [hfour]
    decide
  · rw [hfive, herror]
    decide

/-! ### Thresholds below the maximum error -/

/-- A counter reaches every threshold below the maximum error with its upper bound. -/
private theorem Accounted.mem_likely_iff (h : Accounted s hist) {t : ℤ} (ht : t < s.maximumError) {x : ℤ} :
    x ∈ (s.frequent .noFalseNegatives (some t)).map Row.item ↔ s.table.contains x = true := by
  have hnonneg := h.sound.count_nonneg x
  rw [mem_items_frequent_iff h.sound, h.sound.contains_iff]
  simp only [maximumError, Guarantee.bound, row, Option.getD_some] at ht ⊢
  refine and_iff_left_of_imp fun _ => ?_
  omega

/-- An item that was counted more often than the maximum error has kept a counter. -/
theorem Accounted.contains_of_error_lt (h : Accounted s hist) {x : ℤ} (hx : s.maximumError < hist.count x) :
    s.table.contains x = true := by
  have hupper := h.upper x
  rw [maximumError] at hx
  exact h.sound.contains_iff.mpr (by omega)

/-- **What is missed below the maximum error.** For every such threshold the answer with upper bounds lists
the items that have a counter, and no others. So it misses none whose true count exceeds the maximum
error; and it misses none whose true count exceeds the threshold exactly if all of these that do not exceed
the maximum error, too, have kept their counters. -/
theorem missed_iff_purged (h : Genuine s hist) {t : ℤ} (ht : t < s.maximumError) :
    ∃ likely,
      s.frequentOfScalars (.inl .noFalseNegatives) (.int t) = .ok likely ∧
      (∀ x, x ∈ likely.map Row.item ↔ s.table.contains x = true) ∧
      (∀ x, s.maximumError < hist.count x → x ∈ likely.map Row.item) ∧
      ((∀ x, t < hist.count x → x ∈ likely.map Row.item) ↔
        ∀ x, t < hist.count x → hist.count x ≤ s.maximumError → s.table.contains x = true) := by
  have haccounted := h.accounted
  have hlisted : ∀ x, x ∈ (s.frequent .noFalseNegatives (some t)).map Row.item ↔
      s.table.contains x = true := fun x => haccounted.mem_likely_iff ht
  refine ⟨_, frequentOfScalars_eq s _ (some t), hlisted,
    fun x hx => (hlisted x).mpr (haccounted.contains_of_error_lt hx), ?_⟩
  constructor
  · intro hpromise x hx _
    exact (hlisted x).mp (hpromise x hx)
  · intro hkept x hx
    refine (hlisted x).mpr ?_
    rcases le_or_gt (hist.count x) s.maximumError with hle | hgt
    · exact hkept x hx hle
    · exact haccounted.contains_of_error_lt hgt

/-- In the doubled sketch two was counted four times, and has lost its counter. Three was counted six times,
which is more than the maximum error. -/
theorem missed_iff_purged_doubled :
    Genuine doubled doubledHistory ∧ 3 < doubled.maximumError ∧ doubledHistory.count 2 = 4 ∧
      doubledHistory.count 3 = 6 ∧
      ∃ likely, doubled.frequentOfScalars (.inl .noFalseNegatives) (.int 3) = .ok likely ∧
        2 ∉ likely.map Row.item ∧ 3 ∈ likely.map Row.item := by
  have herror : doubled.maximumError = 4 := by decide +kernel
  have hbelow : 3 < doubled.maximumError := by
    rw [herror]
    decide
  have htwo : doubledHistory.count 2 = 4 := by decide +kernel
  have hthree : doubledHistory.count 3 = 6 := by decide +kernel
  obtain ⟨likely, hlikely, hlisted, hfound, -⟩ := missed_iff_purged genuine_doubled hbelow
  refine ⟨genuine_doubled, hbelow, htwo, hthree, likely, hlikely, ?_, hfound 3 ?_⟩
  · rw [hlisted]
    decide +kernel
  · rw [herror, hthree]
    decide

/-- Of the crowd two was counted twice, which is more than once, but the answer for a threshold of one does not
list it: it has lost its counter in the purge that subtracted two. -/
theorem frequent_missed_crowded :
    Genuine crowded.state (History.none.extend crowd) ∧ crowded.state.maximumError = 2 ∧
      (History.none.extend crowd).count 2 = 2 ∧
      ∃ likely, crowded.state.frequentOfScalars (.inl .noFalseNegatives) (.int 1) = .ok likely ∧
        2 ∉ likely.map Row.item := by
  have herror : crowded.state.maximumError = 2 := by decide +kernel
  have hbelow : 1 < crowded.state.maximumError := by
    rw [herror]
    decide
  refine ⟨genuine_crowded, herror, by decide +kernel, _,
    frequentOfScalars_eq _ .noFalseNegatives (some 1), ?_⟩
  rw [genuine_crowded.accounted.mem_likely_iff hbelow]
  decide +kernel

end Sketch

end HeavyHitters
