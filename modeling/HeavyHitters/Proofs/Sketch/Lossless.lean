import HeavyHitters.Proofs.Sketch.Capacity
import HeavyHitters.Proofs.Sketch.Drift
import Mathlib.Data.Finset.Card
import Mathlib.Order.Bounds.Basic

/-!
# Runs in which nothing is lost

A sketch loses counts only when it is purged, and it is purged only when it holds more counters than
its greatest table may. So nothing is lost in a run as long as the items that it leaves a counter for
are few enough (`Run.lossless`): the counters are what was counted, and the table has grown just as
far as they made it grow (`Snug`). If the counters find room in the table as it is, then it does not
grow, either, and the run goes by without any event (`Run.quiet`).

## What is proved

* `Shaped.active_le_card`, `Shaped.active_eq_card`: there are as many counters as items that have a count.
* `Snug.isLeast`: a snug table has the least length that its counters find room in.
* `Run.lossless`: a run is lossless if its items are few enough.
* `Run.quiet`: it has no events if they fit into the table as it is.
-/

namespace HeavyHitters.Sketch

variable {s t u : Sketch} {events events' : List Event} {items : Finset ℤ}

/-! ### Counters and items -/

/-- There are no more counters than items that have a count. -/
theorem Shaped.active_le_card (h : s.Shaped) (hitems : ∀ x, 0 < s.table.count x → x ∈ items) :
    s.active ≤ items.card := by
  have hsubset : s.counters.keys.toFinset ⊆ items := by
    intro x hx
    exact hitems x (h.mem_keys_iff.mp (List.mem_toFinset.mp hx))
  calc s.active = s.counters.length := h.holds.active_eq
    _ = s.counters.keys.length := (List.length_map _).symm
    _ = s.counters.keys.toFinset.card := (List.toFinset_card_of_nodup h.holds.distinct).symm
    _ ≤ items.card := Finset.card_le_card hsubset

/-- There are as many counters as items that have a count. -/
theorem Shaped.active_eq_card (h : s.Shaped) (hitems : ∀ x, x ∈ items ↔ 0 < s.table.count x) :
    s.active = items.card := by
  have hkeys : items = s.counters.keys.toFinset := by
    ext x
    rw [hitems, List.mem_toFinset, h.mem_keys_iff]
  calc s.active = s.counters.length := h.holds.active_eq
    _ = s.counters.keys.length := (List.length_map _).symm
    _ = s.counters.keys.toFinset.card := (List.toFinset_card_of_nodup h.holds.distinct).symm
    _ = items.card := by rw [hkeys]

/-- Sketches with the same counts have the same counters. -/
theorem Shaped.counters_perm (h : s.Shaped) (h' : t.Shaped)
    (hcount : ∀ x, s.table.count x = t.table.count x) : s.counters.Perm t.counters := by
  apply Entries.perm_of_count_eq h.positive h'.positive h.holds.distinct h'.holds.distinct
  intro x
  rw [← h.holds.count_eq, ← h'.holds.count_eq, hcount]

theorem Shaped.active_eq (h : s.Shaped) (h' : t.Shaped) (hcount : ∀ x, s.table.count x = t.table.count x) :
    s.active = t.active := by
  calc s.active = s.counters.length := h.holds.active_eq
    _ = t.counters.length := (h.counters_perm h' hcount).length_eq
    _ = t.active := h'.holds.active_eq.symm

/-! ### Snug tables -/

/-- The table started with `2 ^ lg` slots, and every shorter length that it had since was too short
for its counters. -/
structure Snug (lg : ℕ) (s : Sketch) : Prop where
  /-- It has not become shorter. -/
  le_lgLength : lg ≤ s.table.lgLength
  /-- No shorter table would do. -/
  overfull : ∀ k, lg ≤ k → k < s.table.lgLength → loadLimit (powerOfTwo k) < s.active

/-- A table is snug from its own length on. -/
theorem Snug.self (s : Sketch) : Snug s.table.lgLength s :=
  ⟨le_rfl, fun _ hle hlt => absurd hlt (not_lt.mpr hle)⟩

/-- A table of the same length with more counters is as snug. -/
theorem Snug.of_active_le {lg : ℕ} (h : Snug lg s) (hlg : t.table.lgLength = s.table.lgLength)
    (hactive : s.active ≤ t.active) : Snug lg t :=
  ⟨hlg ▸ h.le_lgLength, fun k hle hlt => (h.overfull k hle (hlg ▸ hlt)).trans_le hactive⟩

/-- **A snug table has the least length**, from the first on, that its counters find room in. -/
theorem Snug.isLeast {lg : ℕ} (h : s.Sound) (hs : Snug lg s) :
    IsLeast {k | lg ≤ k ∧ s.active ≤ loadLimit (powerOfTwo k)} s.table.lgLength := by
  refine ⟨⟨hs.le_lgLength, h.capacity_eq_loadLimit ▸ h.active_le⟩, ?_⟩
  rintro k ⟨hle, hroom⟩
  by_contra hlt
  exact absurd (hs.overfull k hle (not_le.mp hlt)) (not_lt.mpr hroom)

/-! ### Lossless steps -/

/-- From `s` to `t` nothing is lost. -/
structure Lossless (s t : Sketch) (events : List Event) : Prop where
  /-- The offset stays. -/
  offset_eq : t.offset = s.offset
  /-- Nothing happens but that the table grows. -/
  grown : ∀ event ∈ events, ∃ slots capacity, event = .grew slots capacity
  /-- A snug table stays snug. -/
  snug : ∀ lg, Snug lg s → Snug lg t

namespace Lossless

theorem refl (s : Sketch) : Lossless s s [] := ⟨rfl, fun _ hevent => (by cases hevent), fun _ h => h⟩

theorem trans (h : Lossless s t events) (h' : Lossless t u events') : Lossless s u (events ++ events') where
  offset_eq := h'.offset_eq.trans h.offset_eq
  grown event hevent := by
    rcases List.mem_append.mp hevent with hevent | hevent
    · exact h.grown event hevent
    · exact h'.grown event hevent
  snug lg hs := h'.snug lg (h.snug lg hs)

end Lossless

/-- Room is made without loss, as long as there are not too many counters for the greatest table. -/
theorem Room.lossless (h : s.Shaped) (hr : Room s t events) (hfew : s.active ≤ s.maxCapacity) :
    Lossless s t events := by
  cases hr with
  | enough => exact .refl s
  | grown table hlg hfull hholds =>
    have hactive : table.active = s.active := hholds.active_eq.trans h.holds.active_eq.symm
    refine ⟨rfl, fun event hevent => ⟨_, _, List.mem_singleton.mp hevent⟩, fun lg hs => ⟨?_, ?_⟩⟩
    · exact (hs.le_lgLength.trans (Nat.le_succ _)).trans hholds.lgLength_eq.ge
    · -- the length that it has grown from was too short, and so was every shorter one
      intro k _ hlt
      rw [hholds.lgLength_eq] at hlt
      have hlimit := loadLimit_mono (powerOfTwo_mono (Nat.lt_succ_iff.mp hlt))
      have hcapacity := h.capacity_eq_loadLimit
      simp only [active] at hactive hfull ⊢
      omega
  | purged table median hlg hfull =>
    exact absurd hfew (by omega)

theorem Step.nonneg {e : ℤ × ℤ} (hs : Step s e t events) : 0 ≤ e.2 := by
  cases hs with
  | idle => exact le_rfl
  | counted _ positive => exact positive.le

/-- **An update is lossless** if the items that have a count afterwards are few enough. -/
theorem Step.lossless {e : ℤ × ℤ} (h : s.Sound) (hs : Step s e t events)
    (hitems : ∀ x, 0 < s.table.count x + (if x = e.1 then e.2 else 0) → x ∈ items)
    (hfew : items.card ≤ s.maxCapacity) : Lossless s t events := by
  cases hs with
  | idle => exact .refl s
  | @counted item count table _ _ _ positive _ holds room =>
    obtain ⟨hshaped, -⟩ := h.withCount positive holds
    have hactive : (s.withCount table count).active ≤ items.card := by
      apply hshaped.active_le_card
      intro x hx
      apply hitems x
      rwa [← h.count_of_add holds x]
    have hmore : s.active ≤ table.active := by
      have hlength := Entries.length_add s.counters item count
      have hcounters : s.active = s.counters.length := h.holds.active_eq
      rw [holds.active_eq]
      split_ifs at hlength <;> omega
    have hadded : Lossless s (s.withCount table count) [] :=
      ⟨rfl, fun _ hevent => (by cases hevent), fun _ hs => hs.of_active_le holds.lgLength_eq hmore⟩
    exact hadded.trans (room.lossless hshaped (hactive.trans hfew))

/-! ### Lossless runs -/

theorem Run.tally_nonneg {es : Entries} (hr : Run s es t events) (x : ℤ) : 0 ≤ es.tally x := by
  induction hr with
  | nil => exact le_rfl
  | cons step _ ih =>
    have := step.nonneg
    rw [Entries.tally_cons]
    split_ifs <;> omega

/-- **A run is lossless** if the items that have a count in the end are few enough. -/
theorem Run.lossless {es : Entries} (h : s.Sound) (hr : Run s es t events)
    (hitems : ∀ x, 0 < s.table.count x + es.tally x → x ∈ items) (hfew : items.card ≤ s.maxCapacity) :
    Lossless s t events := by
  induction hr with
  | nil s => exact .refl s
  | @cons s t u e es _ _ step rest ih =>
    have hdrift := step.drift h
    have hfirst : ∀ x, 0 < s.table.count x + (if x = e.1 then e.2 else 0) → x ∈ items := by
      intro x hx
      have := rest.tally_nonneg x
      apply hitems x
      rw [Entries.tally_cons]
      omega
    have hstep := step.lossless h hfirst hfew
    have hmax : t.maxCapacity = s.maxCapacity := by
      rw [maxCapacity, maxCapacity, hdrift.lgMax_eq]
    have hrest : ∀ x, 0 < t.table.count x + es.tally x → x ∈ items := by
      intro x hx
      apply hitems x
      rwa [Entries.tally_cons, ← add_assoc, ← hdrift.count_eq hstep.offset_eq x]
    exact hstep.trans (ih (step.sound h) hrest (hmax.symm ▸ hfew))

/-- A table that ends with the length that it had, and was not purged, has not grown. -/
private theorem Course.eq_nil {lgMax lg : ℕ} (h : Course lgMax lg events lg)
    (hgrown : ∀ event ∈ events, ∃ slots capacity, event = .grew slots capacity) : events = [] := by
  cases h with
  | stay => rfl
  | grew _ rest => exact absurd rest.le (by omega)
  | purged =>
    obtain ⟨_, _, hevent⟩ := hgrown _ List.mem_cons_self
    cases hevent

/-- **A run has no events** if the items that have a count in the end fit into the table as it is. -/
theorem Run.quiet {es : Entries} (h : s.Sound) (hr : Run s es t events)
    (hitems : ∀ x, 0 < s.table.count x + es.tally x → x ∈ items) (hfew : items.card ≤ s.capacity) :
    events = [] ∧ t.offset = s.offset ∧ t.table.lgLength = s.table.lgLength := by
  have hlossless := hr.lossless h hitems (hfew.trans h.capacity_le)
  obtain ⟨-, hcourse⟩ := hr.course h
  have hlg : t.table.lgLength = s.table.lgLength := by
    apply le_antisymm _ hcourse.le
    -- had it grown, there would be too many counters
    by_contra hle
    have hlt := not_le.mp hle
    have hover := (hlossless.snug _ (.self s)).overfull _ le_rfl hlt
    have hactive : t.active ≤ items.card := by
      apply (hr.sound h).active_le_card
      intro x hx
      apply hitems x
      rwa [← (hr.drift h).count_eq hlossless.offset_eq x]
    have hcapacity := h.capacity_eq_loadLimit
    omega
  rw [hlg] at hcourse
  exact ⟨hcourse.eq_nil hlossless.grown, hlossless.offset_eq, hlg⟩

end HeavyHitters.Sketch
