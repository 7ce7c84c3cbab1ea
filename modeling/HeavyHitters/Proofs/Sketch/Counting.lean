import HeavyHitters.Proofs.Results
import HeavyHitters.Proofs.Table.Purging
import HeavyHitters.Sketch.Update

/-!
# Counting, step by step

What an update does to a sketch is said here once, as a relation that has one case for each way it
can go: nothing is counted, a counter is added to and there is room, the table grows, or it is
purged (`Room`, `Step`). A series of updates is a run of such steps, up to the first refusal
(`Run`). All that is claimed of sketches later is first shown of a step, and then follows for a run.

What carries the steps is that a sketch is `Sound`: its table has a layout, a length in range and
positive counts, and it never holds more counters than its capacity. So one more counter still finds
a slot, growing by one step makes room for it, and a purge, whose median is one of the counts, drops
at least one counter.

## What is proved

* `makeRoom_cases`: room is always made, in one of the three ways.
* `update_cases`: an accepted update is a step; a refused one changes nothing.
* `updateAll_cases`, `replay_cases`: a series of updates is a run up to the first refusal.
* `exists_run_of_update`, `exists_run_of_extend`, `exists_run_of_replay`: what is counted to the end is a
  run.
* `Run.sound`: a run keeps a sketch sound.
-/

namespace HeavyHitters

/-! ### Load limits -/

theorem eight_le_powerOfTwo {lg : ℕ} (h : lgMinLength ≤ lg) : 8 ≤ powerOfTwo lg := powerOfTwo_mono h

theorem loadLimit_mono {m n : ℕ} (h : m ≤ n) : loadLimit m ≤ loadLimit n := by
  unfold loadLimit
  omega

/-- A table at its load limit has room for one more counter. -/
theorem loadLimit_add_one_lt {n : ℕ} (h : 8 ≤ n) : loadLimit n + 1 < n := by
  unfold loadLimit
  omega

/-- Twice the length has room for one counter more. -/
theorem loadLimit_lt_two_mul {n : ℕ} (h : 8 ≤ n) : loadLimit n + 1 ≤ loadLimit (2 * n) := by
  unfold loadLimit
  omega

/-! ### Pairs of scalars -/

/-- The entries that pairs of scalars are as indices, if all of them are. -/
def Entries.ofPairs? (pairs : List (Scalar × Scalar)) : Option Entries :=
  pairs.mapM fun p => do return (← p.1.index?, ← p.2.index?)

namespace Entries

theorem ofPairs?_cons {p : Scalar × Scalar} {pairs : List (Scalar × Scalar)} {es : Entries} {i n : ℤ}
    (hi : p.1.index? = some i) (hn : p.2.index? = some n) (h : ofPairs? pairs = some es) :
    ofPairs? (p :: pairs) = some ((i, n) :: es) := by
  rw [ofPairs?] at h ⊢
  rw [List.mapM_cons, h, hi, hn]
  rfl

/-- Entries are what the integers in them are as indices. -/
@[simp] theorem ofPairs?_int (es : Entries) :
    ofPairs? (es.map fun e => (Scalar.int e.1, Scalar.int e.2)) = some es := by
  induction es with
  | nil => rfl
  | cons e es ih => exact ofPairs?_cons rfl rfl ih

end Entries

namespace Sketch

variable {s t u : Sketch}

/-- The counters of a sketch. -/
abbrev counters (s : Sketch) : Entries := s.table.entries

/-! ### Soundness -/

/-- The table of a sketch is in order, but may hold too many counters. -/
structure Shaped (s : Sketch) : Prop where
  /-- Every counter can be found. -/
  layout : s.table.Layout
  /-- The table has at least the least length. -/
  lgMin_le : lgMinLength ≤ s.table.lgLength
  /-- It has at most the greatest length of the sketch. -/
  lgLength_le : s.table.lgLength ≤ s.lgMax
  /-- That is one which a sketch may have. -/
  lgMax_le : s.lgMax ≤ lgMaxLength
  /-- The noted capacity is that of the table. -/
  capacity_eq : s.capacity = s.table.capacity
  /-- All counts are positive. -/
  positive : ∀ n ∈ s.counters.values, 0 < n

/-- The table of a sketch is in order. -/
structure Sound (s : Sketch) : Prop extends Shaped s where
  /-- It holds no more counters than it may. -/
  active_le : s.active ≤ s.capacity

namespace Shaped

theorem holds (h : s.Shaped) : s.table.Holds s.table.lgLength s.counters := .self h.layout

theorem capacity_eq_loadLimit (h : s.Shaped) : s.capacity = loadLimit (powerOfTwo s.table.lgLength) := by
  rw [h.capacity_eq, Table.capacity, Table.length_eq]

theorem eight_le_length (h : s.Shaped) : 8 ≤ powerOfTwo s.table.lgLength := eight_le_powerOfTwo h.lgMin_le

theorem capacity_le (h : s.Shaped) : s.capacity ≤ s.maxCapacity := by
  rw [h.capacity_eq_loadLimit]
  exact loadLimit_mono (powerOfTwo_mono h.lgLength_le)

theorem sampleSize_pos (h : s.Shaped) : 0 < s.sampleSize := by
  have := eight_le_powerOfTwo (h.lgMin_le.trans h.lgLength_le)
  unfold sampleSize maxCapacity loadLimit sampleLimit
  omega

theorem count_nonneg (h : s.Shaped) (item : ℤ) : 0 ≤ s.table.count item := by
  rw [h.holds.count_eq]
  exact Entries.count_nonneg h.positive h.holds.distinct item

theorem mem_keys_iff (h : s.Shaped) {x : ℤ} : x ∈ s.counters.keys ↔ 0 < s.table.count x := by
  rw [h.holds.count_eq]
  exact Entries.mem_keys_iff_count_pos h.positive h.holds.distinct

/-- The counters of an item add up to its count. -/
theorem tally_eq (h : s.Shaped) (item : ℤ) : Entries.tally s.counters item = s.table.count item := by
  rw [Entries.tally_eq_count h.holds.distinct, h.holds.count_eq]

/-- A sketch whose table is replaced by one that holds other entries. -/
theorem replace (h : s.Shaped) {table : Table ℤ} {lg capacity : ℕ} {es : Entries}
    {offset streamLength : ℤ} {truths : Truths} (hholds : table.Holds lg es)
    (hlg : s.table.lgLength ≤ lg) (hlg' : lg ≤ s.lgMax) (hcapacity : capacity = table.capacity)
    (hpositive : ∀ n ∈ es.values, 0 < n) :
    Shaped { s with table, capacity, offset, streamLength, truths } where
  layout := hholds.layout
  lgMin_le := hholds.lgLength_eq.symm ▸ h.lgMin_le.trans hlg
  lgLength_le := hholds.lgLength_eq.symm ▸ hlg'
  lgMax_le := h.lgMax_le
  capacity_eq := hcapacity
  positive n hn := hpositive n ((hholds.perm.map Prod.snd).mem_iff.mp hn)

end Shaped

/-! ### Making room -/

/-- How room is made in a sketch. -/
inductive Room (s : Sketch) : Sketch → List Event → Prop
  /-- There is enough. -/
  | enough (h : s.active ≤ s.capacity) : Room s s []
  /-- The table holds one counter too many, and grows. -/
  | grown (table : Table ℤ) (hlg : s.table.lgLength < s.lgMax) (hfull : s.active = s.capacity + 1)
      (holds : table.Holds (s.table.lgLength + 1) s.counters) :
      Room s { s with table, capacity := table.capacity } [.grew table.length table.capacity]
  /-- The table may not grow, holds one counter too many, and is purged by a central count. -/
  | purged (table : Table ℤ) (median : ℤ) (hlg : s.table.lgLength = s.lgMax)
      (hfull : s.active = s.maxCapacity + 1)
      (hcentral : Median.Central s.counters.values s.sampleSize median)
      (holds : table.Holds s.table.lgLength (s.counters.lessen median)) :
      Room s { s with table, offset := s.offset + median }
        [.purged s.streamLength (s.active - table.active) s.active median]

/-- A table that holds one counter too many grows if it is allowed to. -/
private theorem grow_cases (h : s.Shaped) (hlg : s.table.lgLength < s.lgMax)
    (hfull : s.active = s.capacity + 1) : ∃ t events, s.grow = ⟨t, events, none⟩ ∧ Room s t events := by
  obtain ⟨table, hresize, hholds⟩ := h.holds.resize (Nat.lt_succ_self s.table.lgLength)
  have hdouble : 2 * s.table.length = powerOfTwo (s.table.lgLength + 1) := by
    rw [Table.length_eq, powerOfTwo_succ]
  refine ⟨_, _, ?_, .grown table hlg hfull hholds⟩
  rw [grow, hdouble, hresize]

/-- A purge drops at least one counter. -/
theorem length_lessen_lt {es : Entries} {size : ℕ} {median : ℤ}
    (h : Median.Central es.values size median) : (es.lessen median).length < es.length := by
  have hdropped := h.below
  have hsplit := Entries.length_lessen es median
  omega

/-- A table that holds one counter too many and may not grow is purged. -/
private theorem purge_cases (src : DrawSource) (h : s.Shaped) (hlg : s.table.lgLength = s.lgMax)
    (hfull : s.active = s.capacity + 1) :
    ∃ t events, s.purge src = ⟨t, events, none⟩ ∧ Room s t events := by
  have hcapacity : s.capacity = s.maxCapacity := by
    rw [h.capacity_eq_loadLimit, hlg, maxCapacity]
  have hactive : s.counters.length = s.capacity + 1 := by
    rw [← hfull]
    exact h.holds.active_eq.symm
  have hne : s.counters ≠ [] := List.ne_nil_of_length_eq_add_one hactive
  have hsize : (0 : ℤ) < (s.sampleSize : ℤ) := by
    have := h.sampleSize_pos
    omega
  obtain ⟨median, table, g', hpurge, hholds, hcentral⟩ :=
    h.holds.purge src hne hsize (src.ofSeed (purgeSeed s.seed s.streamLength))
  have hmin : min s.counters.length (s.sampleSize : ℤ).toNat = s.sampleSize := by
    have : s.sampleSize ≤ s.maxCapacity := min_le_right _ _
    omega
  rw [hmin] at hcentral
  have hroom : ¬ s.maxCapacity < table.active := by
    have := length_lessen_lt hcentral
    rw [hholds.active_eq]
    omega
  refine ⟨_, _, ?_, .purged table median hlg (hcapacity ▸ hfull) hcentral hholds⟩
  simp only [purge, hpurge, hroom, if_false]
  rfl

/-- **Room is always made**, whatever a purge draws. -/
theorem makeRoom_cases (src : DrawSource) (h : s.Shaped) (hactive : s.active ≤ s.capacity + 1) :
    ∃ t events, makeRoom src s = ⟨t, events, none⟩ ∧ Room s t events := by
  rw [makeRoom]
  split_ifs with henough hlg
  · exact ⟨s, [], rfl, .enough henough⟩
  · exact grow_cases h hlg (by omega)
  · exact purge_cases src h (le_antisymm h.lgLength_le (not_lt.mp hlg)) (by omega)

/-- Where room was made no table holds too many counters. -/
theorem Room.sound {events : List Event} (h : s.Shaped) (hr : Room s t events) : t.Sound := by
  have hactive : s.counters.length = s.active := h.holds.active_eq.symm
  cases hr with
  | enough henough => exact ⟨h, henough⟩
  | grown table hlg hfull hholds =>
    refine ⟨h.replace hholds (Nat.le_succ _) hlg rfl h.positive, ?_⟩
    have hlimit := loadLimit_lt_two_mul h.eight_le_length
    have hcapacity := h.capacity_eq_loadLimit
    simp only [active, Table.capacity, hholds.active_eq, hholds.length_eq, powerOfTwo_succ]
      at hactive hfull ⊢
    omega
  | purged table median hlg hfull hcentral hholds =>
    have hcapacity : s.capacity = table.capacity := by
      rw [h.capacity_eq_loadLimit, Table.capacity, hholds.length_eq]
    refine ⟨h.replace hholds le_rfl h.lgLength_le hcapacity (Entries.values_lessen_pos _ _), ?_⟩
    have hlt := length_lessen_lt hcentral
    have hmax : s.capacity = s.maxCapacity := by
      rw [h.capacity_eq_loadLimit, hlg, maxCapacity]
    simp only [active, hholds.active_eq] at hactive hfull ⊢
    omega

/-! ### One update -/

/-- A sketch with a count added to the counter of an item, before room is made. -/
def withCount (s : Sketch) (table : Table ℤ) (count : ℤ) : Sketch :=
  { s with table, streamLength := s.streamLength + count, truths := .none }

/-- What an accepted update does to a sketch. -/
inductive Step (s : Sketch) : ℤ × ℤ → Sketch → List Event → Prop
  /-- Nothing is counted. -/
  | idle (item : ℤ) : Step s (item, 0) s []
  /-- The count is added to the counter of the item, and room is made. -/
  | counted {item count : ℤ} {table : Table ℤ} {t : Sketch} {events : List Event} (word : IsWord item)
      (positive : 0 < count) (bounded : s.streamLength + count ≤ maxWord)
      (holds : table.Holds s.table.lgLength (s.counters.add item count))
      (room : Room (s.withCount table count) t events) : Step s (item, count) t events

/-- There is room for one more counter. -/
theorem Sound.exists_put (h : s.Sound) (item count : ℤ) :
    ∃ table, s.table.put item count = .ok table ∧
      table.Holds s.table.lgLength (s.counters.add item count) := by
  refine h.holds.put item count (.inr ?_)
  have hle := h.active_le
  have hlt := loadLimit_add_one_lt h.eight_le_length
  have hactive : s.active = s.counters.length := h.holds.active_eq
  rw [h.capacity_eq_loadLimit] at hle
  omega

/-- One more counter does no harm to the shape. -/
theorem Sound.withCount (h : s.Sound) {item count : ℤ} {table : Table ℤ} (hcount : 0 < count)
    (hholds : table.Holds s.table.lgLength (s.counters.add item count)) :
    (s.withCount table count).Shaped ∧
      (s.withCount table count).active ≤ (s.withCount table count).capacity + 1 := by
  have hcapacity : s.capacity = table.capacity := by
    rw [h.capacity_eq_loadLimit, Table.capacity, hholds.length_eq]
  have hactive : s.counters.length = s.active := h.holds.active_eq.symm
  refine ⟨h.toShaped.replace hholds le_rfl h.lgLength_le hcapacity
    (Entries.values_add_pos h.positive hcount), ?_⟩
  have hlength := Entries.length_add s.counters item count
  have hle := h.active_le
  simp only [Sketch.withCount, active, hholds.active_eq] at hactive hle ⊢
  split_ifs at hlength <;> omega

theorem Step.sound {e : ℤ × ℤ} {events : List Event} (h : s.Sound) (hs : Step s e t events) : t.Sound := by
  cases hs with
  | idle => exact h
  | counted _ positive _ holds room => exact room.sound (h.withCount positive holds).1

/-- Of two 64-bit integers the count decides. -/
theorem accept_of_words {item count : Scalar} {i n : ℤ} (hi : item.toWord "item" = .ok i)
    (hn : count.toWord "count" = .ok n) :
    s.accept item count =
      if n < 0 then .error .negativeCount
      else if 0 < n ∧ maxWord < s.streamLength + n then .error .streamOverflow
      else .ok (i, n) := by
  have hover : maxWord - n < s.streamLength ↔ maxWord < s.streamLength + n := by omega
  simp only [accept, hi, hn, bind, Except.bind, hover]
  split_ifs <;> rfl

/-- What is accepted are 64-bit integers, and the count is in bounds. -/
theorem accept_eq_ok_iff {item count : Scalar} {i n : ℤ} :
    s.accept item count = .ok (i, n) ↔ item.index? = some i ∧ count.index? = some n ∧ IsWord i ∧
      IsWord n ∧ 0 ≤ n ∧ (0 < n → s.streamLength + n ≤ maxWord) := by
  constructor
  · intro h
    obtain ⟨i', hi, hrest⟩ := bind_eq_ok.mp h
    obtain ⟨n', hn, -⟩ := bind_eq_ok.mp hrest
    rw [accept_of_words hi hn] at h
    obtain ⟨hitem, hword⟩ := Scalar.toWord_eq_ok_iff.mp hi
    obtain ⟨hcount, hword'⟩ := Scalar.toWord_eq_ok_iff.mp hn
    split_ifs at h with hneg hover
    cases h
    exact ⟨hitem, hcount, hword, hword', by omega, fun hpos => by omega⟩
  · rintro ⟨hitem, hcount, hword, hword', hnonneg, hbound⟩
    have hover : ¬(0 < n ∧ maxWord < s.streamLength + n) := by
      rintro ⟨hpos, hlt⟩
      have := hbound hpos
      omega
    rw [accept_of_words (Scalar.toWord_eq_ok_iff.mpr ⟨hitem, hword⟩)
      (Scalar.toWord_eq_ok_iff.mpr ⟨hcount, hword'⟩), if_neg (by omega), if_neg hover]

/-- **An accepted update is a step; a refused one changes nothing.** -/
theorem update_cases (src : DrawSource) (h : s.Sound) (item count : Scalar) :
    (∃ e, s.accept item count = .error e ∧ s.update src item count = .fail s e) ∨
      ∃ i n t events, s.accept item count = .ok (i, n) ∧ s.update src item count = ⟨t, events, none⟩ ∧
        Step s (i, n) t events := by
  rw [update]
  cases haccept : s.accept item count with
  | error e => exact .inl ⟨e, rfl, rfl⟩
  | ok a =>
    obtain ⟨i, n⟩ := a
    obtain ⟨-, -, hword, -, hnonneg, hbound⟩ := accept_eq_ok_iff.mp haccept
    refine .inr ⟨i, n, ?_⟩
    rcases hnonneg.eq_or_lt with rfl | hpos
    · exact ⟨s, [], rfl, if_pos rfl, .idle i⟩
    · obtain ⟨table, hput, hholds⟩ := h.exists_put i n
      obtain ⟨hshaped, hactive⟩ := h.withCount hpos hholds
      obtain ⟨t, events, hmade, room⟩ := makeRoom_cases src hshaped hactive
      refine ⟨t, events, rfl, ?_, .counted hword hpos (hbound hpos) hholds room⟩
      simp only [hpos.ne', if_false, insert_eq, hput]
      exact hmade

/-! ### Series of updates -/

/-- A run of accepted updates. -/
inductive Run : Sketch → Entries → Sketch → List Event → Prop
  /-- No update. -/
  | nil (s : Sketch) : Run s [] s []
  /-- One update before the others. -/
  | cons {s t u : Sketch} {e : ℤ × ℤ} {es : Entries} {events events' : List Event}
      (step : Step s e t events) (rest : Run t es u events') : Run s (e :: es) u (events ++ events')

theorem Run.sound {es : Entries} {events : List Event} (h : s.Sound) (hr : Run s es t events) : t.Sound := by
  induction hr with
  | nil => exact h
  | cons step _ ih => exact ih (step.sound h)

/-- How a series of updates ends: all have been counted, or the next one is refused. -/
inductive Ends (src : DrawSource) (s : Sketch) (pairs : List (Scalar × Scalar)) : Outcome Sketch → Prop
  /-- All are counted. -/
  | all (es : Entries) {t : Sketch} {events : List Event}
      (hpairs : Entries.ofPairs? pairs = some es) (run : Run s es t events) :
      Ends src s pairs ⟨t, events, none⟩
  /-- The next is refused. -/
  | refused {es : Entries} {t : Sketch} {events : List Event} {item count : Scalar} {e : Error}
      (run : Run s es t events) (herror : t.accept item count = .error e) :
      Ends src s pairs ⟨t, events, some e⟩

/-- **A series of updates is a run up to the first refusal.** -/
theorem updateAll_cases (src : DrawSource) (h : s.Sound) (pairs : List (Scalar × Scalar)) :
    Ends src s pairs (s.updateAll src pairs) := by
  induction pairs generalizing s with
  | nil => exact .all [] rfl (.nil s)
  | cons p pairs ih =>
    rw [updateAll, Outcome.each_cons]
    rcases update_cases src h p.1 p.2 with ⟨e, herror, hfail⟩ | ⟨i, n, t, events, haccept, hok, step⟩
    · simp only [hfail, Outcome.andThen_fail]
      exact .refused (.nil s) herror
    · obtain ⟨hi, hn, -⟩ := accept_eq_ok_iff.mp haccept
      simp only [hok, Outcome.andThen]
      have hrest := ih (step.sound h)
      rw [updateAll] at hrest
      generalize Outcome.each _ pairs t = o at hrest ⊢
      cases hrest with
      | all es hpairs run => exact .all ((i, n) :: es) (Entries.ofPairs?_cons hi hn hpairs) (.cons step run)
      | refused run herror => exact .refused (.cons step run) herror

/-- What is an integer as an index is counted as this integer. -/
theorem update_of_index? (src : DrawSource) (s : Sketch) {item count : Scalar} {i n : ℤ}
    (hi : item.index? = some i) (hn : count.index? = some n) :
    s.update src item count = s.update src (.int i) (.int n) := by
  have htoWord : ∀ (name : String) (value : Scalar) (m : ℤ), value.index? = some m →
      value.toWord name = (Scalar.int m).toWord name := by
    intro name value m hm
    simp only [Scalar.toWord, hm, Scalar.index?_int]
  rw [update, update, accept, accept, htoWord _ _ _ hi, htoWord _ _ _ hn]

/-- Counting one item. -/
theorem update_eq (src : DrawSource) (s : Sketch) (item count : Scalar) :
    s.update src item count = s.updateAll src [(item, count)] := by
  rw [updateAll, Outcome.each_singleton]

/-- Counting items once each. -/
theorem extend_eq (src : DrawSource) (s : Sketch) (items : List Scalar) :
    s.extend src items = s.updateAll src (items.map fun item => (item, .int 1)) := by
  induction items generalizing s with
  | nil => rfl
  | cons item items ih =>
    rw [extend, Outcome.each_cons, updateAll, List.map_cons, Outcome.each_cons]
    exact congrArg _ (funext ih)

/-- **Integers are counted up to the first that is refused.** -/
theorem replay_cases (src : DrawSource) (h : s.Sound) (es : Entries) :
    (∃ t events, s.replay src es = ⟨t, events, none⟩ ∧ Run s es t events) ∨
      ∃ before e after t events error, es = before ++ e :: after ∧
        s.replay src es = ⟨t, events, some error⟩ ∧ Run s before t events ∧
          t.accept (.int e.1) (.int e.2) = .error error := by
  induction es generalizing s with
  | nil => exact .inl ⟨s, [], rfl, .nil s⟩
  | cons e es ih =>
    rw [replay, Outcome.each_cons]
    rcases update_cases src h (.int e.1) (.int e.2) with
      ⟨error, herror, hfail⟩ | ⟨i, n, t, events, haccept, hok, step⟩
    · refine .inr ⟨[], e, es, s, [], error, rfl, ?_, .nil s, herror⟩
      rw [hfail]
      rfl
    · obtain ⟨hi, hn, -⟩ := accept_eq_ok_iff.mp haccept
      cases hi
      cases hn
      rw [hok]
      rcases ih (step.sound h) with ⟨u, events', hreplay, run⟩ |
        ⟨before, f, after, u, events', error, rfl, hreplay, run, herror⟩
      · refine .inl ⟨u, events ++ events', ?_, .cons step run⟩
        rw [replay] at hreplay
        simp only [Outcome.andThen, hreplay]
      · refine .inr ⟨e :: before, f, after, u, events ++ events', error, rfl, ?_, .cons step run, herror⟩
        rw [replay] at hreplay
        simp only [Outcome.andThen, hreplay]

/-- A series of integers that was counted to the end is a run. -/
theorem exists_run_of_replay {src : DrawSource} {es : Entries} (h : s.Sound)
    (hok : (s.replay src es).failure = none) :
    ∃ t events, s.replay src es = ⟨t, events, none⟩ ∧ Run s es t events := by
  rcases replay_cases src h es with hrun | ⟨_, _, _, t, events, error, _, hreplay, _⟩
  · exact hrun
  · rw [hreplay] at hok
    cases hok

/-- An update that succeeds is a run of one step. -/
theorem exists_run_of_update {src : DrawSource} {item count : ℤ} (h : s.Sound)
    (hok : (s.update src (.int item) (.int count)).failure = none) :
    ∃ t events, s.update src (.int item) (.int count) = ⟨t, events, none⟩ ∧
      Run s [(item, count)] t events := by
  have hreplay : s.update src (.int item) (.int count) = s.replay src [(item, count)] := by
    rw [replay, Outcome.each_singleton]
  rw [hreplay] at hok ⊢
  exact exists_run_of_replay h hok

/-- Counting items once each to the end is a run. -/
theorem exists_run_of_extend {src : DrawSource} {items : List ℤ} (h : s.Sound)
    (hok : (s.extend src (items.map .int)).failure = none) :
    ∃ t events, s.extend src (items.map .int) = ⟨t, events, none⟩ ∧
      Run s (items.map fun item => (item, 1)) t events := by
  have hreplay : s.extend src (items.map .int) = s.replay src (items.map fun item => (item, 1)) := by
    rw [extend_eq, ← updateAll_int, List.map_map, List.map_map]
    rfl
  rw [hreplay] at hok ⊢
  exact exists_run_of_replay h hok

end Sketch

end HeavyHitters
