import HeavyHitters.Proofs.Sketch.Conservation

/-!
# How seldom a sketch is purged

A purge walks through the whole table, so it has to be seldom. It drops all counters that do not exceed its
median, and these are more than half of as many as it samples, also where counts repeat and where the sample
misses a part of the table. On the other hand only an update with a positive count makes a new counter, and
no more than one. So the number of counters is a potential that pays for the purges: an update adds at most
one to it, and a purge takes more than half of the sample size. Over a run this adds up, and an update that
is refused, or counts nothing, pays nothing.

## What is proved

* `Room.amortised`, `Step.amortised`: the balance of making room, and of one update.
* `Run.amortised`: the balance of a run.
* `exists_run_of_updateAll`: a series of updates is a run of those that are made before one is refused.
* `purges_amortised`: how many purges a stream of calls may cause.
-/

namespace HeavyHitters

/-- Whether an event is a purge. -/
def Event.isPurge : Event → Bool
  | grew _ _ => false
  | purged _ _ _ _ => true

/-- The number of purges among some events. -/
def purges (events : List Event) : ℕ := events.countP Event.isPurge

@[simp] theorem purges_nil : purges [] = 0 := rfl

@[simp] theorem purges_singleton (event : Event) : purges [event] = if event.isPurge then 1 else 0 :=
  List.countP_singleton

@[simp] theorem purges_append (events events' : List Event) :
    purges (events ++ events') = purges events + purges events' := List.countP_append

namespace Sketch

variable {s t : Sketch} {events events' : List Event}

/-! ### The balance of an update -/

/-- The least number of counters that a purge drops: more than half of as many as it samples. -/
def leastDropped (s : Sketch) : ℕ := s.sampleSize / 2 + 1

/-- Only the greatest length decides how many counters a purge drops at least. -/
theorem leastDropped_eq (h : t.lgMax = s.lgMax) : t.leastDropped = s.leastDropped := by
  rw [leastDropped, leastDropped, sampleSize, sampleSize, maxCapacity, maxCapacity, h]

/-- A purge pays for itself with the counters that it drops. -/
theorem Room.amortised (h : s.Shaped) (hr : Room s t events) :
    purges events * s.leastDropped + t.active ≤ s.active := by
  have hactive : s.active = s.counters.length := h.holds.active_eq
  cases hr with
  | enough => simp
  | grown table _ _ hholds =>
    have hkept : table.active = s.counters.length := hholds.active_eq
    simp only [active, purges_singleton, Event.isPurge, Bool.false_eq_true, if_false, hkept] at hactive ⊢
    omega
  | purged table median _ _ hcentral hholds =>
    have hleft : table.active = (s.counters.lessen median).length := hholds.active_eq
    have hsplit := Entries.length_lessen s.counters median
    have hdropped : s.leastDropped ≤ s.counters.values.countP (· ≤ median) := hcentral.below
    simp only [active, purges_singleton, Event.isPurge, if_true, hleft, one_mul] at hactive ⊢
    omega

/-- An update makes a counter only if its count is positive, and no more than one. -/
theorem Step.amortised {e : ℤ × ℤ} (h : s.Sound) (hs : Step s e t events) :
    purges events * s.leastDropped + t.active ≤ s.active + if 0 < e.2 then 1 else 0 := by
  cases hs with
  | idle => simp
  | @counted item count table _ _ _ positive _ holds room =>
    have hroom := room.amortised (h.withCount positive holds).1
    have hactive : s.active = s.counters.length := h.holds.active_eq
    have hadded : (s.withCount table count).active ≤ s.active + 1 := by
      have hlength := Entries.length_add s.counters item count
      have hcounted : (s.withCount table count).active = (s.counters.add item count).length := holds.active_eq
      split_ifs at hlength <;> omega
    rw [leastDropped_eq (show (s.withCount table count).lgMax = s.lgMax from rfl)] at hroom
    rw [if_pos positive]
    omega

/-- **The balance of a run**: each positive count pays for one counter, and the purges and the counters
that are left cost no more than that, and what there was before. -/
theorem Run.amortised {es : Entries} (h : s.Sound) (hr : Run s es t events) :
    purges events * s.leastDropped + t.active ≤ s.active + es.values.countP (0 < ·) := by
  induction hr with
  | nil => simp
  | @cons s t u e es events events' step _ ih =>
    have hfirst := step.amortised h
    have hrest := ih (step.sound h)
    rw [leastDropped_eq (step.course h).1] at hrest
    simp only [Entries.values, List.map_cons, List.countP_cons, decide_eq_true_eq, purges_append,
      add_mul] at hrest ⊢
    omega

/-! ### The updates that are made -/

/-- Whether a count is a positive integer as an index. -/
def isPositive (count : Scalar) : Bool := count.index?.any (0 < ·)

/-- How many of the updates of a series have a positive count and are made before one is refused. -/
def made (src : DrawSource) : Sketch → List (Scalar × Scalar) → ℕ
  | _, [] => 0
  | s, (item, count) :: pairs =>
    match s.update src item count with
    | ⟨t, _, none⟩ => (if isPositive count then 1 else 0) + t.made src pairs
    | ⟨_, _, some _⟩ => 0

/-- **A series of updates is a run of those that are made**, whether it ends with the last or is refused
half way. -/
theorem exists_run_of_updateAll (src : DrawSource) (h : s.Sound) (pairs : List (Scalar × Scalar)) :
    ∃ es, Run s es (s.updateAll src pairs).state (s.updateAll src pairs).events ∧
      es.values.countP (0 < ·) = s.made src pairs := by
  induction pairs generalizing s with
  | nil => exact ⟨[], .nil s, rfl⟩
  | cons p pairs ih =>
    obtain ⟨item, count⟩ := p
    rw [updateAll, Outcome.each_cons, made]
    rcases update_cases src h item count with ⟨e, -, hfail⟩ | ⟨i, n, t, events, haccept, hok, step⟩
    · rw [hfail]
      exact ⟨[], .nil s, rfl⟩
    · obtain ⟨es, hrun, hmade⟩ := ih (step.sound h)
      obtain ⟨-, hcount, -⟩ := accept_eq_ok_iff.mp haccept
      rw [hok]
      refine ⟨(i, n) :: es, .cons step hrun, ?_⟩
      simp only [Entries.values, List.map_cons, List.countP_cons, isPositive, hcount, Option.any_some,
        decide_eq_true_eq] at hmade ⊢
      omega

/-! ### Streams of calls -/

/-- What becomes of a fresh sketch as items are counted, the number of updates with a positive count that
were made since it was fresh, and the events since then. A call that is refused half way leaves a sketch
behind that can be used as it is. Every call draws from a source of its own. -/
inductive Streamed : Sketch → ℕ → List Event → Prop
  /-- A new sketch, of a greatest length. -/
  | ofSize {maxLength seed : Scalar} {s : Sketch} (h : ofSize maxLength seed = .ok s) : Streamed s 0 []
  /-- A new sketch, of the logarithms of two lengths. -/
  | ofLog2 {lgMax lgLength seed : Scalar} {s : Sketch} (h : ofLog2 lgMax lgLength seed = .ok s) :
      Streamed s 0 []
  /-- A sketch that is reset. -/
  | reset {s : Sketch} {n : ℕ} {events : List Event} (hs : Streamed s n events) : Streamed s.reset 0 []
  /-- An item is counted, or refused. -/
  | update {s : Sketch} {n : ℕ} {events : List Event} (src : DrawSource) (item count : Scalar)
      (hs : Streamed s n events) :
      Streamed (s.update src item count).state (n + s.made src [(item, count)])
        (events ++ (s.update src item count).events)
  /-- Items are counted once each, up to the first that is refused. -/
  | extend {s : Sketch} {n : ℕ} {events : List Event} (src : DrawSource) (items : List Scalar)
      (hs : Streamed s n events) :
      Streamed (s.extend src items).state (n + s.made src (items.map fun item => (item, .int 1)))
        (events ++ (s.extend src items).events)

/-- The purges among the events are paid for by `n` updates, and the offset is what they have subtracted. -/
structure PaidFor (s : Sketch) (n : ℕ) (events : List Event) : Prop where
  /-- The sketch is sound. -/
  sound : s.Sound
  /-- Each update pays for one counter, whether it is dropped by a purge or left. -/
  balance : purges events * s.leastDropped + s.active ≤ n
  /-- The offset is the sum of the medians. -/
  offset_eq : s.offset = subtracted events

theorem Fresh.paidFor (h : s.Fresh) : PaidFor s 0 [] where
  sound := h.sound
  balance := by
    have hactive : s.active = 0 := h.holds.active_eq
    simp [hactive]
  offset_eq := h.offset_eq

/-- A series of updates pays for the purges that it causes. -/
theorem PaidFor.updateAll {n : ℕ} (h : PaidFor s n events) (src : DrawSource) (pairs : List (Scalar × Scalar)) :
    PaidFor (s.updateAll src pairs).state (n + s.made src pairs) (events ++ (s.updateAll src pairs).events) := by
  obtain ⟨es, hrun, hmade⟩ := exists_run_of_updateAll src h.sound pairs
  rw [← hmade]
  refine ⟨hrun.sound h.sound, ?_, ?_⟩
  · have hbefore := h.balance
    have hpaid := hrun.amortised h.sound
    rw [leastDropped_eq (hrun.course h.sound).1, purges_append, add_mul]
    omega
  · rw [hrun.offset_eq, h.offset_eq, subtracted_append]

theorem Streamed.paidFor {n : ℕ} (h : Streamed s n events) : PaidFor s n events := by
  induction h with
  | ofSize h => exact (ofSize_fresh h).1.paidFor
  | ofLog2 h => exact (ofLog2_fresh h).1.paidFor
  | reset _ ih => exact (reset_fresh ih.sound).paidFor
  | update src item count _ ih =>
    rw [update_eq]
    exact ih.updateAll src _
  | extend src items _ ih =>
    rw [extend_eq]
    exact ih.updateAll src _

/-- **Purges are paid for by updates with a positive count**, whatever is counted, refused and drawn: each
purge takes as many of them as it drops counters at least, and each counter that is left takes one. The
offset is the sum of the medians that the purges have subtracted. -/
theorem purges_amortised {n : ℕ} (h : Streamed s n events) :
    purges events * (min 256 (3 * powerOfTwo s.lgMax / 4) / 2 + 1) + s.active ≤ n ∧
      s.offset = subtracted events :=
  ⟨h.paidFor.balance, h.paidFor.offset_eq⟩

/-- A narrow sketch in which three items were counted five times each. -/
def laden : Sketch :=
  (((narrow.update leastDraws (.int 1) (.int 5)).state.update leastDraws (.int 2) (.int 5)).state.update
    leastDraws (.int 8) (.int 5)).state

/-- Four more items are counted, then a truth value is refused, and the last item is never looked at. -/
def halfway : Outcome Sketch :=
  laden.extend leastDraws [.int 3, .int 4, .int 5, .int 6, .bool true, .int 7]

theorem streamed_halfway : Streamed halfway.state 7 halfway.events := by
  have hladen : Streamed laden _ _ := .update leastDraws (.int 8) (.int 5)
    (.update leastDraws (.int 2) (.int 5) (.update leastDraws (.int 1) (.int 5) (.ofSize ofSize_eq_narrow)))
  have hhalfway : Streamed halfway.state _ _ := .extend leastDraws _ hladen
  convert hhalfway using 1
  · decide +kernel
  · decide +kernel

/-- Seven updates pay for a purge that drops four counters and for the three that are left: none is to
spare. -/
theorem purges_amortised_halfway :
    Streamed halfway.state 7 halfway.events ∧
      halfway.failure = some (.notInteger "item" (.bool true)) ∧
      halfway.events = [.purged 19 4 7 1] ∧ purges halfway.events = 1 ∧
      min 256 (3 * powerOfTwo halfway.state.lgMax / 4) / 2 + 1 = 4 ∧ halfway.state.active = 3 ∧
      purges halfway.events * (min 256 (3 * powerOfTwo halfway.state.lgMax / 4) / 2 + 1) +
        halfway.state.active ≤ 7 ∧ halfway.state.offset = subtracted halfway.events ∧
      subtracted halfway.events = 1 := by
  obtain ⟨hpaid, hoffset⟩ := purges_amortised streamed_halfway
  exact ⟨streamed_halfway, by decide +kernel, by decide +kernel, by decide +kernel, by decide +kernel,
    by decide +kernel, hpaid, hoffset, by decide +kernel⟩

end Sketch

end HeavyHitters
