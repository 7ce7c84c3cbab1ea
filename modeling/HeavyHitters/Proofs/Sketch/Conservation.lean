import HeavyHitters.Proofs.Sketch.Bounds
import HeavyHitters.Proofs.Sketch.Merging

/-!
# What a merge conserves

A merge counts the counters of the other sketch anew. This is a run like any other: it adds counts to
the stream length, and whenever it has to purge, the offset grows by the median that is subtracted. Then
the stream length is set to the sum of both, and the offset of the other sketch is added. So the sum of
the stream lengths is conserved, and the offset is that of both sketches and what the run has subtracted
on the way.

Between genuine sketches nothing can stop the run. Its counters add up to no more than the stream length
of their sketch, so where the stream lengths fit together every counter fits, too. And as a call that
fails leaves a genuine sketch behind, this is so after any calls, successful or not.

## What is proved

* `Run.offset_eq`, `Run.seed_eq`: what a run adds to the offset, and that it keeps the seed.
* `Genuine.call`: every call leaves a genuine sketch behind, also one that fails.
* `merge_conserves`: what a merge of genuine sketches conserves, and when it is refused.
-/

namespace HeavyHitters

/-- The amount that an event has subtracted from the counters. -/
def Event.subtracted : Event → ℤ
  | grew _ _ => 0
  | purged _ _ _ median => median

/-- The sum of the medians that were subtracted by the purges among some events. -/
def subtracted (events : List Event) : ℤ := (events.map Event.subtracted).sum

@[simp] theorem subtracted_nil : subtracted [] = 0 := rfl

@[simp] theorem subtracted_singleton (event : Event) : subtracted [event] = event.subtracted :=
  List.sum_singleton

@[simp] theorem subtracted_append (events events' : List Event) :
    subtracted (events ++ events') = subtracted events + subtracted events' := by
  rw [subtracted, List.map_append, List.sum_append, subtracted, subtracted]

namespace Sketch

variable {s t other : Sketch} {hist hist' : History}

/-! ### The offset and the seed in a run -/

theorem Room.offset_eq {events : List Event} (hr : Room s t events) :
    t.offset = s.offset + subtracted events := by
  cases hr with
  | enough => simp
  | grown => simp [Event.subtracted]
  | purged => simp [Event.subtracted]

theorem Room.seed_eq {events : List Event} (hr : Room s t events) : t.seed = s.seed := by
  cases hr <;> rfl

theorem Step.offset_eq {e : ℤ × ℤ} {events : List Event} (hs : Step s e t events) :
    t.offset = s.offset + subtracted events := by
  cases hs with
  | idle => simp
  | counted _ _ _ _ room => exact room.offset_eq

theorem Step.seed_eq {e : ℤ × ℤ} {events : List Event} (hs : Step s e t events) : t.seed = s.seed := by
  cases hs with
  | idle => rfl
  | counted _ _ _ _ room => exact room.seed_eq

/-- **What a run adds to the offset** are the medians that its purges subtract. -/
theorem Run.offset_eq {es : Entries} {events : List Event} (hr : Run s es t events) :
    t.offset = s.offset + subtracted events := by
  induction hr with
  | nil => simp
  | cons step _ ih => rw [ih, step.offset_eq, subtracted_append, add_assoc]

/-- A run keeps the seed. -/
theorem Run.seed_eq {es : Entries} {events : List Event} (hr : Run s es t events) : t.seed = s.seed := by
  induction hr with
  | nil => rfl
  | cons step _ ih => exact ih.trans step.seed_eq

/-! ### Merges of genuine sketches -/

theorem Accounted.numbered (h : Accounted s hist) : s.Numbered :=
  ⟨h.offset_nonneg, h.streamLength_nonneg, h.words⟩

/-- An update that is refused changes nothing. -/
private theorem Genuine.update_call (h : Genuine s hist) (src : DrawSource) (item count : Scalar) :
    ∃ hist', Genuine (s.update src item count).state hist' := by
  rcases update_cases src h.accounted.sound item count with
    ⟨_, _, hfail⟩ | ⟨i, n, t, events, haccept, hok, -⟩
  · rw [hfail]
    exact ⟨hist, h⟩
  · obtain ⟨hi, hn, -⟩ := accept_eq_ok_iff.mp haccept
    rw [update_of_index? src s hi hn] at hok ⊢
    exact ⟨_, .update src i n h (by rw [hok])⟩

/-- Items that are counted up to one that is refused stay counted. -/
private theorem Genuine.extend_call (h : Genuine s hist) (src : DrawSource) (items : List Scalar) :
    ∃ hist', Genuine (s.extend src items).state hist' := by
  induction items generalizing s hist with
  | nil => exact ⟨hist, h⟩
  | cons item items ih =>
    obtain ⟨hist', hupdated⟩ := h.update_call src item (.int 1)
    rw [Sketch.extend, Outcome.each_cons]
    generalize s.update src item (.int 1) = o at hupdated
    obtain ⟨t, events, failure⟩ := o
    cases failure with
    | none => exact ih hupdated
    | some e => exact ⟨hist', hupdated⟩

/-- No merge of a genuine sketch is torn. -/
private theorem Accounted.not_torn (h : Accounted other hist) : ¬ Torn s other := by
  intro htorn
  have hchecked := htorn.checked
  have hbroken := htorn.broken
  have htotal := h.total_le
  omega

/-- A merge that fails changes nothing. -/
private theorem Genuine.merge_call (h : Genuine s hist) (hother : Genuine other hist') (src : DrawSource) :
    ∃ hist'', Genuine (s.merge src other).state hist'' := by
  by_cases hok : (s.merge src other).failure = none
  · exact ⟨_, .merge src h hother hok⟩
  · have hself := h.accounted
    have hothers := hother.accounted
    have hsame : (s.merge src other).state = s :=
      ((merge_ends src hself.sound other).state_eq_iff hself.sound hself.numbered hothers.sound
        hothers.numbered hok).mpr hothers.not_torn
    rw [hsame]
    exact ⟨hist, h⟩

/-- **Every call on a genuine sketch leaves a genuine one behind**, also a call that fails half way. -/
theorem Genuine.call (h : Genuine s hist) (src : DrawSource) (c : Call)
    (hother : ∀ other, c = .merge (.sketch other) → ∃ hist', Genuine other hist') :
    ∃ hist', Genuine (c.run src s).state hist' := by
  cases c with
  | update item count => exact h.update_call src item count
  | extend items => exact h.extend_call src items
  | merge operand =>
    cases operand with
    | nothing => exact ⟨hist, h⟩
    | sketch other =>
      obtain ⟨hist', hother'⟩ := hother other rfl
      exact h.merge_call hother' src
    | foreign => exact ⟨hist, h⟩

/-! ### What is conserved -/

/-- What a merge of `other` into `s` has conserved in its outcome. -/
structure Conserves (s other : Sketch) (o : Outcome Sketch) : Prop where
  /-- It has succeeded. -/
  failure_eq : o.failure = none
  /-- Every counter that the other sketch had before was counted, none was refused, and then the totals
  of the other sketch were added. -/
  replayed : ∃ u, Run s other.counters u o.events ∧ o.state = u.withTotals s other
  /-- The stream length is the sum of both. -/
  streamLength_eq : o.state.streamLength = s.streamLength + other.streamLength
  /-- The offset is the sum of both, and of what was subtracted on the way. -/
  offset_eq : o.state.offset = s.offset + other.offset + subtracted o.events
  /-- So it is no less than the sum of both. -/
  offset_le : s.offset + other.offset ≤ o.state.offset
  /-- The greatest length stays. -/
  lgMax_eq : o.state.lgMax = s.lgMax
  /-- The seed stays. -/
  seed_eq : o.state.seed = s.seed

/-- A run of all counters of the other sketch conserves, once the totals are added. -/
private theorem Run.conserves {u : Sketch} {events : List Event} (h : s.Sound)
    (run : Run s other.counters u events) : Conserves s other ⟨u.withTotals s other, events, none⟩ := by
  have hdrift := run.drift h
  have hoffset := run.offset_eq
  have hle := hdrift.offset_le
  refine ⟨rfl, ⟨u, run, rfl⟩, rfl, ?_, ?_, hdrift.lgMax_eq, run.seed_eq⟩
  · change u.offset + other.offset = s.offset + other.offset + subtracted events
    omega
  · change s.offset + other.offset ≤ u.offset + other.offset
    omega

/-- An empty sketch that is accounted for has no totals to be added. -/
private theorem Accounted.withTotals_empty (h : Accounted s hist) (hother : Accounted other hist')
    (hempty : other.streamLength = 0) : s.withTotals s other = s := by
  have hoffset : other.offset = 0 := le_antisymm (hother.offset_le.trans hempty.le) hother.offset_nonneg
  rw [withTotals, hoffset, hempty, add_zero, add_zero, ← h.truths_eq]

/-- **What a merge of genuine sketches conserves**, whatever their lengths and seeds, whatever is drawn,
and also if a sketch is merged into itself: if the stream lengths fit together it succeeds and conserves
their sum, and otherwise it is refused and changes nothing. -/
theorem merge_conserves (h : Genuine s hist) (hother : Genuine other hist') (src : DrawSource) :
    (s.streamLength + other.streamLength ≤ maxWord → Conserves s other (s.merge src other)) ∧
      (maxWord < s.streamLength + other.streamLength →
        s.merge src other = .fail s .mergedOverflow ∧ Error.mergedOverflow.kind = .value) := by
  have hself := h.accounted
  have hothers := hother.accounted
  have hends := merge_ends src hself.sound other
  have hfails := hends.failure_iff hself.sound hself.numbered hothers.sound hothers.numbered
  generalize s.merge src other = o at hends hfails ⊢
  cases hends with
  | idle hempty =>
    have hzero : other.streamLength = 0 := of_decide_eq_true hempty
    have hsame := hself.withTotals_empty hothers hzero
    have run : Run s other.counters s [] := hothers.counters_eq_nil hzero ▸ .nil s
    have hconserves := run.conserves hself.sound
    rw [hsame] at hconserves
    have hbounded := hself.bounded
    exact ⟨fun _ => hconserves, fun hover => by omega⟩
  | refused _ hover => exact ⟨fun hbound => absurd hover (not_lt.mpr hbound), fun _ => ⟨rfl, rfl⟩⟩
  | stopped _ hbound =>
    -- the counters fit together, as they add up to no more than the stream length
    have htotal := hothers.total_le
    obtain ⟨-, hover⟩ := hfails.mp (by simp)
    omega
  | folded _ hbound run =>
    exact ⟨fun _ => run.conserves hself.sound, fun hover => absurd hbound (not_le.mpr hover)⟩

/-- A narrow sketch of six items that are not in the crowd. -/
def visitors : Sketch := (narrow.extend leastDraws ([8, 9, 10, 11, 12, 13].map .int)).state

theorem genuine_visitors : Genuine visitors (History.none.extend [8, 9, 10, 11, 12, 13]) :=
  .extend leastDraws [8, 9, 10, 11, 12, 13] (.ofSize ofSize_eq_narrow) (by decide +kernel)

/-- While the visitors are folded into the crowded sketch one purge subtracts one. The crowd does not fit
into the brimming sketch. -/
theorem merge_conserves_visitors :
    Genuine crowded.state (History.none.extend crowd) ∧
      Genuine visitors (History.none.extend [8, 9, 10, 11, 12, 13]) ∧
      crowded.state.streamLength + visitors.streamLength ≤ maxWord ∧
      (let o := crowded.state.merge leastDraws visitors
      Conserves crowded.state visitors o ∧ o.state.streamLength = 23 ∧ crowded.state.offset = 2 ∧
        subtracted o.events = 1 ∧ o.state.offset = 3) ∧
      Genuine brimming (History.none.update 1 9223372036854775801) ∧
      maxWord < brimming.streamLength + crowded.state.streamLength ∧
      brimming.merge leastDraws crowded.state = .fail brimming .mergedOverflow := by
  have hfits : crowded.state.streamLength + visitors.streamLength ≤ maxWord := by decide +kernel
  have hover : maxWord < brimming.streamLength + crowded.state.streamLength := by decide +kernel
  have hbrimming : Genuine brimming (History.none.update 1 9223372036854775801) :=
    .update leastDraws 1 9223372036854775801 (.ofSize ofSize_eq_narrow) (by decide +kernel)
  have hconserves := (merge_conserves genuine_crowded genuine_visitors leastDraws).1 hfits
  exact ⟨genuine_crowded, genuine_visitors, hfits,
    ⟨hconserves, by decide +kernel, by decide +kernel, by decide +kernel, by decide +kernel⟩, hbrimming, hover,
    ((merge_conserves hbrimming genuine_crowded leastDraws).2 hover).1⟩

end Sketch

end HeavyHitters
