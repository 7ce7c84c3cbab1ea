import HeavyHitters.Proofs.Sketch.Capacity
import HeavyHitters.Proofs.Sketch.Drift
import HeavyHitters.Proofs.Sketch.Lossless

/-!
# What calls keep

A call ends in one of few ways, and a merge in one of four (`Merged`): there is nothing to fold in, it
is refused at once, it stops at a counter that is refused, or it is done. So a property that every
update keeps, and that new totals after a merge keep, is kept by every call, also by one that fails
half way (`Kept`).

The first use of this is for the little that can be said of the numbers of any sketch, wherever it was
loaded from: no total is negative, and all items are 64-bit integers. The totals need not be, because a
record or a line may hold any.

## What is proved

* `merge_ends`, `ofRecord_loaded`: how a merge ends, and what loading consists of.
* `Kept.call`: a call keeps what updates and merges keep.
* `Reachable.numbered`: no total of a reachable sketch is negative, and its items are 64-bit integers.
-/

namespace HeavyHitters

/-- A total that is not below zero is not negative. -/
theorem Total.nonneg_of_isBelow {total : Total} (h : total.toScalar.isBelow (.int 0) = .ok false) :
    0 ≤ total.value := by
  cases total with
  | int n => simpa [toScalar, value] using h
  | truth b => cases b <;> decide

namespace Sketch

variable {s t u other : Sketch} {P : Sketch → Prop} {src : DrawSource}

/-! ### How a merge ends -/

/-- A sketch that the counters of another one have been counted in, with the totals of both. -/
def withTotals (u s other : Sketch) : Sketch :=
  { u with
    offset := u.offset + other.offset
    streamLength := s.streamLength + other.streamLength
    truths := .none }

/-- How a merge ends. -/
inductive Merged (s other : Sketch) : Outcome Sketch → Prop
  /-- There is nothing to fold in. -/
  | idle (hempty : other.isEmpty = true) : Merged s other (.ok s)
  /-- The stream lengths are too great together. -/
  | refused (hempty : other.isEmpty = false) (hover : maxWord < s.streamLength + other.streamLength) :
      Merged s other (.fail s .mergedOverflow)
  /-- One of the counters is refused. -/
  | stopped {before after : Entries} {e : ℤ × ℤ} {t : Sketch} {events : List Event} {error : Error}
      (hempty : other.isEmpty = false) (hbound : s.streamLength + other.streamLength ≤ maxWord)
      (hcounters : other.counters = before ++ e :: after) (run : Run s before t events)
      (herror : t.accept (.int e.1) (.int e.2) = .error error) : Merged s other ⟨t, events, some error⟩
  /-- All counters are counted. -/
  | folded {u : Sketch} {events : List Event} (hempty : other.isEmpty = false)
      (hbound : s.streamLength + other.streamLength ≤ maxWord) (run : Run s other.counters u events) :
      Merged s other ⟨u.withTotals s other, events, none⟩

/-- **How a merge ends**, whatever is merged. -/
theorem merge_ends (src : DrawSource) (h : s.Sound) (other : Sketch) :
    Merged s other (s.merge src other) := by
  rw [merge]
  split_ifs with hempty
  · exact .idle hempty
  · have hfull : other.isEmpty = false := by simpa using hempty
    dsimp only
    split_ifs with hover
    · exact .refused hfull hover
    · have hbound := not_lt.mp hover
      rcases replay_cases src h other.counters with ⟨u, events, hreplay, run⟩ |
        ⟨before, e, after, t, events, error, hcounters, hreplay, run, herror⟩
      · have hfolded := Merged.folded hfull hbound run
        rw [hreplay]
        simpa [Outcome.andThen, Outcome.ok, withTotals] using hfolded
      · rw [hreplay]
        exact .stopped hfull hbound hcounters run herror

/-! ### What loading consists of -/

/-- What is loaded from a record: its entries are a run in a fresh sketch, and its totals, which are not
negative, are recorded. -/
inductive Loaded (r : Snapshot.Record) : Sketch → Prop
  /-- The run, and the totals. -/
  | intro {fresh u : Sketch} {es : Entries} {events : List Event} {lgMax : ℤ}
      (hfresh : Fresh fresh) (hlgMax : r.lgMax.toInteger = .ok lgMax) (hmax : fresh.lgMax = lgMax.toNat)
      (hentries : Entries.ofPairs? r.entries = some es) (run : Run fresh es u events)
      (offset_nonneg : 0 ≤ r.offset.value) (streamLength_nonneg : 0 ≤ r.streamLength.value) :
      Loaded r (restore r u)

/-- A draft whose totals can be compared with zero has passed these comparisons. -/
private theorem prepare_nonneg {d : Snapshot.Draft} {seed : Scalar} (h : prepare d seed = .ok s) :
    d.offset.isBelow (.int 0) = .ok false ∧ d.streamLength.isBelow (.int 0) = .ok false := by
  obtain ⟨negative, hoffset, h⟩ := bind_eq_ok.mp h
  cases negative with
  | true => cases h
  | false =>
  obtain ⟨negative, hstreamLength, h⟩ := bind_eq_ok.mp h
  cases negative with
  | true => cases h
  | false => exact ⟨hoffset, hstreamLength⟩

/-- **What loading a record consists of.** -/
theorem ofRecord_loaded {r : Snapshot.Record} {seed : Scalar}
    (hload : (ofRecord src r seed).result = .ok t) : Loaded r t := by
  rw [ofRecord, recount] at hload
  cases hprepare : prepare r.toDraft seed with
  | error e =>
    rw [hprepare] at hload
    cases hload
  | ok fresh =>
    obtain ⟨hfresh, m, hm, hmax⟩ := prepare_fresh hprepare
    obtain ⟨hoffset, hstreamLength⟩ := prepare_nonneg hprepare
    have hends := updateAll_cases src hfresh.sound r.entries
    rw [hprepare] at hload
    dsimp only [Snapshot.Record.toDraft] at hload
    generalize fresh.updateAll src r.entries = o at hload hends
    cases hends with
    | refused => cases hload
    | all es hentries run =>
      cases hload
      exact .intro hfresh hm hmax hentries run (Total.nonneg_of_isBelow hoffset)
        (Total.nonneg_of_isBelow hstreamLength)

/-- What is decoded is loaded as the record that it is. -/
private theorem ofDecoded_loaded (x : Except Corruption Snapshot) (hload : (ofDecoded src x).result = .ok t) :
    ∃ r ∈ x.toOption.map Snapshot.toRecord, Loaded r t := by
  cases x with
  | error c => cases hload
  | ok p => exact ⟨p.toRecord, rfl, ofRecord_loaded hload⟩

/-- The record that a sketch is loaded from, if that can be decoded. -/
def Origin.record? : Origin → Option Snapshot.Record
  | .record r _ => some r
  | .bytes bs => (Snapshot.ofBytes bs).toOption.map Snapshot.toRecord
  | .line text => (Snapshot.ofLine .usual text).toOption.map Snapshot.toRecord

/-- Whatever a sketch is loaded from, it is loaded from the record of that. -/
theorem Origin.exists_loaded {origin : Origin} (hload : (origin.load src).result = .ok t) :
    ∃ r ∈ origin.record?, Loaded r t := by
  cases origin with
  | record r seed =>
    rw [Origin.load] at hload
    exact ⟨r, rfl, ofRecord_loaded hload⟩
  | bytes bs =>
    rw [Origin.load, ofBytes] at hload
    rw [record?]
    exact ofDecoded_loaded _ hload
  | line text =>
    rw [Origin.load, ofLine] at hload
    rw [record?]
    exact ofDecoded_loaded _ hload

/-! ### What calls keep -/

/-- A property of sound sketches that updates keep, and that a merge keeps once the totals are added. -/
structure Kept (P : Sketch → Prop) : Prop where
  /-- An update keeps it. -/
  step : ∀ {s t : Sketch} {e : ℤ × ℤ} {events : List Event}, s.Sound → P s → Step s e t events → P t
  /-- So does what is folded in, if it has it, too. -/
  withTotals : ∀ {s other u : Sketch} {events : List Event}, s.Sound → P s → other.Sound → P other →
    Run s other.counters u events → s.streamLength + other.streamLength ≤ maxWord →
      P (u.withTotals s other)

namespace Kept

theorem run {es : Entries} {events : List Event} (hP : Kept P) (h : s.Sound) (hs : P s)
    (hr : Run s es t events) : P t := by
  induction hr with
  | nil => exact hs
  | cons step _ ih => exact ih (step.sound h) (hP.step h hs step)

/-- A series of updates keeps it, up to where it ends. -/
theorem of_ends {pairs : List (Scalar × Scalar)} {o : Outcome Sketch} (hP : Kept P) (h : s.Sound)
    (hs : P s) (hends : Ends src s pairs o) : P o.state := by
  cases hends with
  | all _ _ run => exact hP.run h hs run
  | refused run _ => exact hP.run h hs run

/-- A merge keeps it. -/
theorem merge (hP : Kept P) (src : DrawSource) (h : s.Sound) (hs : P s) (hother : other.Sound)
    (hPother : P other) : P (s.merge src other).state := by
  have hends := merge_ends src h other
  generalize s.merge src other = o at hends ⊢
  cases hends with
  | idle => exact hs
  | refused => exact hs
  | stopped _ _ _ run => exact hP.run h hs run
  | folded _ hbound run => exact hP.withTotals h hs hother hPother run hbound

/-- **A call keeps what updates and merges keep**, also if it fails half way. -/
theorem call (hP : Kept P) (src : DrawSource) (h : s.Sound) (hs : P s) (c : Call)
    (hother : ∀ other, c = .merge (.sketch other) → other.Sound ∧ P other) : P (c.run src s).state := by
  cases c with
  | update item count =>
    rw [Call.run, update_eq]
    exact hP.of_ends h hs (updateAll_cases src h _)
  | extend items =>
    rw [Call.run, extend_eq]
    exact hP.of_ends h hs (updateAll_cases src h _)
  | merge operand =>
    cases operand with
    | nothing => exact hs
    | sketch other =>
      obtain ⟨hsound, hPother⟩ := hother other rfl
      exact hP.merge src h hs hsound hPother
    | foreign => exact hs

end Kept

/-! ### The numbers of any sketch -/

/-- What holds of the numbers of every sketch, however it came about. -/
structure Numbered (s : Sketch) : Prop where
  /-- The offset is not negative. -/
  offset_nonneg : 0 ≤ s.offset
  /-- Nor is the stream length. -/
  streamLength_nonneg : 0 ≤ s.streamLength
  /-- All items are 64-bit integers. -/
  words : ∀ x ∈ s.counters.keys, IsWord x

theorem Fresh.numbered (h : s.Fresh) : s.Numbered where
  offset_nonneg := h.offset_eq.ge
  streamLength_nonneg := h.streamLength_eq.ge
  words x hx := by
    rw [h.counters_eq] at hx
    cases hx

/-- The counters of a sound sketch add up to what is not negative. -/
theorem Shaped.total_nonneg (h : s.Shaped) : 0 ≤ s.counters.total :=
  List.sum_nonneg fun n hn => (h.positive n hn).le

/-- A single count is at most the sum of all. -/
theorem Shaped.le_total (h : s.Shaped) {n : ℤ} (hn : n ∈ s.counters.values) : n ≤ s.counters.total :=
  List.single_le_sum (fun m hm => (h.positive m hm).le) n hn

theorem numbered_kept : Kept Numbered where
  step h hs step := by
    have hdrift := step.drift h
    refine ⟨hs.offset_nonneg.trans hdrift.offset_le, ?_, hdrift.words hs.words⟩
    rw [hdrift.streamLength_eq]
    exact add_nonneg hs.streamLength_nonneg step.nonneg
  withTotals h hs _ hother run _ := by
    have hdrift := run.drift h
    exact ⟨add_nonneg (hs.offset_nonneg.trans hdrift.offset_le) hother.offset_nonneg,
      add_nonneg hs.streamLength_nonneg hother.streamLength_nonneg, hdrift.words hs.words⟩

theorem Loaded.numbered {r : Snapshot.Record} (h : Loaded r t) : t.Numbered := by
  cases h with
  | intro hfresh _ _ _ run hoffset hstreamLength =>
    have hcounted := numbered_kept.run hfresh.sound hfresh.numbered run
    exact ⟨add_nonneg hcounted.offset_nonneg hoffset, hstreamLength, hcounted.words⟩

/-- **The numbers of a reachable sketch**: no total is negative, and the items are 64-bit integers. -/
theorem Reachable.numbered (h : Reachable s) : s.Numbered := by
  induction h with
  | ofSize h => exact (ofSize_fresh h).1.numbered
  | ofLog2 h => exact (ofLog2_fresh h).1.numbered
  | load h =>
    obtain ⟨r, -, hloaded⟩ := Origin.exists_loaded h
    exact hloaded.numbered
  | call src c h hother ih ihother =>
    exact numbered_kept.call src h.sound ih c fun other hc => ⟨(hother other hc).sound, ihother other hc⟩
  | reset h => exact (reset_fresh h.sound).numbered

end Sketch

end HeavyHitters
