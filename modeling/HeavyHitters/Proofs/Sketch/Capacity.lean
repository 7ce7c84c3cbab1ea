import HeavyHitters.Proofs.Refusals
import HeavyHitters.Proofs.Sketch.Construction

/-!
# Capacity and growth

A sketch stays within its limits, whatever is done with it: it notes the capacity of its table,
holds no more counters than that, and its table has a length in range. The table grows by doubling
until it has the greatest length, and only then is it purged, each time when it holds one counter
too many. So the events of an operation can be read as the way that the length of the table takes
(`Course`), and a sketch never breaks down.

What can be done with a sketch are the calls that change it (`Call`), a reset, and loading one from
a record, from bytes or from a line (`Origin`). A call may fail half way, and the sketch can be used
after that as it is; so the states that a failed call leaves behind count as reachable, too.

## What is proved

* `Call.run_orderly`: a call keeps a sketch sound, keeps to the course, and does not break down.
* `Origin.load_orderly`: neither does loading a sketch from anywhere.
* `within_limits`: all this for every reachable sketch, and for the way it takes.
-/

namespace HeavyHitters.Sketch

variable {s t u : Sketch}

/-! ### The course of a table -/

/-- The way from a table of `2 ^ lg` slots to one of `2 ^ lg'`, as the events tell it: it doubles its
length while that is less than the greatest, and is purged at the greatest length, when it holds one
counter more than it may. A purge drops some counter. -/
inductive Course (lgMax : ℕ) : (lg : ℕ) → List Event → (lg' : ℕ) → Prop
  /-- Nothing happens. -/
  | stay (lg : ℕ) : Course lgMax lg [] lg
  /-- The length is doubled. -/
  | grew {lg lg' : ℕ} {events : List Event} (hlg : lg < lgMax) (rest : Course lgMax (lg + 1) events lg') :
      Course lgMax lg
        (.grew (powerOfTwo (lg + 1)) (loadLimit (powerOfTwo (lg + 1))) :: events) lg'
  /-- The table is purged. -/
  | purged {lg' dropped : ℕ} {total median : ℤ} {events : List Event} (hdropped : 0 < dropped)
      (rest : Course lgMax lgMax events lg') :
      Course lgMax lgMax
        (.purged total dropped (loadLimit (powerOfTwo lgMax) + 1) median :: events) lg'

namespace Course

variable {lgMax a b c : ℕ} {events events' : List Event}

theorem append (h : Course lgMax a events b) (h' : Course lgMax b events' c) :
    Course lgMax a (events ++ events') c := by
  induction h with
  | stay => exact h'
  | grew hlg _ ih => exact .grew hlg (ih h')
  | purged hdropped _ ih => exact .purged hdropped (ih h')

/-- The table never becomes shorter. -/
theorem le (h : Course lgMax a events b) : a ≤ b := by
  induction h with
  | stay => exact le_rfl
  | grew _ _ ih => omega
  | purged _ _ ih => exact ih

end Course

theorem Room.course {events : List Event} (h : s.Shaped) (hr : Room s t events) :
    t.lgMax = s.lgMax ∧ Course s.lgMax s.table.lgLength events t.table.lgLength := by
  cases hr with
  | enough henough => exact ⟨rfl, .stay _⟩
  | grown table hlg hfull hholds =>
    refine ⟨rfl, ?_⟩
    simp only [Table.capacity, hholds.length_eq, hholds.lgLength_eq]
    exact .grew hlg (.stay _)
  | purged table median hlg hfull hcentral hholds =>
    refine ⟨rfl, ?_⟩
    have hdropped : 0 < s.active - table.active := by
      have hlt := length_lessen_lt hcentral
      have hactive : s.active = s.counters.length := h.holds.active_eq
      rw [hholds.active_eq]
      omega
    rw [hlg] at hholds
    simp only [hholds.lgLength_eq, hlg, hfull, maxCapacity] at hdropped ⊢
    exact .purged hdropped (.stay _)

theorem Step.course {e : ℤ × ℤ} {events : List Event} (h : s.Sound) (hs : Step s e t events) :
    t.lgMax = s.lgMax ∧ Course s.lgMax s.table.lgLength events t.table.lgLength := by
  cases hs with
  | idle => exact ⟨rfl, .stay _⟩
  | counted _ positive _ holds room =>
    have hcourse := room.course (h.withCount positive holds).1
    rwa [withCount, holds.lgLength_eq] at hcourse

theorem Run.course {es : Entries} {events : List Event} (h : s.Sound) (hr : Run s es t events) :
    t.lgMax = s.lgMax ∧ Course s.lgMax s.table.lgLength events t.table.lgLength := by
  induction hr with
  | nil => exact ⟨rfl, .stay _⟩
  | cons step _ ih =>
    obtain ⟨hlgMax, hcourse⟩ := step.course h
    obtain ⟨hlgMax', hcourse'⟩ := ih (step.sound h)
    rw [hlgMax] at hlgMax' hcourse'
    exact ⟨hlgMax', hcourse.append hcourse'⟩

/-! ### Calls -/

/-- A call that may change a sketch. -/
inductive Call where
  /-- Count an item. -/
  | update (item count : Scalar)
  /-- Count items once each. -/
  | extend (items : List Scalar)
  /-- Fold in another sketch, or whatever is offered in place of one. -/
  | merge (operand : Operand)

/-- What comes of a call. -/
def Call.run (src : DrawSource) (s : Sketch) : Call → Outcome Sketch
  | .update item count => s.update src item count
  | .extend items => s.extend src items
  | .merge operand => s.mergeOperand src operand

/-- The outcome of an operation on `s` is in order: it ends in a sound sketch with the same greatest
length, the events are the course of the table, and nothing has broken down. -/
structure Orderly (s : Sketch) (o : Outcome Sketch) : Prop where
  /-- The sketch is sound. -/
  sound : o.state.Sound
  /-- The greatest length stays. -/
  lgMax_eq : o.state.lgMax = s.lgMax
  /-- The events tell the way of the table. -/
  course : Course s.lgMax s.table.lgLength o.events o.state.table.lgLength
  /-- A failure is a refusal. -/
  failure : ∀ e, o.failure = some e → ¬ e.IsBreakdown

/-- Other totals do no harm. -/
theorem Sound.totals (h : s.Sound) (offset streamLength : ℤ) (truths : Truths) :
    Sound { s with offset, streamLength, truths } :=
  ⟨⟨h.layout, h.lgMin_le, h.lgLength_le, h.lgMax_le, h.capacity_eq, h.positive⟩, h.active_le⟩

namespace Orderly

theorem ok (h : s.Sound) : s.Orderly (.ok s) :=
  ⟨h, rfl, .stay _, fun _ he => by cases he⟩

theorem fail (h : s.Sound) {e : Error} (he : ¬ e.IsBreakdown) : s.Orderly (.fail s e) := by
  refine ⟨h, rfl, .stay _, ?_⟩
  rintro _ ⟨⟩
  exact he

/-- A series of updates is in order. -/
theorem of_ends {src : DrawSource} {pairs : List (Scalar × Scalar)} {o : Outcome Sketch} (h : s.Sound)
    (hends : Ends src s pairs o) : s.Orderly o := by
  cases hends with
  | all _ _ run =>
    obtain ⟨hlgMax, hcourse⟩ := run.course h
    exact ⟨run.sound h, hlgMax, hcourse, fun _ he => by cases he⟩
  | refused run herror =>
    obtain ⟨hlgMax, hcourse⟩ := run.course h
    refine ⟨run.sound h, hlgMax, hcourse, ?_⟩
    rintro _ ⟨⟩
    exact noBreakdown_accept _ _ _ _ herror

/-- New totals do not disturb the order. -/
theorem andThen_totals {o : Outcome Sketch} (h : s.Orderly o) (f : Sketch → ℤ × ℤ × Truths) :
    s.Orderly (o.andThen fun t =>
      .ok { t with offset := (f t).1, streamLength := (f t).2.1, truths := (f t).2.2 }) := by
  obtain ⟨t, events, failure⟩ := o
  cases failure with
  | none =>
    have hcourse := h.course
    refine ⟨h.sound.totals _ _ _, h.lgMax_eq, ?_, fun _ he => by cases he⟩
    simpa [Outcome.andThen, Outcome.ok] using hcourse
  | some e => exact h

end Orderly

/-- A merge is in order, whatever is merged. -/
theorem merge_orderly (src : DrawSource) (h : s.Sound) (other : Sketch) :
    s.Orderly (s.merge src other) := by
  rw [merge]
  split_ifs with hempty
  · exact .ok h
  · dsimp only
    split_ifs with hover
    · exact .fail h id
    · have hends := updateAll_cases src h (other.table.entries.map fun e => (.int e.1, .int e.2))
      rw [updateAll_int] at hends
      exact (Orderly.of_ends h hends).andThen_totals fun t =>
        (t.offset + other.offset, s.streamLength + other.streamLength, .none)

/-- **A call is in order**, whatever is asked for. -/
theorem Call.run_orderly (src : DrawSource) (h : s.Sound) : ∀ call : Call, s.Orderly (call.run src s)
  | .update item count => by
    rw [Call.run, update_eq]
    exact .of_ends h (updateAll_cases src h _)
  | .extend items => by
    rw [Call.run, extend_eq]
    exact .of_ends h (updateAll_cases src h _)
  | .merge .nothing => .ok h
  | .merge (.sketch other) => merge_orderly src h other
  | .merge (.foreign _) => .fail h id

/-! ### Loading -/

/-- What a sketch is loaded from. -/
inductive Origin where
  /-- A record, for a sketch with the seed. -/
  | record (r : Snapshot.Record) (seed : Scalar)
  /-- Bytes. -/
  | bytes (bs : List UInt8)
  /-- A line. -/
  | line (text : String)

/-- What comes of loading. -/
def Origin.load (src : DrawSource) : Origin → Loading
  | .record r seed => ofRecord src r seed
  | .bytes bs => ofBytes src bs
  | .line text => ofLine src text

/-- A loading is in order: the events are the course of a table, to that of the loaded sketch if
there is one, and nothing has broken down. -/
structure OrderlyLoading (l : Loading) : Prop where
  /-- The events tell the way of a table. -/
  course : ∃ lgMax lg lg', Course lgMax lg l.events lg' ∧
    ∀ t, l.result = .ok t → t.lgMax = lgMax ∧ t.table.lgLength = lg'
  /-- A loaded sketch is sound. -/
  sound : ∀ t, l.result = .ok t → t.Sound
  /-- A failure is a refusal. -/
  failure : NoBreakdown l.result

/-- A loading that fails without events. -/
private theorem orderlyLoading_error {e : Error} (he : ¬ e.IsBreakdown) :
    OrderlyLoading ⟨[], .error e⟩ :=
  ⟨⟨0, 0, 0, .stay 0, fun _ ht => (by cases ht)⟩, fun _ ht => (by cases ht), .error he⟩

/-- Recorded totals do not disturb the order. -/
theorem OrderlyLoading.restore {l : Loading} (h : OrderlyLoading l) (r : Snapshot.Record) :
    OrderlyLoading (l.map (restore r)) := by
  obtain ⟨events, result⟩ := l
  cases result with
  | error e => exact h
  | ok s =>
    obtain ⟨lgMax, lg, lg', hcourse, hends⟩ := h.course
    refine ⟨⟨lgMax, lg, lg', hcourse, ?_⟩, ?_, .ok _⟩
    · rintro _ ⟨⟩
      exact hends s rfl
    · rintro _ ⟨⟩
      exact (h.sound s rfl).totals _ _ _

/-- A sketch is prepared as a fresh one. -/
theorem prepare_fresh {d : Snapshot.Draft} {seed : Scalar} (h : prepare d seed = .ok s) :
    s.Fresh ∧ ∃ m, d.lgMax.toInteger = .ok m ∧ s.lgMax = m.toNat := by
  obtain ⟨negative, -, h⟩ := bind_eq_ok.mp h
  cases negative with
  | true => cases h
  | false =>
  obtain ⟨negative, -, h⟩ := bind_eq_ok.mp h
  cases negative with
  | true => cases h
  | false => exact ofLog2_fresh h

theorem recount_orderly (src : DrawSource) (d : Snapshot.Draft) (seed : Scalar) :
    OrderlyLoading (recount src d seed) := by
  rw [recount]
  cases hprepare : prepare d seed with
  | error e => exact orderlyLoading_error (noBreakdown_prepare d seed e hprepare)
  | ok s =>
    have hsound := (prepare_fresh hprepare).1.sound
    have horderly := Orderly.of_ends hsound (updateAll_cases src hsound d.entries)
    dsimp only
    generalize updateAll src s d.entries = o at horderly ⊢
    obtain ⟨u, events, failure⟩ := o
    cases failure with
    | none =>
      refine ⟨⟨s.lgMax, s.table.lgLength, u.table.lgLength, horderly.course, ?_⟩, ?_, .ok _⟩
      · rintro _ ⟨⟩
        exact ⟨horderly.lgMax_eq, rfl⟩
      · rintro _ ⟨⟩
        exact horderly.sound
    | some e =>
      exact ⟨⟨s.lgMax, s.table.lgLength, u.table.lgLength, horderly.course, fun _ ht => (by cases ht)⟩,
        fun _ ht => (by cases ht), .error (horderly.failure e rfl)⟩

theorem ofRecord_orderly (src : DrawSource) (r : Snapshot.Record) (seed : Scalar) :
    OrderlyLoading (ofRecord src r seed) :=
  (recount_orderly src r.toDraft seed).restore r

/-- **Loading is in order**, whatever is loaded. -/
theorem Origin.load_orderly (src : DrawSource) : ∀ origin : Origin, OrderlyLoading (origin.load src)
  | .record r seed => ofRecord_orderly src r seed
  | .bytes bs => by
    rw [Origin.load, ofBytes]
    cases Snapshot.ofBytes bs with
    | error c => exact orderlyLoading_error id
    | ok p => exact ofRecord_orderly src _ _
  | .line text => by
    rw [Origin.load, ofLine]
    cases Snapshot.ofLine .usual text with
    | error c => exact orderlyLoading_error id
    | ok p => exact ofRecord_orderly src _ _

/-! ### Reachable sketches -/

/-- The sketches that can be made by operations of any kind, in any order. Each draws from a source
of its own. -/
inductive Reachable : Sketch → Prop
  /-- A new sketch, of a greatest length. -/
  | ofSize {maxLength seed : Scalar} {s : Sketch} (h : ofSize maxLength seed = .ok s) : Reachable s
  /-- A new sketch, of the logarithms of two lengths. -/
  | ofLog2 {lgMax lgLength seed : Scalar} {s : Sketch} (h : ofLog2 lgMax lgLength seed = .ok s) :
      Reachable s
  /-- A loaded sketch. -/
  | load {src : DrawSource} {origin : Origin} {s : Sketch} (h : (origin.load src).result = .ok s) :
      Reachable s
  /-- What a call leaves behind, also if it fails. -/
  | call {s : Sketch} (src : DrawSource) (c : Call) (h : Reachable s)
      (hother : ∀ other, c = .merge (.sketch other) → Reachable other) : Reachable (c.run src s).state
  /-- A sketch that is reset. -/
  | reset {s : Sketch} (h : Reachable s) : Reachable s.reset

theorem Reachable.sound (h : Reachable s) : s.Sound := by
  induction h with
  | ofSize h => exact (ofSize_fresh h).1.sound
  | ofLog2 h => exact (ofLog2_fresh h).1.sound
  | load h => exact (Origin.load_orderly _ _).sound _ h
  | call src c _ _ ih _ => exact (c.run_orderly src ih).sound
  | reset _ ih => exact (reset_fresh ih).sound

/-- The limits of a sketch. -/
structure WithinLimits (s : Sketch) : Prop where
  /-- The noted capacity is three quarters of the length, rounded down. -/
  capacity_eq : s.capacity = 3 * s.table.length / 4
  /-- There are no more counters than that. -/
  active_le : s.active ≤ s.capacity
  /-- There never are more than at the greatest length. -/
  capacity_le : s.capacity ≤ s.maxCapacity
  /-- The length is a power of two, eight or more. -/
  length_eq : s.table.length = powerOfTwo s.table.lgLength ∧ 3 ≤ s.table.lgLength
  /-- It is no more than the greatest length. -/
  length_le : s.table.length ≤ powerOfTwo s.lgMax
  /-- All counts are positive. -/
  positive : ∀ e ∈ s.table.entries, 0 < e.2

theorem Sound.withinLimits (h : s.Sound) : s.WithinLimits where
  capacity_eq := h.capacity_eq
  active_le := h.active_le
  capacity_le := h.capacity_le
  length_eq := ⟨s.table.length_eq, h.lgMin_le⟩
  length_le := by
    rw [Table.length_eq]
    exact powerOfTwo_mono h.lgLength_le
  positive e he := h.positive e.2 (List.mem_map_of_mem he)

/-- **A sketch stays within its limits**, in every state that can be reached; a call on it takes the
table on its course, never makes it shorter, and does not break down, so that no error by which it
could not go on is raised; and the same holds of loading a sketch from anything. -/
theorem within_limits :
    (∀ s, Reachable s → s.WithinLimits) ∧
      (∀ s, Reachable s → ∀ src (call : Call),
        let o := call.run src s
        o.state.WithinLimits ∧ s.table.length ≤ o.state.table.length ∧
          Course s.lgMax s.table.lgLength o.events o.state.table.lgLength ∧
            ∀ e, o.failure = some e → ¬ e.IsBreakdown ∧ e.kind ≠ .runtime) ∧
        ∀ src (origin : Origin), OrderlyLoading (origin.load src) ∧
          ∀ e, (origin.load src).result = .error e → e.kind ≠ .runtime := by
  refine ⟨fun s h => h.sound.withinLimits, fun s h src call => ?_, fun src origin => ?_⟩
  · have horderly := call.run_orderly src h.sound
    refine ⟨horderly.sound.withinLimits, ?_, horderly.course, fun e he => ?_⟩
    · rw [Table.length_eq, Table.length_eq]
      exact powerOfTwo_mono horderly.course.le
    · have hgood := horderly.failure e he
      exact ⟨hgood, mt Error.isBreakdown_of_kind hgood⟩
  · have horderly := origin.load_orderly src
    exact ⟨horderly, fun e he => mt Error.isBreakdown_of_kind (horderly.failure e he)⟩

/-! ### A purged sketch -/

/-- The source that always draws zero. -/
def leastDraws : DrawSource where
  State := Unit
  ofSeed _ := ()
  draw _ _ := (0, ())
  draw_lt _ _ h := h

/-- A new sketch of eight slots. -/
def narrow : Sketch := ⟨lgMinLength, .ofLog2 lgMinLength, 6, 0, 0, 1, .none⟩

/-- Seven different items. -/
def crowd : List ℤ := [1, 2, 2, 3, 3, 3, 4, 4, 4, 4, 5, 5, 5, 5, 5, 6, 7]

/-- The narrow sketch after the crowd. -/
def crowded : Outcome Sketch := narrow.extend leastDraws (crowd.map .int)

theorem ofSize_eq_narrow : ofSize (.int 8) (.int 1) = .ok narrow := rfl

/-- The seventh item does not fit: a purge drops four of the counters. -/
theorem within_limits_crowded :
    Reachable narrow ∧ crowded.events = [.purged 17 4 7 2] ∧ crowded.state.WithinLimits ∧
      Course 3 3 [.purged 17 4 7 2] 3 ∧
        ∀ e, crowded.failure = some e → ¬ e.IsBreakdown ∧ e.kind ≠ .runtime := by
  have hevents : crowded.events = [.purged 17 4 7 2] := by decide +kernel
  obtain ⟨-, hcalls, -⟩ := within_limits
  obtain ⟨hlimits, -, hcourse, hfailure⟩ :=
    hcalls narrow (.ofSize ofSize_eq_narrow) leastDraws (.extend (crowd.map .int))
  refine ⟨.ofSize ofSize_eq_narrow, hevents, hlimits, ?_, hfailure⟩
  rw [← hevents]
  exact hcourse

end HeavyHitters.Sketch
