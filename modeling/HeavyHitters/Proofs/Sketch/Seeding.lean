import HeavyHitters.Proofs.Sketch.Conservation
import Mathlib.Data.Int.ModEq

/-!
# The seeds of purges

Every purge makes a fresh state to draw from. Its seed has two parts, the seed of the sketch and the lower
48 bits of the stream length, so that draws are not repeated as long as no two purges are a multiple of
`2 ^ 48` apart in the stream.

No two purges have the same stream length. Only an update with a positive count may make a purge necessary,
and it raises the stream length first. A merge raises it counter by counter, and in the end sets it to the
sum of both stream lengths. That is no step back, because the counters of a genuine sketch add up to no more
than its stream length (`Paced`). And nothing else is made from a seed on the way: if the states for all other
seeds are replaced, every call does the same (`Call.run_reseeded`).

The seeds of two sketches are told apart by their lower 64 bits, because the multiplier that spreads them is
odd.

## What is proved

* `Call.run_reseeded`: what a call comes to depends on the states for the seeds of its purges only.
* `Run.paced`, `Merged.paced`, `Call.timed`: the stream lengths at which a call purges.
* `purgeSeed_ne`, `purgeSeed_eq_iff`: which seeds are the same.
* `purges_seeded_apart`: no two purges within `2 ^ 48` of stream length have the same seed.
-/

namespace HeavyHitters

/-! ### What is made from a seed -/

/-- A source with other states for the seeds. -/
@[reducible]
def DrawSource.reseeded (src : DrawSource) (ofSeed : ℕ → src.State) : DrawSource := { src with ofSeed }

section Reseeded

variable (src : DrawSource) (ofSeed : ℕ → src.State)

-- Sampling and selection draw from the state that they are given, so each lemma goes by the recursion of its
-- function.

namespace Median

theorem sampleFrom_reseeded (size : ℕ) (values : List ℤ) (seen : ℕ) (sample : Array ℤ) (g : src.State) :
    sampleFrom (src.reseeded ofSeed) size values seen sample g = sampleFrom src size values seen sample g := by
  induction values generalizing seen sample g with
  | nil => rfl
  | cons v vs ih =>
    rw [sampleFrom, sampleFrom]
    split
    · exact ih _ _ g
    · exact ih _ _ _

theorem narrow_reseeded (low high rounds : ℕ) (xs : Array ℤ) (lo hi : ℕ) (g : src.State) :
    narrow (src.reseeded ofSeed) low high rounds xs lo hi g = narrow src low high rounds xs lo hi g := by
  induction rounds generalizing xs lo hi g with
  | zero => rfl
  | succ rounds ih =>
    have hround : narrowOnce (src.reseeded ofSeed) low high xs lo hi g = narrowOnce src low high xs lo hi g :=
      rfl
    rw [narrow, narrow, hround]
    split
    · rfl
    · exact ih _ _ _ _

theorem approximate_reseeded (values : List ℤ) (size : Scalar) (g : src.State) :
    approximate (src.reseeded ofSeed) values size g = approximate src values size g := by
  have hsample : reservoir (src.reseeded ofSeed) values size g = reservoir src values size g := by
    simp only [reservoir, sampleFrom_reseeded]
  have hselect : ∀ (sample : Array ℤ) (rank : Scalar) (g : src.State),
      select (src.reseeded ofSeed) sample rank g = select src sample rank g := fun sample rank g => by
    simp only [select, selectInPlace, narrow_reseeded]
  unfold approximate
  rw [hsample]
  cases reservoir src values size g with
  | error e => rfl
  | ok a =>
    dsimp only
    rw [hselect]

end Median

/-- A table is purged by draws from the state that is given for it. -/
theorem Table.purge_reseeded (t : Table ℤ) (size : Scalar) (g : src.State) :
    t.purge (src.reseeded ofSeed) size g = t.purge src size g := by
  unfold Table.purge
  split_ifs
  · rfl
  · cases sampleBound t.active size with
    | error e => rfl
    | ok bound =>
      dsimp only
      rw [Median.approximate_reseeded]
      rcases Median.approximate src t.counts bound g with ⟨result, g'⟩
      cases result <;> rfl

end Reseeded

/-! ### The stream lengths of purges -/

/-- The stream length of an event, if it is a purge. -/
def Event.purgedAt? : Event → Option ℤ
  | grew _ _ => none
  | purged total _ _ _ => some total

/-- The stream lengths of the purges among some events. -/
def purgeTotals (events : List Event) : List ℤ := events.filterMap Event.purgedAt?

@[simp] theorem purgeTotals_append (events events' : List Event) :
    purgeTotals (events ++ events') = purgeTotals events ++ purgeTotals events' := List.filterMap_append

/-- On the way from one stream length to another the purges come one after the other. -/
structure Paced (before : ℤ) (events : List Event) (after : ℤ) : Prop where
  /-- The stream length does not fall. -/
  le : before ≤ after
  /-- Each purge has a greater one than all purges before. -/
  increasing : (purgeTotals events).Pairwise (· < ·)
  /-- It is greater than in the beginning, and no greater than in the end. -/
  between : ∀ n ∈ purgeTotals events, before < n ∧ n ≤ after

namespace Paced

variable {a b c : ℤ} {events events' : List Event}

theorem refl (a : ℤ) : Paced a [] a := ⟨le_rfl, .nil, fun n hn => by cases hn⟩

theorem append (h : Paced a events b) (h' : Paced b events' c) : Paced a (events ++ events') c where
  le := h.le.trans h'.le
  increasing := by
    rw [purgeTotals_append]
    refine List.pairwise_append.mpr ⟨h.increasing, h'.increasing, fun m hm n hn => ?_⟩
    exact (h.between m hm).2.trans_lt (h'.between n hn).1
  between n hn := by
    rw [purgeTotals_append, List.mem_append] at hn
    rcases hn with hn | hn
    · exact ⟨(h.between n hn).1, (h.between n hn).2.trans h'.le⟩
    · exact ⟨h.le.trans_lt (h'.between n hn).1, (h'.between n hn).2⟩

/-- The stream length may be raised in the end. -/
theorem raise (h : Paced a events b) (hle : b ≤ c) : Paced a events c :=
  ⟨h.le.trans hle, h.increasing, fun n hn => ⟨(h.between n hn).1, (h.between n hn).2.trans hle⟩⟩

end Paced

namespace Sketch

variable {s t u other : Sketch} {events : List Event} {src : DrawSource}

/-- Room is made at the stream length that has been reached. -/
theorem Room.paced {before : ℤ} (h : before < s.streamLength) (hr : Room s t events) :
    Paced before events t.streamLength := by
  cases hr with
  | enough => exact (Paced.refl before).raise h.le
  | grown => exact ⟨h.le, .nil, fun n hn => by cases hn⟩
  | purged =>
    refine ⟨h.le, List.pairwise_singleton _ _, fun n hn => ?_⟩
    obtain rfl : n = s.streamLength := List.mem_singleton.mp hn
    exact ⟨h, le_rfl⟩

/-- An update that may need room raises the stream length first. -/
theorem Step.paced {e : ℤ × ℤ} (hs : Step s e t events) : Paced s.streamLength events t.streamLength := by
  cases hs with
  | idle => exact .refl _
  | counted _ positive _ _ room => exact room.paced (lt_add_of_pos_right s.streamLength positive)

/-- **The purges of a run come one after the other** in the stream. -/
theorem Run.paced {es : Entries} (hr : Run s es t events) : Paced s.streamLength events t.streamLength := by
  induction hr with
  | nil => exact .refl _
  | cons step _ ih => exact step.paced.append ih

/-! ### Calls, one after the other -/

/-- The purges of an operation on `s` come one after the other, and the seed stays. -/
structure Timed (s : Sketch) (o : Outcome Sketch) : Prop where
  /-- The purges come after the stream length of `s`, and none after that of the outcome. -/
  paced : Paced s.streamLength o.events o.state.streamLength
  /-- The seed is that of `s`. -/
  seed_eq : o.state.seed = s.seed

namespace Timed

/-- Where nothing happens. -/
theorem still {o : Outcome Sketch} (hevents : o.events = []) (hstate : o.state = s) : Timed s o := by
  refine ⟨?_, by rw [hstate]⟩
  rw [hevents, hstate]
  exact .refl _

theorem of_run {es : Entries} {failure : Option Error} (run : Run s es t events) :
    Timed s ⟨t, events, failure⟩ := ⟨run.paced, run.seed_eq⟩

/-- A series of updates. -/
theorem of_ends {pairs : List (Scalar × Scalar)} {o : Outcome Sketch} (hends : Ends src s pairs o) :
    Timed s o := by
  cases hends with
  | all _ _ run => exact .of_run run
  | refused run _ => exact .of_run run

/-- **A merge.** That the stream length is overwritten in the end is no step back, as the counters of the
other sketch add up to no more than its stream length. -/
theorem of_merged {o : Outcome Sketch} (h : s.Sound) (htotal : other.counters.total ≤ other.streamLength)
    (hmerged : Merged s other o) : Timed s o := by
  cases hmerged with
  | idle => exact .still rfl rfl
  | refused => exact .still rfl rfl
  | stopped _ _ _ run => exact .of_run run
  | @folded u _ _ _ run =>
    refine ⟨run.paced.raise ?_, run.seed_eq⟩
    rw [(run.drift h).streamLength_eq]
    exact Int.add_le_add_left htotal _

end Timed

/-- **The purges of a call come one after the other**, if what is merged is genuine. -/
theorem Call.timed (src : DrawSource) (h : s.Sound) (c : Call)
    (hother : ∀ other, c = .merge (.sketch other) → ∃ hist, Genuine other hist) : Timed s (c.run src s) := by
  cases c with
  | update item count =>
    rw [Call.run, update_eq]
    exact .of_ends (updateAll_cases src h _)
  | extend items =>
    rw [Call.run, extend_eq]
    exact .of_ends (updateAll_cases src h _)
  | merge operand =>
    cases operand with
    | nothing => exact .still rfl rfl
    | sketch other =>
      obtain ⟨hist, hgenuine⟩ := hother other rfl
      exact .of_merged h hgenuine.accounted.total_le (merge_ends src h other)
    | foreign => exact .still rfl rfl

/-! ### The states that a call makes -/

/-- For the seeds of the purges among some events, the states are those that the source has for them. -/
def SameStates (src : DrawSource) (ofSeed : ℕ → src.State) (seed : ℤ) (events : List Event) : Prop :=
  ∀ n ∈ purgeTotals events, ofSeed (purgeSeed seed n) = src.ofSeed (purgeSeed seed n)

section Reseeded

variable {ofSeed : ℕ → src.State}

/-- A purge draws from the state for its own seed. -/
theorem purge_reseeded
    (h : ofSeed (purgeSeed s.seed s.streamLength) = src.ofSeed (purgeSeed s.seed s.streamLength)) :
    s.purge (src.reseeded ofSeed) = s.purge src := by
  unfold purge
  dsimp only
  rw [h, Table.purge_reseeded]
  rcases s.table.purge src (.int s.sampleSize) (src.ofSeed (purgeSeed s.seed s.streamLength)) with
    ⟨result, t, g⟩
  cases result <;> rfl

/-- Where room is made by a purge, that purge is among the events. -/
theorem makeRoom_reseeded (h : s.Shaped) (hactive : s.active ≤ s.capacity + 1)
    (hsame : SameStates src ofSeed s.seed (s.makeRoom src).events) :
    s.makeRoom (src.reseeded ofSeed) = s.makeRoom src := by
  obtain ⟨t, events, hmade, room⟩ := makeRoom_cases src h hactive
  rw [hmade] at hsame
  unfold makeRoom
  split_ifs with henough hlg
  · rfl
  · rfl
  · refine purge_reseeded (hsame s.streamLength ?_)
    cases room with
    | enough hroom => exact absurd hroom henough
    | grown _ hgrow => exact absurd hgrow hlg
    | purged => exact List.mem_singleton_self s.streamLength

theorem update_reseeded (h : s.Sound) (item count : Scalar)
    (hsame : SameStates src ofSeed s.seed (s.update src item count).events) :
    s.update (src.reseeded ofSeed) item count = s.update src item count := by
  unfold update at hsame ⊢
  cases haccept : s.accept item count with
  | error e => rfl
  | ok a =>
    obtain ⟨i, n⟩ := a
    rw [haccept] at hsame
    dsimp only at hsame ⊢
    split_ifs at hsame ⊢ with hzero
    · rfl
    · obtain ⟨-, -, -, -, hnonneg, -⟩ := accept_eq_ok_iff.mp haccept
      obtain ⟨table, hput, hholds⟩ := h.exists_put i n
      obtain ⟨hshaped, hactive⟩ := h.withCount (lt_of_le_of_ne hnonneg (Ne.symm hzero)) hholds
      simp only [insert_eq, hput] at hsame ⊢
      exact makeRoom_reseeded hshaped hactive hsame

theorem updateAll_reseeded (h : s.Sound) (pairs : List (Scalar × Scalar))
    (hsame : SameStates src ofSeed s.seed (s.updateAll src pairs).events) :
    s.updateAll (src.reseeded ofSeed) pairs = s.updateAll src pairs := by
  induction pairs generalizing s with
  | nil => rfl
  | cons p pairs ih =>
    simp only [updateAll, Outcome.each_cons] at ih hsame ⊢
    rcases update_cases src h p.1 p.2 with ⟨e, -, hfail⟩ | ⟨i, n, t, events, -, hok, step⟩
    · rw [update_reseeded h p.1 p.2 (by rw [hfail]; exact fun n hn => by cases hn), hfail]
      rfl
    · rw [hok] at hsame
      simp only [Outcome.andThen] at hsame
      -- the first update purges with the seed of `s`, and so do the others, as an update keeps the seed
      have hfirst : SameStates src ofSeed s.seed events := fun n hn => hsame n (by simp [hn])
      have hrest : SameStates src ofSeed t.seed
          (Outcome.each (fun s e => s.update src e.1 e.2) pairs t).events := fun n hn => by
        rw [step.seed_eq]
        exact hsame n (by simp [hn])
      rw [update_reseeded h p.1 p.2 (by rwa [hok]), hok]
      simp only [Outcome.andThen, ih (step.sound h) hrest]

/-- **What a call comes to depends on the states for the seeds of its purges**, and on no others. -/
theorem Call.run_reseeded (h : s.Sound) (c : Call)
    (hsame : SameStates src ofSeed s.seed (c.run src s).events) :
    c.run (src.reseeded ofSeed) s = c.run src s := by
  cases c with
  | update item count => exact update_reseeded h item count hsame
  | extend items =>
    simp only [Call.run, extend_eq] at hsame ⊢
    exact updateAll_reseeded h _ hsame
  | merge operand =>
    cases operand with
    | nothing => rfl
    | sketch other =>
      simp only [Call.run, mergeOperand, Sketch.merge] at hsame ⊢
      split_ifs at hsame ⊢
      · rfl
      · rfl
      · rw [← updateAll_int] at hsame ⊢
        rw [← updateAll_int, updateAll_reseeded h]
        -- the new totals make no events
        generalize s.updateAll src (other.table.entries.map fun e => (.int e.1, .int e.2)) = o at hsame ⊢
        obtain ⟨t, events, failure⟩ := o
        cases failure with
        | none => simpa [Outcome.andThen, Outcome.ok] using hsame
        | some e => exact hsame
    | foreign => rfl

end Reseeded

/-! ### Equal seeds -/

/-- A seed has 64 bits. -/
theorem purgeSeed_lt (seed n : ℤ) : purgeSeed seed n < 2 ^ 64 := by
  unfold purgeSeed
  omega

/-- Purges less than `2 ^ 48` apart in the stream have different seeds. -/
theorem purgeSeed_ne (seed : ℤ) {m n : ℤ} (hlt : m < n) (hnear : n - m < 2 ^ 48) :
    purgeSeed seed m ≠ purgeSeed seed n := by
  unfold purgeSeed
  omega

/-- At one stream length only the lower 64 bits of the seeds of the sketches matter, and all of them. -/
theorem purgeSeed_eq_iff {a b : ℤ} (n : ℤ) : purgeSeed a n = purgeSeed b n ↔ a ≡ b [ZMOD 2 ^ 64] := by
  have hcoprime : Int.gcd (2 ^ 64) seedMultiplier = 1 := by decide
  have hseeds : purgeSeed a n = purgeSeed b n ↔
      a * seedMultiplier + n % 2 ^ 48 ≡ b * seedMultiplier + n % 2 ^ 48 [ZMOD 2 ^ 64] := by
    unfold purgeSeed Int.ModEq
    omega
  rw [hseeds]
  constructor
  · intro h
    have hspread := (Int.ModEq.add_right_cancel' _ h).cancel_right_div_gcd (by decide)
    rwa [hcoprime, Nat.cast_one, Int.ediv_one] at hspread
  · intro h
    exact (h.mul_right _).add_right _

/-! ### Runs of calls -/

/-- What becomes of a sketch by calls of any kind, one after the other, also by such that fail, and the
events since then. All sketches that are merged into it are genuine; it may be one of them itself. Each call
draws from a source of its own. -/
inductive Traced (start : Sketch) : Sketch → List Event → Prop
  /-- The sketch itself. -/
  | start : Traced start start []
  /-- One more call. -/
  | call {s : Sketch} {events : List Event} (src : DrawSource) (c : Call) (hs : Traced start s events)
      (hother : ∀ other, c = .merge (.sketch other) → ∃ hist, Genuine other hist) :
      Traced start (c.run src s).state (events ++ (c.run src s).events)

/-- One more merge. -/
theorem Traced.merge {start : Sketch} {hist : History} (hs : Traced start s events) (src : DrawSource)
    (hother : Genuine other hist) :
    Traced start (s.merge src other).state (events ++ (s.merge src other).events) :=
  .call src (.merge (.sketch other)) hs fun _ hc => by
    cases hc
    exact ⟨hist, hother⟩

/-- The purges of a run of calls come one after the other in the stream, and the seed stays. -/
theorem Traced.timed {start : Sketch} (h : start.Sound) (ht : Traced start s events) :
    s.Sound ∧ Timed start ⟨s, events, none⟩ := by
  induction ht with
  | start => exact ⟨h, .still rfl rfl⟩
  | call src c _ hother ih =>
    obtain ⟨hsound, htimed⟩ := ih
    have hcall := c.timed src hsound hother
    exact ⟨(c.run_orderly src hsound).sound, htimed.paced.append hcall.paced,
      hcall.seed_eq.trans htimed.seed_eq⟩

/-- **No two purges of a run of calls that are less than `2 ^ 48` apart in the stream have the same seed.**
The stream lengths at which there are purges rise from one to the next, whatever is counted, merged, refused
and drawn. States are made from the seeds of these purges only: if all others are replaced, any next call
does the same. Two sketches have the same seed for a purge at the same stream length exactly if their own
seeds agree in the lower 64 bits. -/
theorem purges_seeded_apart {start : Sketch} (h : Reachable start) (ht : Traced start s events) :
    (purgeTotals events).Pairwise (· < ·) ∧
      (purgeTotals events).Pairwise
        (fun m n => n - m < 2 ^ 48 → purgeSeed start.seed m ≠ purgeSeed start.seed n) ∧
      (∀ n, purgeSeed start.seed n < 2 ^ 64) ∧
      (∀ (src : DrawSource) (ofSeed : ℕ → src.State) (c : Call),
        SameStates src ofSeed start.seed (c.run src s).events →
          c.run (src.reseeded ofSeed) s = c.run src s) ∧
      ∀ a b n : ℤ, purgeSeed a n = purgeSeed b n ↔ a ≡ b [ZMOD 2 ^ 64] := by
  obtain ⟨hsound, htimed⟩ := ht.timed h.sound
  have hrising : (purgeTotals events).Pairwise (· < ·) := htimed.paced.increasing
  refine ⟨hrising, hrising.imp fun hlt => purgeSeed_ne start.seed hlt, purgeSeed_lt start.seed,
    fun src ofSeed c hsame => c.run_reseeded hsound ?_, fun a b n => purgeSeed_eq_iff n⟩
  rwa [show s.seed = start.seed from htimed.seed_eq]

/-- The crowd was counted in this sketch, then it was merged into itself, and then the visitors were folded
in. -/
def revisited : Sketch := (doubled.merge leastDraws visitors).state

/-- It was purged twice. The merge into itself went by without a purge, but it doubled the stream length. A
sketch with the seed one less `2 ^ 64` would have drawn the same. -/
theorem purges_seeded_apart_revisited :
    Reachable narrow ∧ ∃ events, Traced narrow revisited events ∧ purgeTotals events = [17, 38] ∧
      purgeSeed narrow.seed 17 ≠ purgeSeed narrow.seed 38 ∧
      purgeSeed (1 - 2 ^ 64) 17 = purgeSeed narrow.seed 17 := by
  have hnarrow : Reachable narrow := .ofSize ofSize_eq_narrow
  have hcrowded : Traced narrow crowded.state _ :=
    .call leastDraws (.extend (crowd.map .int)) .start fun _ hc => by cases hc
  have hdoubled : Traced narrow doubled _ := hcrowded.merge leastDraws genuine_crowded
  have hrevisited : Traced narrow revisited _ := hdoubled.merge leastDraws genuine_visitors
  obtain ⟨-, hapart, -, -, hsame⟩ := purges_seeded_apart hnarrow hrevisited
  refine ⟨hnarrow, _, hrevisited, by decide +kernel, ?_, (hsame _ _ 17).mpr (by decide)⟩
  exact List.pairwise_pair.mp hapart (by decide)

end Sketch

end HeavyHitters
