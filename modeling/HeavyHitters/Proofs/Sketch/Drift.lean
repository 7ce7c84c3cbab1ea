import HeavyHitters.Proofs.Sketch.Construction

/-!
# How far a sketch drifts from its stream

A purge takes the same amount from all counters, or all that they have if that is less, and adds the
amount to the offset. So no counter ever exceeds what was counted, and what a counter lacks is at
most what the offset has grown by. And a purge is paid for: at least a share of the sampled counts
lose the whole amount, so the offset grows, times the share, by no more than the sum of all counters
shrinks. This is what a purge does whatever it draws, and it adds up over a run.

## What is proved

* `Step.count_eq`: what one update does to the counters.
* `Room.drift`, `Step.drift`: the drift while room is made, and in one update.
* `Run.drift`: the drift of a run is bounded by what was counted for each item, and in all.
-/

namespace HeavyHitters

namespace Sketch

variable {s t u : Sketch}

/-- The share of the offset that is paid for: the number of sampled counts that reach their median,
in a sketch whose table may have `2 ^ lgMax` slots. -/
def errorShare (lgMax : ℕ) : ℕ :=
  let sample := min sampleLimit (loadLimit (powerOfTwo lgMax))
  sample - sample / 2

/-- From `s` to `t`, `added x` was counted for each item `x`, and `weight` in all. -/
structure Drift (s t : Sketch) (added : ℤ → ℤ) (weight : ℤ) : Prop where
  /-- The greatest length stays. -/
  lgMax_eq : t.lgMax = s.lgMax
  /-- The stream length grows by the weight. -/
  streamLength_eq : t.streamLength = s.streamLength + weight
  /-- It stays in bounds. -/
  bounded : s.streamLength ≤ maxWord → t.streamLength ≤ maxWord
  /-- Totals that are shown as integers still are. -/
  truths : s.truths = .none → t.truths = .none
  /-- Items that are 64-bit integers still are. -/
  words : (∀ x ∈ s.counters.keys, IsWord x) → ∀ x ∈ t.counters.keys, IsWord x
  /-- The offset does not shrink. -/
  offset_le : s.offset ≤ t.offset
  /-- A counter grows by no more than was counted. -/
  lower : ∀ x, t.table.count x ≤ s.table.count x + added x
  /-- What it lacks the offset has gained. -/
  upper : ∀ x, s.table.count x + s.offset + added x ≤ t.table.count x + t.offset
  /-- What the offset gains is paid for by the counters. -/
  mass : ∀ share : ℤ, 0 ≤ share → share ≤ errorShare s.lgMax →
    share * t.offset + t.counters.total ≤ share * s.offset + s.counters.total + weight
  /-- Where it gains nothing, the counters keep all that was counted. -/
  kept : t.offset = s.offset → t.counters.total = s.counters.total + weight

namespace Drift

theorem refl (s : Sketch) : Drift s s (fun _ => 0) 0 where
  lgMax_eq := rfl
  streamLength_eq := (add_zero _).symm
  bounded h := h
  truths h := h
  words h := h
  offset_le := le_rfl
  lower _ := (add_zero _).ge
  upper _ := (add_zero _).le
  mass _ _ _ := (add_zero _).ge
  kept _ := (add_zero _).symm

theorem trans {f g : ℤ → ℤ} {m n : ℤ} (h : Drift s t f m) (h' : Drift t u g n) :
    Drift s u (fun x => f x + g x) (m + n) where
  lgMax_eq := h'.lgMax_eq.trans h.lgMax_eq
  streamLength_eq := by rw [h'.streamLength_eq, h.streamLength_eq, add_assoc]
  bounded hs := h'.bounded (h.bounded hs)
  truths hs := h'.truths (h.truths hs)
  words hs := h'.words (h.words hs)
  offset_le := h.offset_le.trans h'.offset_le
  lower x := by
    have := h.lower x
    have := h'.lower x
    omega
  upper x := by
    have := h.upper x
    have := h'.upper x
    omega
  mass share hshare hle := by
    have := h.mass share hshare hle
    have := h'.mass share hshare (h.lgMax_eq.symm ▸ hle)
    omega
  kept hoffset := by
    have := h.offset_le
    have := h'.offset_le
    rw [h'.kept (by omega), h.kept (by omega), add_assoc]

/-- Where the offset stays, a counter grows by just what was counted. -/
theorem count_eq {f : ℤ → ℤ} {n : ℤ} (h : Drift s t f n) (hoffset : t.offset = s.offset) (x : ℤ) :
    t.table.count x = s.table.count x + f x := by
  have := h.lower x
  have := h.upper x
  omega

end Drift

/-! ### One update -/

/-- The counts after one was added to. -/
theorem Shaped.count_of_add (h : s.Shaped) {table : Table ℤ} {lg : ℕ} {item count : ℤ}
    (hholds : table.Holds lg (s.counters.add item count)) (x : ℤ) :
    table.count x = s.table.count x + if x = item then count else 0 := by
  rw [hholds.count_eq, Entries.count_add h.holds.distinct, h.holds.count_eq]
  split_ifs with hx
  · rw [hx]
  · rw [add_zero]

/-- Where room is made all counters lose what the offset gains, as far as they have it. -/
theorem Room.count_eq {events : List Event} (h : s.Shaped) (hr : Room s t events) (x : ℤ) :
    t.table.count x = max 0 (s.table.count x - (t.offset - s.offset)) := by
  have hnonneg := h.count_nonneg x
  cases hr with
  | enough => omega
  | grown table hlg hfull hholds =>
    change table.count x = max 0 (s.table.count x - (s.offset - s.offset))
    rw [hholds.count_eq, ← h.holds.count_eq]
    omega
  | purged table median hlg hfull hcentral hholds =>
    have hmedian : 0 < median := h.positive median hcentral.mem
    change table.count x = max 0 (s.table.count x - (s.offset + median - s.offset))
    rw [hholds.count_eq, Entries.count_lessen h.holds.distinct hmedian.le, ← h.holds.count_eq]
    split_ifs <;> omega

/-- Making room does not change what was counted. -/
theorem Room.drift {events : List Event} (h : s.Shaped) (hr : Room s t events) :
    Drift s t (fun _ => 0) 0 := by
  cases hr with
  | enough => exact .refl s
  | grown table hlg hfull hholds =>
    have hcount : ∀ x, table.count x = s.table.count x := by
      intro x
      rw [hholds.count_eq, h.holds.count_eq]
    have htotal := Entries.total_perm hholds.perm
    refine ⟨rfl, (add_zero _).symm, id, id, fun hs x hx => hs x (hholds.keys_perm.mem_iff.mp hx), le_rfl,
      ?_, ?_, ?_, fun _ => htotal.trans (add_zero _).symm⟩
    · intro x
      rw [hcount, add_zero]
    · intro x
      rw [hcount, add_zero]
    · intro share _ _
      rw [add_zero]
      exact Int.add_le_add_left htotal.le _
  | purged table median hlg hfull hcentral hholds =>
    have hmedian : 0 < median := h.positive median hcentral.mem
    have hdistinct := h.holds.distinct
    have hcount : ∀ x, table.count x =
        if median < s.table.count x then s.table.count x - median else 0 := by
      intro x
      rw [hholds.count_eq, Entries.count_lessen hdistinct hmedian.le, h.holds.count_eq]
    refine ⟨rfl, (add_zero _).symm, id, id, ?_, ?_, ?_, ?_, ?_, ?_⟩
    · intro hs x hx
      exact hs x ((Entries.keys_lessen_sublist _ median).subset (hholds.keys_perm.mem_iff.mp hx))
    · change s.offset ≤ s.offset + median
      omega
    · intro x
      have := h.count_nonneg x
      simp only [hcount]
      split_ifs <;> omega
    · intro x
      simp only [hcount]
      split_ifs <;> omega
    · intro share hshare hle
      -- the greater half of the sample loses the whole median
      have hpaid := Entries.total_lessen_of_central h.positive hcentral
      have hlost : share * median ≤ (s.sampleSize - s.sampleSize / 2 : ℕ) * median :=
        Int.mul_le_mul_of_nonneg_right hle hmedian.le
      have htotal := Entries.total_perm hholds.perm
      change share * (s.offset + median) + Entries.total table.entries ≤ _
      rw [htotal, mul_add]
      omega
    · intro hoffset
      -- a purge always adds to the offset
      change s.offset + median = s.offset at hoffset
      omega

theorem Step.drift {e : ℤ × ℤ} {events : List Event} (h : s.Sound) (hs : Step s e t events) :
    Drift s t (fun x => if x = e.1 then e.2 else 0) e.2 := by
  cases hs with
  | idle item =>
    have := Drift.refl s
    simpa using this
  | @counted item count table _ _ word positive bounded holds room =>
    have hdistinct := h.holds.distinct
    have hcount := h.count_of_add holds
    have htotal : Entries.total table.entries = s.counters.total + count := by
      rw [Entries.total_perm holds.perm, Entries.total_add hdistinct]
    -- the counter is added to before room is made
    have hadded : Drift s (s.withCount table count) (fun x => if x = item then count else 0) count := by
      refine ⟨rfl, rfl, fun _ => bounded, fun _ => rfl, ?_, le_rfl, ?_, ?_, ?_, fun _ => htotal⟩
      · intro hs x hx
        rcases Entries.mem_keys_add_iff.mp (holds.keys_perm.mem_iff.mp hx) with rfl | hx
        · exact word
        · exact hs x hx
      · intro x
        exact (hcount x).le
      · intro x
        simp only [withCount, hcount]
        omega
      · intro share _ _
        simp only [withCount, counters, htotal]
        omega
    have hdrift := hadded.trans (room.drift (h.withCount positive holds).1)
    simpa using hdrift

/-- **What an update does to the counters**: that of the item gains what is counted, and then all of them
lose what the offset gains, as far as they have it. -/
theorem Step.count_eq {e : ℤ × ℤ} {events : List Event} (h : s.Sound) (hs : Step s e t events) (x : ℤ) :
    t.table.count x =
      max 0 (s.table.count x + (if x = e.1 then e.2 else 0) - (t.offset - s.offset)) := by
  cases hs with
  | idle item =>
    have := h.count_nonneg x
    split_ifs <;> omega
  | @counted item count table _ _ word positive bounded holds room =>
    rw [room.count_eq (h.withCount positive holds).1]
    change max 0 (table.count x - (t.offset - s.offset)) = _
    rw [h.count_of_add holds]

/-! ### Runs -/

/-- **The drift of a run** is told by the tally of what was counted. -/
theorem Run.drift {es : Entries} {events : List Event} (h : s.Sound) (hr : Run s es t events) :
    Drift s t es.tally es.total := by
  induction hr with
  | nil s => exact .refl s
  | @cons s t u e es _ _ step _ ih =>
    have hdrift := (step.drift h).trans (ih (step.sound h))
    rw [Entries.total_cons]
    refine cast (congrArg (fun f => Drift s u f _) (funext fun x => ?_)) hdrift
    exact (Entries.tally_cons e es x).symm

end Sketch

end HeavyHitters
