import HeavyHitters.Proofs.Sketch.Genuine
import HeavyHitters.Sketch.Query

/-!
# Bounds

What a genuine sketch answers can be relied on. The bounds of an item enclose its true count, as it
was counted in all the sketches that were folded together, and they differ by no more than the
maximum error. The maximum error itself is bounded by the stream length, for certain and not only
with high probability: the draws of a purge decide which counters are dropped, but never how many of
them pay for the offset.

## What is proved

* `bounds_enclose_count`: the bounds of an item enclose its true count.
* `error_paid_for`: the maximum error is paid for by the stream length.
-/

namespace HeavyHitters.Sketch

variable {s : Sketch} {hist : History}

/-! ### The bounds of an item -/

theorem lowerBound_eq {x : ℤ} (hx : IsWord x) : s.lowerBound (.int x) = .ok (s.table.count x) := by
  rw [lowerBound, Scalar.toWord_int_of_isWord hx]
  rfl

theorem upperBound_eq {x : ℤ} (hx : IsWord x) :
    s.upperBound (.int x) = .ok (s.table.count x + s.offset) := by
  rw [upperBound, Scalar.toWord_int_of_isWord hx]
  rfl

theorem estimate_eq {x : ℤ} (hx : IsWord x) :
    s.estimate (.int x) = .ok (if 0 < s.table.count x then s.table.count x + s.offset else 0) := by
  rw [estimate, Scalar.toWord_int_of_isWord hx]
  rfl

/-- The items that have a counter are those that have a positive one. -/
theorem Sound.contains_iff (h : s.Sound) {x : ℤ} : s.table.contains x = true ↔ 0 < s.table.count x :=
  h.holds.contains_iff.trans h.mem_keys_iff

/-- An item that has a counter has a positive one. -/
theorem Sound.count_pos (h : s.Sound) {x : ℤ} (hx : s.table.contains x = true) : 0 < s.table.count x :=
  h.contains_iff.mp hx

/-- **The bounds of an item enclose its true count** in every genuine sketch, and differ by at most
the maximum error. The estimate of an item that has a counter is its upper bound. -/
theorem bounds_enclose_count {x : ℤ} (h : Genuine s hist) (hx : IsWord x) :
    ∃ lower upper estimate, s.lowerBound (.int x) = .ok lower ∧ s.upperBound (.int x) = .ok upper ∧
      s.estimate (.int x) = .ok estimate ∧ lower ≤ hist.count x ∧ hist.count x ≤ upper ∧
      upper - lower ≤ s.maximumError ∧ (s.table.contains x = true → estimate = upper) := by
  have haccounted := h.accounted
  refine ⟨_, _, _, lowerBound_eq hx, upperBound_eq hx, estimate_eq hx, haccounted.lower x,
    haccounted.upper x, ?_, fun hcontains => if_pos (haccounted.sound.count_pos hcontains)⟩
  rw [maximumError]
  omega

/-- The crowded sketch, merged into itself. -/
def doubled : Sketch := (crowded.state.merge leastDraws crowded.state).state

/-- What was counted in it. -/
def doubledHistory : History :=
  (History.none.extend crowd).merge crowded.state.lgMax (History.none.extend crowd)

theorem genuine_crowded : Genuine crowded.state (History.none.extend crowd) :=
  .extend leastDraws crowd (.ofSize ofSize_eq_narrow) (by decide +kernel)

theorem genuine_doubled : Genuine doubled doubledHistory :=
  .merge leastDraws genuine_crowded genuine_crowded (by decide +kernel)

/-- Five was counted ten times, and four of them were purged. -/
theorem bounds_enclose_count_doubled :
    doubledHistory.count 5 = 10 ∧ doubled.table.count 5 = 6 ∧ Genuine doubled doubledHistory ∧ IsWord 5 ∧
      ∃ lower upper estimate, doubled.lowerBound (.int 5) = .ok lower ∧
        doubled.upperBound (.int 5) = .ok upper ∧ doubled.estimate (.int 5) = .ok estimate ∧
        lower ≤ doubledHistory.count 5 ∧ doubledHistory.count 5 ≤ upper ∧
        upper - lower ≤ doubled.maximumError ∧ (doubled.table.contains 5 = true → estimate = upper) :=
  ⟨by decide +kernel, by decide +kernel, genuine_doubled, by decide,
    bounds_enclose_count genuine_doubled (by decide)⟩

/-! ### The maximum error -/

/-- In a sketch of at most 512 slots the error share is at least a quarter of them. -/
theorem powerOfTwo_le_errorShare {lgMax : ℕ} (hmin : lgMinLength ≤ lgMax) (h : powerOfTwo lgMax ≤ 512) :
    powerOfTwo lgMax ≤ 4 * errorShare lgMax := by
  have := eight_le_powerOfTwo hmin
  simp only [errorShare, sampleLimit, loadLimit]
  omega

/-- The maximum error of a sketch that nothing was folded into. -/
theorem Accounted.error_le (h : Accounted s hist) (hfolded : hist.folded = [])
    (hsize : powerOfTwo s.lgMax ≤ 512) : s.maximumError * powerOfTwo s.lgMax ≤ 4 * s.streamLength := by
  have hshare : hist.share s.lgMax = errorShare s.lgMax := by
    rw [History.share, hfolded]
    rfl
  have hquarter : (powerOfTwo s.lgMax : ℤ) ≤ 4 * hist.share s.lgMax := by
    have := powerOfTwo_le_errorShare (h.sound.lgMin_le.trans h.sound.lgLength_le) hsize
    rw [hshare]
    exact_mod_cast this
  have hpaid : hist.share s.lgMax * s.offset ≤ s.streamLength := by
    have := h.mass
    have := h.total_nonneg
    omega
  calc s.maximumError * powerOfTwo s.lgMax
      ≤ s.offset * (4 * hist.share s.lgMax) := Int.mul_le_mul_of_nonneg_left hquarter h.offset_nonneg
    _ = 4 * (hist.share s.lgMax * s.offset) := by ring
    _ ≤ 4 * s.streamLength := by omega

/-- **The maximum error of a genuine sketch is paid for by the stream length**, at the least error
share of all sketches that were folded into it, and with the counters it still has. So no upper bound
exceeds the stream length, and where nothing was folded in, the maximum error is at most four times
the stream length divided by the greatest length, if that is not above 512. -/
theorem error_paid_for (h : Genuine s hist) :
    hist.share s.lgMax * s.maximumError + s.counters.total ≤ s.streamLength ∧
      s.streamLength ≤ maxWord ∧
      (∀ x, IsWord x → ∃ upper, s.upperBound (.int x) = .ok upper ∧ upper ≤ s.streamLength) ∧
      (hist.folded = [] → powerOfTwo s.lgMax ≤ 512 →
        s.maximumError * powerOfTwo s.lgMax ≤ 4 * s.streamLength) := by
  have haccounted := h.accounted
  exact ⟨haccounted.mass, haccounted.bounded, fun x hx => ⟨_, upperBound_eq hx, haccounted.upper_le x⟩,
    haccounted.error_le⟩

/-- Of the counts that were sampled three paid for the purge, and in the merge they count twice. -/
theorem error_paid_for_doubled :
    doubledHistory.share doubled.lgMax = 3 ∧ doubled.maximumError = 4 ∧ doubled.streamLength = 34 ∧
      Genuine doubled doubledHistory ∧
      doubledHistory.share doubled.lgMax * doubled.maximumError + doubled.counters.total
        ≤ doubled.streamLength :=
  ⟨by decide +kernel, by decide +kernel, by decide +kernel, genuine_doubled,
    (error_paid_for genuine_doubled).1⟩

end HeavyHitters.Sketch
