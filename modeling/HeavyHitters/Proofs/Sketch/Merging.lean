import HeavyHitters.Proofs.Sketch.Acceptance
import HeavyHitters.Proofs.Sketch.Invariants

/-!
# When a merge fails, and what it leaves behind

A merge checks once whether the recorded stream lengths fit together, and then counts the counters of
the other sketch anew, each of which is checked against the stream length for itself. If the counters
add up to no more than the recorded stream length, as they do in every genuine sketch, the first check
is enough. But a sketch may be loaded whose counters add up to more. Then a merge can begin, and fail
at a later counter: it is `Torn`, and the counters before that one stay counted.

## What is proved

* `accept_error_iff`: which counters are refused.
* `Merged.failure_iff`: when a merge fails.
* `Merged.state_eq_iff`: it has changed nothing then, unless it is torn.
* `merge_atomic_iff`: all this for reachable sketches, and that a torn merge leaves counters behind.
-/

namespace HeavyHitters.Sketch

variable {s t other : Sketch}

/-- A merge of `other` into `s` is torn: it passes the check of the stream lengths, and the first counter
can be counted, but not all of them can. -/
structure Torn (s other : Sketch) : Prop where
  /-- There is something to fold in. -/
  full : other.isEmpty = false
  /-- The recorded stream lengths fit together. -/
  checked : s.streamLength + other.streamLength ≤ maxWord
  /-- The first counter fits. -/
  begun : ∃ e ∈ other.counters.head?, s.streamLength + e.2 ≤ maxWord
  /-- All counters together do not. -/
  broken : maxWord < s.streamLength + other.counters.total

/-- **A positive count of a 64-bit integer is refused** only if it carries the stream length out of
bounds. -/
theorem accept_error_iff {item count : ℤ} (hitem : IsWord item) (hcount : 0 < count)
    (hlength : 0 ≤ s.streamLength) :
    (∃ e, s.accept (.int item) (.int count) = .error e) ↔ maxWord < s.streamLength + count := by
  simp only [accept_eq_error_iff, exists_refusal_iff]
  constructor
  · rintro (hkind | hrange | ⟨n, hn, hneg | ⟨-, hover⟩⟩)
    · exact absurd ⟨rfl, hitem⟩ (hkind item)
    · by_contra hle
      exact hrange count ⟨rfl, le_trans (by decide) hcount.le, by omega⟩
    · cases hn
      omega
    · cases hn
      exact hover
  · intro hover
    exact .inr (.inr ⟨count, rfl, .inr ⟨hcount, hover⟩⟩)

/-! ### How a merge fails -/

/-- A torn merge does not stop before the first counter. -/
private theorem Torn.ne_nil {before after : Entries} {e : ℤ × ℤ} (h : Torn s other)
    (hcounters : other.counters = before ++ e :: after)
    (hover : maxWord < s.streamLength + Entries.total before + e.2) : before ≠ [] := by
  rintro rfl
  obtain ⟨f, hf, hfits⟩ := h.begun
  rw [hcounters] at hf
  cases hf
  simp only [Entries.total, Entries.values, List.map_nil, List.sum_nil] at hover
  omega

section

variable {o : Outcome Sketch} {before after : Entries} {e : ℤ × ℤ} {events : List Event} {error : Error}
  (hs : s.Sound) (hn : s.Numbered) (hother : other.Sound) (hn' : other.Numbered)

include hs hn hother hn'

/-- Where a merge stops, the stream length is what was counted before, and the next counter carries it
out of bounds. -/
private theorem stop_cases (hcounters : other.counters = before ++ e :: after) (run : Run s before t events)
    (herror : t.accept (.int e.1) (.int e.2) = .error error) :
    t.streamLength = s.streamLength + Entries.total before ∧
      maxWord < s.streamLength + Entries.total before + e.2 ∧
        Entries.total before + e.2 ≤ other.counters.total := by
  have hmem : e ∈ other.counters := by
    rw [hcounters]
    exact List.mem_append_right _ List.mem_cons_self
  have hlength := (run.drift hs).streamLength_eq
  have hover := (accept_error_iff (hn'.words e.1 (List.mem_map_of_mem hmem))
    (hother.positive e.2 (List.mem_map_of_mem hmem)) (numbered_kept.run hs hn run).streamLength_nonneg).mp
    ⟨error, herror⟩
  refine ⟨hlength, hlength ▸ hover, ?_⟩
  rw [hcounters]
  exact Entries.total_add_le fun n hn => (hother.positive n (hcounters ▸ hn)).le

/-- **A merge fails** exactly if the recorded stream lengths do not fit together, or what is counted does
not fit. -/
theorem Merged.failure_iff (h : Merged s other o) :
    o.failure ≠ none ↔ other.isEmpty = false ∧
      (maxWord < s.streamLength + other.streamLength ∨ maxWord < s.streamLength + other.counters.total) := by
  have hnonneg := hn'.streamLength_nonneg
  cases h with
  | idle hempty => simp [Outcome.ok, hempty]
  | refused hempty hover => simp [Outcome.fail, hempty, hover]
  | stopped hempty _ hcounters run herror =>
    obtain ⟨-, hover, hle⟩ := stop_cases hs hn hother hn' hcounters run herror
    simp only [ne_eq, reduceCtorEq, not_false_eq_true, hempty, true_and, true_iff]
    omega
  | folded hempty hbound run =>
    have hdrift := run.drift hs
    have hle := hdrift.bounded (by omega)
    rw [hdrift.streamLength_eq] at hle
    simp only [ne_eq, not_true_eq_false, hempty, true_and, false_iff]
    omega

/-- **A merge that fails has changed nothing**, unless it is torn. -/
theorem Merged.state_eq_iff (h : Merged s other o) (hfailure : o.failure ≠ none) :
    o.state = s ↔ ¬ Torn s other := by
  have hnonneg := hn'.streamLength_nonneg
  cases h with
  | idle => exact absurd rfl hfailure
  | refused _ hover => exact ⟨fun _ htorn => absurd htorn.checked (not_le.mpr hover), fun _ => rfl⟩
  | @stopped before after e t _ _ hempty hbound hcounters run herror =>
    obtain ⟨hlength, hover, hle⟩ := stop_cases hs hn hother hn' hcounters run herror
    cases before with
    | nil =>
      cases run
      exact ⟨fun _ htorn => absurd rfl (htorn.ne_nil hcounters hover), fun _ => rfl⟩
    | cons f before =>
      have hpositive := hother.positive
      rw [hcounters] at hpositive
      have hfirst : 0 < f.2 := hpositive f.2 List.mem_cons_self
      have hrest : 0 ≤ Entries.total before := by
        refine List.sum_nonneg fun n hn => (hpositive n ?_).le
        exact List.mem_cons_of_mem _ (List.map_append ▸ List.mem_append_left _ hn)
      have hfits := (run.drift hs).bounded (by omega)
      rw [Entries.total_cons] at hlength hover hle
      -- the first counter stays counted
      have htorn : Torn s other := ⟨hempty, hbound, ⟨f, by rw [hcounters]; rfl, by omega⟩, by omega⟩
      refine ⟨fun hsame => ?_, fun hnot => absurd htorn hnot⟩
      have hsame' : t.streamLength = s.streamLength := congrArg streamLength hsame
      omega
  | folded => exact absurd rfl hfailure

/-- **A torn merge leaves counters behind**: some of the other sketch, from the first on. -/
theorem Merged.of_torn (h : Merged s other o) (htorn : Torn s other) :
    ∃ before, before ≠ [] ∧ before <+: other.counters ∧
      o.state.streamLength = s.streamLength + Entries.total before := by
  cases h with
  | idle hempty => simp [htorn.full] at hempty
  | refused _ hover => exact absurd htorn.checked (not_le.mpr hover)
  | @stopped before after e _ _ _ _ _ hcounters run herror =>
    obtain ⟨hlength, hover, -⟩ := stop_cases hs hn hother hn' hcounters run herror
    exact ⟨before, htorn.ne_nil hcounters hover, ⟨e :: after, hcounters.symm⟩, hlength⟩
  | folded hempty hbound run =>
    have hfailure := (Merged.failure_iff hs hn hother hn' (.folded hempty hbound run)).mpr
      ⟨hempty, .inr htorn.broken⟩
    exact absurd rfl hfailure

end

/-- However a merge fails, it complains about a value. -/
theorem Merged.kind_eq {o : Outcome Sketch} {e : Error} (h : Merged s other o) (he : o.failure = some e) :
    e.kind = .value := by
  cases h with
  | idle => cases he
  | refused =>
    cases he
    rfl
  | stopped _ _ _ _ herror =>
    cases he
    exact (accept_eq_error_iff.mp herror).kind_eq
  | folded => cases he

/-- **When a merge fails, and what it changes then.** It fails exactly if the recorded stream lengths, or
the stream length and the counters, add up to more than 64 bits hold, and it has changed nothing then
unless it is torn. A torn one leaves counters behind. If the counters of the other sketch add up to no
more than its stream length, no merge of it is torn. -/
theorem merge_atomic_iff (h : Reachable s) (hother : Reachable other) (src : DrawSource) :
    let o := s.merge src other
    (o.failure ≠ none ↔ other.isEmpty = false ∧
      (maxWord < s.streamLength + other.streamLength ∨ maxWord < s.streamLength + other.counters.total)) ∧
    (o.failure ≠ none → (o.state = s ↔ ¬ Torn s other)) ∧
    (Torn s other → ∃ before, before ≠ [] ∧ before <+: other.counters ∧
      o.state.streamLength = s.streamLength + Entries.total before) ∧
    (other.counters.total ≤ other.streamLength → ¬ Torn s other) ∧
    ∀ e, o.failure = some e → e.kind = .value := by
  have hends := merge_ends src h.sound other
  refine ⟨hends.failure_iff h.sound h.numbered hother.sound hother.numbered,
    hends.state_eq_iff h.sound h.numbered hother.sound hother.numbered,
    hends.of_torn h.sound h.numbered hother.sound hother.numbered, fun hcovered htorn => ?_,
    fun e he => hends.kind_eq he⟩
  have hchecked := htorn.checked
  have hbroken := htorn.broken
  omega

/-- The crowd does not fit into the brimming sketch, which stays as it is. -/
theorem merge_atomic_iff_brimming :
    Reachable brimming ∧ Reachable crowded.state ∧ (brimming.merge leastDraws crowded.state).failure ≠ none ∧
      (brimming.merge leastDraws crowded.state).state = brimming := by
  have hcrowded : Reachable crowded.state :=
    .call leastDraws (.extend (crowd.map .int)) (.ofSize ofSize_eq_narrow) fun _ hc => by cases hc
  obtain ⟨hfails, hchanges, -, hcovered, -⟩ := merge_atomic_iff reachable_brimming hcrowded leastDraws
  have hfailure := hfails.mpr ⟨by decide +kernel, .inl (by decide +kernel)⟩
  exact ⟨reachable_brimming, hcrowded, hfailure, (hchanges hfailure).mpr (hcovered (by decide +kernel))⟩

/-- The line of a sketch whose two counters add up to more than its stream length. -/
def understated : Origin := .line "1,10,3,0,1,1,0,2,8,1,5,2,6"

/-- The first of its counters fits into the brimming sketch, but not the second. -/
theorem merge_torn_understated :
    ∃ other, (understated.load leastDraws).result = .ok other ∧ Reachable brimming ∧ Reachable other ∧
      (brimming.merge leastDraws other).failure = some .streamOverflow ∧
      brimming.streamLength = 9223372036854775801 ∧
      (brimming.merge leastDraws other).state.streamLength = 9223372036854775806 := by
  have hloaded : ∃ other ∈ (understated.load leastDraws).result.toOption,
      (brimming.merge leastDraws other).failure = some .streamOverflow ∧
        (brimming.merge leastDraws other).state.streamLength = 9223372036854775806 := by
    decide +kernel
  obtain ⟨other, hmem, hfailure, hlength⟩ := hloaded
  have hload := mem_toOption_iff.mp hmem
  exact ⟨other, hload, reachable_brimming, .load hload, hfailure, by decide +kernel, hlength⟩

end HeavyHitters.Sketch
