import HeavyHitters.Proofs.Sketch.Copies

/-!
# Sketches whose numbers fit into 64 bits

Nothing checks the offset or a counter against 64 bits. They stay in bounds because the stream length
does, and because it is at least their sum: a sketch with both properties is `Covered`. An update keeps
this, since what a purge adds to the offset the counters have lost, and so does a merge, which adds all
three.

A sketch that is loaded need not be covered, though, because what is recorded is taken as it is. So
the numbers of a sketch fit as long as all that was loaded on the way was covered (`Vetted`).

## What is proved

* `covered_kept`: calls keep a sketch covered.
* `Loaded.covered`: what is loaded is covered if what is recorded is.
* `numbers_fit`: the numbers of a vetted sketch fit into 64 bits, and it can be written as bytes.
-/

namespace HeavyHitters

/-- The recorded stream length fits into 64 bits, and is at least the sum of the recorded offset and all
recorded counts. -/
def Snapshot.Record.Covered (r : Snapshot.Record) : Prop :=
  ∃ es, Entries.ofPairs? r.entries = some es ∧ r.offset.value + es.total ≤ r.streamLength.value ∧
    r.streamLength.value ≤ maxWord

namespace Sketch

variable {s t : Sketch}

/-- The stream length fits into 64 bits, and is at least the sum of the offset and all counters. -/
structure Covered (s : Sketch) : Prop where
  /-- The stream length covers the rest. -/
  covers : s.offset + s.counters.total ≤ s.streamLength
  /-- It is in bounds. -/
  bounded : s.streamLength ≤ maxWord

/-- What the offset gains in a run the counters have lost. -/
private theorem Run.offset_add_total_le {es : Entries} {events : List Event} (h : s.Sound)
    (run : Run s es t events) : t.offset + t.counters.total ≤ s.offset + s.counters.total + es.total := by
  have hshare : (1 : ℤ) ≤ errorShare s.lgMax := by
    exact_mod_cast errorShare_pos (h.lgMin_le.trans h.lgLength_le)
  have hmass := (run.drift h).mass 1 zero_le_one hshare
  omega

theorem Fresh.covered (h : s.Fresh) : s.Covered := by
  refine ⟨?_, ?_⟩
  · rw [h.offset_eq, h.counters_eq, h.streamLength_eq]
    decide
  · rw [h.streamLength_eq]
    decide

/-- **Calls keep a sketch covered.** -/
theorem covered_kept : Kept Covered where
  step := by
    intro s t e events h hs step
    have run : Run s [e] t (events ++ []) := .cons step (.nil t)
    have hle := run.offset_add_total_le h
    have hlength := (run.drift h).streamLength_eq
    have hcovers := hs.covers
    exact ⟨by omega, (run.drift h).bounded hs.bounded⟩
  withTotals := by
    intro s other u events h hs hother hcovered run hbound
    have hle := run.offset_add_total_le h
    have hcovers := hs.covers
    have hcovers' := hcovered.covers
    refine ⟨?_, hbound⟩
    change u.offset + other.offset + u.counters.total ≤ s.streamLength + other.streamLength
    omega

/-- **What is loaded is covered** if what is recorded is, even if it is purged while it is loaded. -/
theorem Loaded.covered {r : Snapshot.Record} (h : Loaded r t) (hr : r.Covered) : t.Covered := by
  obtain ⟨es, hes, hcovers, hbounded⟩ := hr
  cases h with
  | @intro fresh u fs _ _ hfresh _ _ hfs run _ _ =>
    obtain rfl : es = fs := Option.some.inj (hes.symm.trans hfs)
    have hle := run.offset_add_total_le hfresh.sound
    rw [hfresh.offset_eq, hfresh.counters_eq] at hle
    refine ⟨?_, hbounded⟩
    change u.offset + r.offset.value + u.counters.total ≤ r.streamLength.value
    have hnone : Entries.total [] = 0 := rfl
    omega

/-! ### Vetted sketches -/

/-- The sketches that can be made by operations of any kind, in any order, if the records of all that is
loaded are covered. Each operation draws from a source of its own. -/
inductive Vetted : Sketch → Prop
  /-- A new sketch, of a greatest length. -/
  | ofSize {maxLength seed : Scalar} {s : Sketch} (h : ofSize maxLength seed = .ok s) : Vetted s
  /-- A new sketch, of the logarithms of two lengths. -/
  | ofLog2 {lgMax lgLength seed : Scalar} {s : Sketch} (h : ofLog2 lgMax lgLength seed = .ok s) : Vetted s
  /-- A sketch that is loaded from a covered record, however that is encoded. -/
  | load {src : DrawSource} {origin : Origin} {s : Sketch} (h : (origin.load src).result = .ok s)
      (hcovered : ∀ r ∈ origin.record?, r.Covered) : Vetted s
  /-- What a call leaves behind, also if it fails. -/
  | call {s : Sketch} (src : DrawSource) (c : Call) (h : Vetted s)
      (hother : ∀ other, c = .merge (.sketch other) → Vetted other) : Vetted (c.run src s).state
  /-- A sketch that is reset. -/
  | reset {s : Sketch} (h : Vetted s) : Vetted s.reset

theorem Vetted.reachable (h : Vetted s) : Reachable s := by
  induction h with
  | ofSize h => exact .ofSize h
  | ofLog2 h => exact .ofLog2 h
  | load h => exact .load h
  | call src c _ _ ih ihother => exact .call src c ih ihother
  | reset _ ih => exact .reset ih

theorem Vetted.covered (h : Vetted s) : s.Covered := by
  induction h with
  | ofSize h => exact (ofSize_fresh h).1.covered
  | ofLog2 h => exact (ofLog2_fresh h).1.covered
  | load h hcovered =>
    obtain ⟨r, hr, hloaded⟩ := Origin.exists_loaded h
    exact hloaded.covered (hcovered r hr)
  | call src c h hother ih ihother =>
    exact covered_kept.call src h.reachable.sound ih c fun other hc =>
      ⟨(hother other hc).reachable.sound, ihother other hc⟩
  | reset h => exact (reset_fresh h.reachable.sound).covered

/-- **The numbers of a vetted sketch fit into 64 bits**: its stream length, its offset and all its
counters. So it can be written as bytes. -/
theorem numbers_fit (h : Vetted s) :
    (0 ≤ s.streamLength ∧ s.streamLength ≤ maxWord) ∧ (0 ≤ s.offset ∧ s.offset ≤ maxWord) ∧
      (∀ e ∈ s.counters, 0 ≤ e.2 ∧ e.2 ≤ maxWord) ∧ ∃ bs, s.toBytes = .ok bs := by
  have hsound := h.reachable.sound
  have hnumbered := h.reachable.numbered
  have hcovers := h.covered.covers
  have hbounded := h.covered.bounded
  have htotal := hsound.total_nonneg
  have hoffset := hnumbered.offset_nonneg
  have hcounts : ∀ n ∈ s.counters.values, n ≤ maxWord := by
    intro n hn
    have hle := hsound.le_total hn
    omega
  have hstreamLength : 0 ≤ s.streamLength ∧ s.streamLength ≤ maxWord := ⟨by omega, hbounded⟩
  have hoffset' : 0 ≤ s.offset ∧ s.offset ≤ maxWord := ⟨hoffset, by omega⟩
  refine ⟨hstreamLength, hoffset', fun e he => ?_, ?_⟩
  · have hmem : e.2 ∈ s.counters.values := List.mem_map_of_mem he
    exact ⟨(hsound.positive e.2 hmem).le, hcounts e.2 hmem⟩
  · exact (hsound.writable hnumbered.words hstreamLength hoffset' hcounts).exists_toBytes

/-- The line of a sketch whose numbers are as great as they can be. -/
def brimfulLine : String := "1,10,3,0,1,9223372036854775807,9223372036854775800,1,8,5,7"

/-- It is covered, and so what is loaded from it fits. -/
theorem numbers_fit_brimful :
    ∃ s bs, ((Origin.line brimfulLine).load leastDraws).result = .ok s ∧ Vetted s ∧
      s.streamLength = maxWord ∧ s.offset + s.counters.total = maxWord ∧ s.toBytes = .ok bs := by
  have hcovered : ∀ r ∈ (Origin.line brimfulLine).record?, r.Covered := by
    have hread : Snapshot.ofLine .usual brimfulLine =
        .ok ⟨3, 3, 9223372036854775807, 9223372036854775800, [(5, 7)]⟩ := by
      decide +kernel
    rw [Origin.record?, hread]
    rintro _ ⟨⟩
    exact ⟨[(5, 7)], rfl, by decide, by decide⟩
  have hloaded : ∃ s ∈ ((Origin.line brimfulLine).load leastDraws).result.toOption,
      s.streamLength = maxWord ∧ s.offset + s.counters.total = maxWord := by
    decide +kernel
  obtain ⟨s, hmem, hstreamLength, hcovers⟩ := hloaded
  have hload := mem_toOption_iff.mp hmem
  have hvetted : Vetted s := .load hload hcovered
  obtain ⟨-, -, -, bs, hsave⟩ := numbers_fit hvetted
  exact ⟨s, bs, hload, hvetted, hstreamLength, hcovers, hsave⟩

/-- The line of a sketch whose stream length does not fit into 64 bits. -/
def overfullLine : String := "1,10,3,0,1,9223372036854775808,0,0,8"

/-- It can be loaded, but not be written as bytes, since a number does not fit its field. -/
theorem numbers_unfit_overfull :
    ∃ s, ((Origin.line overfullLine).load leastDraws).result = .ok s ∧ Reachable s ∧
      maxWord < s.streamLength ∧ s.toBytes = .error .fieldWidth ∧ Error.fieldWidth.kind = .field := by
  have hloaded : ∃ s ∈ ((Origin.line overfullLine).load leastDraws).result.toOption,
      maxWord < s.streamLength ∧ s.toBytes = .error .fieldWidth := by
    decide +kernel
  obtain ⟨s, hmem, hover, hsave⟩ := hloaded
  have hload := mem_toOption_iff.mp hmem
  exact ⟨s, hload, .load hload, hover, hsave, rfl⟩

end Sketch

end HeavyHitters
