import HeavyHitters.Proofs.Sketch.Invariants
import HeavyHitters.Proofs.Snapshot.Binary
import HeavyHitters.Proofs.Snapshot.Line
import HeavyHitters.Sketch.Merge

/-!
# Genuine sketches

A sketch is genuine if it comes from new sketches by successful calls alone: it was updated, other
genuine sketches were merged into it, it was reset, or it is a copy of a genuine one, made by saving
and loading it in any of the three ways. What was really counted in it is its history, which no
sketch keeps: the exact count of every item, and which sketches have been folded in.

A genuine sketch is `Accounted` for by its history. The counters are below the counts by no more than
the offset, and the offset is paid for by the stream length, at the least rate of all sketches that
had a part in it. Each operation keeps the account: an update and the replay of a merge are runs,
whose drift is known, and so is the replay of a copy, which may even be purged again.

## What is proved

* `merge_cases`, `ofSnapshot_cases`: what a merge and a loading consist of.
* `Genuine.accounted`: every genuine sketch is accounted for by its history.
-/

namespace HeavyHitters

/-! ### Histories -/

/-- What was counted in a sketch since it was made or reset. -/
structure History where
  /-- How often each item was counted. -/
  count : ℤ → ℤ
  /-- The greatest lengths, by their logarithms, of the sketches that were folded in, directly or as
  part of another. -/
  folded : List ℕ

namespace History

/-- Nothing was counted. -/
def none : History := ⟨fun _ => 0, []⟩

/-- An item was counted some times more. -/
def update (h : History) (item count : ℤ) : History :=
  { h with count := fun x => h.count x + if x = item then count else 0 }

/-- Some items were counted once each. -/
def extend (h : History) (items : List ℤ) : History :=
  { h with count := fun x => h.count x + items.count x }

/-- What a run adds to a history is the tally of what is counted in it. -/
def tallied (h : History) (es : Entries) : History :=
  { h with count := fun x => h.count x + es.tally x }

theorem count_tallied (h : History) (es : Entries) (x : ℤ) :
    (h.tallied es).count x = h.count x + es.tally x := rfl

theorem update_eq (h : History) (item count : ℤ) : h.update item count = h.tallied [(item, count)] := by
  simp only [update, tallied, Entries.tally_cons]
  congr 1
  funext x
  exact congrArg _ (add_zero _).symm

theorem extend_eq (h : History) (items : List ℤ) :
    h.extend items = h.tallied (items.map fun x => (x, 1)) := by
  simp only [extend, tallied, Entries.tally_ones]

/-- A sketch of the greatest length `2 ^ lgMax` with the history `h'` was folded in. -/
def merge (h : History) (lgMax : ℕ) (h' : History) : History where
  count x := h.count x + h'.count x
  folded := h.folded ++ lgMax :: h'.folded

/-- The least error share of a sketch of greatest length `2 ^ lgMax` and of all that were folded into
it. -/
def share (h : History) (lgMax : ℕ) : ℕ :=
  (h.folded.map Sketch.errorShare).foldr min (Sketch.errorShare lgMax)

private theorem le_foldr_min {k a : ℕ} {ks : List ℕ} : k ≤ ks.foldr min a ↔ k ≤ a ∧ ∀ b ∈ ks, k ≤ b := by
  induction ks with
  | nil => simp
  | cons b ks ih =>
    rw [List.foldr_cons, le_min_iff, ih, List.forall_mem_cons]
    exact and_left_comm

theorem le_share_iff {h : History} {lgMax k : ℕ} :
    k ≤ h.share lgMax ↔ k ≤ Sketch.errorShare lgMax ∧ ∀ lg ∈ h.folded, k ≤ Sketch.errorShare lg := by
  rw [share, le_foldr_min, List.forall_mem_map]

theorem share_le (h : History) (lgMax : ℕ) : (h.share lgMax : ℤ) ≤ Sketch.errorShare lgMax :=
  Int.ofNat_le.mpr (le_share_iff.mp le_rfl).1

/-- Folding a sketch in does not raise the share above that of either. -/
theorem share_merge_le (h h' : History) (lgMax lgMax' : ℕ) :
    (h.merge lgMax' h').share lgMax ≤ h.share lgMax ∧ (h.merge lgMax' h').share lgMax ≤ h'.share lgMax' := by
  obtain ⟨hself, hfolded⟩ := le_share_iff.mp (le_refl ((h.merge lgMax' h').share lgMax))
  have hleft : ∀ lg ∈ h.folded, lg ∈ (h.merge lgMax' h').folded :=
    fun lg hlg => List.mem_append_left _ hlg
  have hright : ∀ lg ∈ lgMax' :: h'.folded, lg ∈ (h.merge lgMax' h').folded :=
    fun lg hlg => List.mem_append_right _ hlg
  exact ⟨le_share_iff.mpr ⟨hself, fun lg hlg => hfolded lg (hleft lg hlg)⟩,
    le_share_iff.mpr ⟨hfolded lgMax' (hright _ List.mem_cons_self),
      fun lg hlg => hfolded lg (hright lg (List.mem_cons_of_mem _ hlg))⟩⟩

/-- A sketch that is folded into a fresh one of the same greatest length keeps its share. -/
theorem share_none_merge (h : History) (lgMax : ℕ) : (none.merge lgMax h).share lgMax = h.share lgMax := by
  refine le_antisymm (share_merge_le none h lgMax lgMax).2 (le_share_iff.mpr ?_)
  obtain ⟨hself, hfolded⟩ := le_share_iff.mp (le_refl (h.share lgMax))
  exact ⟨hself, List.forall_mem_cons.mpr ⟨hself, hfolded⟩⟩

end History

namespace Sketch

/-- Some of the sampled counts reach the median. -/
theorem errorShare_pos {lgMax : ℕ} (h : lgMinLength ≤ lgMax) : 0 < errorShare lgMax := by
  have := eight_le_powerOfTwo h
  simp only [errorShare, sampleLimit, loadLimit]
  omega

/-- The sketches that come from new ones by successful calls, with their histories. Every call draws
from a source of its own, and a sketch may be merged into itself. What is counted are integers: anything
else is refused (`accept_eq_ok_iff`), unless it is an integer as an index, and then it is counted as this
integer (`update_of_index?`). -/
inductive Genuine : Sketch → History → Prop
  /-- A new sketch, of a greatest length. -/
  | ofSize {maxLength seed : Scalar} {s : Sketch} (h : ofSize maxLength seed = .ok s) :
      Genuine s .none
  /-- A new sketch, of the logarithms of two lengths. -/
  | ofLog2 {lgMax lgLength seed : Scalar} {s : Sketch} (h : ofLog2 lgMax lgLength seed = .ok s) :
      Genuine s .none
  /-- An item is counted. -/
  | update {s : Sketch} {hist : History} (src : DrawSource) (item count : ℤ) (hs : Genuine s hist)
      (hok : (s.update src (.int item) (.int count)).failure = none) :
      Genuine (s.update src (.int item) (.int count)).state (hist.update item count)
  /-- Items are counted once each. -/
  | extend {s : Sketch} {hist : History} (src : DrawSource) (items : List ℤ) (hs : Genuine s hist)
      (hok : (s.extend src (items.map .int)).failure = none) :
      Genuine (s.extend src (items.map .int)).state (hist.extend items)
  /-- A sketch is folded in. -/
  | merge {s other : Sketch} {hist hist' : History} (src : DrawSource) (hs : Genuine s hist)
      (hother : Genuine other hist') (hok : (s.merge src other).failure = none) :
      Genuine (s.merge src other).state (hist.merge other.lgMax hist')
  /-- A sketch is reset. -/
  | reset {s : Sketch} {hist : History} (hs : Genuine s hist) : Genuine s.reset .none
  /-- A sketch is copied as a record. -/
  | viaRecord {s t : Sketch} {hist : History} (src : DrawSource) (seed : Scalar) (hs : Genuine s hist)
      (hload : (ofRecord src s.toRecord seed).result = .ok t) : Genuine t hist
  /-- A sketch is copied as bytes. -/
  | viaBytes {s t : Sketch} {hist : History} (src : DrawSource) {bs : List UInt8} (hs : Genuine s hist)
      (hsave : s.toBytes = .ok bs) (hload : (ofBytes src bs).result = .ok t) : Genuine t hist
  /-- A sketch is copied as a line. -/
  | viaLine {s t : Sketch} {hist : History} (src : DrawSource) {line : String} (hs : Genuine s hist)
      (hsave : s.toLine = .ok line) (hload : (ofLine src line).result = .ok t) : Genuine t hist

variable {s t u other : Sketch} {hist hist' : History}

/-! ### What the operations consist of -/

/-- **A merge that succeeds** changes nothing if the other sketch is empty, and otherwise is a run of
its counters, with new totals. -/
theorem merge_cases {src : DrawSource} (h : s.Sound) (hok : (s.merge src other).failure = none) :
    (other.isEmpty = true ∧ (s.merge src other).state = s) ∨
      (other.isEmpty = false ∧ s.streamLength + other.streamLength ≤ maxWord ∧
        ∃ u events, Run s other.counters u events ∧
          (s.merge src other).state = { u with
            offset := u.offset + other.offset
            streamLength := s.streamLength + other.streamLength
            truths := .none }) := by
  have hends := merge_ends src h other
  generalize s.merge src other = o at hok hends ⊢
  cases hends with
  | idle hempty => exact .inl ⟨hempty, rfl⟩
  | refused => cases hok
  | stopped => cases hok
  | folded hempty hbound run => exact .inr ⟨hempty, hbound, _, _, run, rfl⟩

/-- **A snapshot that is loaded** is counted anew in a fresh sketch of its greatest length, and then
gets its totals. -/
theorem ofSnapshot_cases {src : DrawSource} {p : Snapshot} {seed : Scalar}
    (hload : (ofRecord src p.toRecord seed).result = .ok t) :
    ∃ fresh u events, Fresh fresh ∧ fresh.lgMax = p.lgMax.toNat ∧ Run fresh p.entries u events ∧
      t = { u with
        offset := u.offset + p.offset, streamLength := p.streamLength, truths := .none } := by
  cases ofRecord_loaded hload with
  | intro hfresh hlgMax hmax hentries run _ _ =>
    cases hlgMax
    obtain rfl := Option.some.inj ((Entries.ofPairs?_int p.entries).symm.trans hentries)
    exact ⟨_, _, _, hfresh, hmax, run, rfl⟩

/-! ### Accounts -/

/-- The lengths of a sound sketch are those that an encoding accepts. -/
theorem Sound.lengthsInRange (h : s.Sound) :
    Snapshot.LengthsInRange s.toSnapshot.lgMax s.toSnapshot.lgLength :=
  ⟨Int.ofNat_le.mpr h.lgMin_le, Int.ofNat_le.mpr h.lgLength_le, Int.ofNat_le.mpr h.lgMax_le⟩

/-- What a sketch says agrees with its history. -/
structure Accounted (s : Sketch) (hist : History) : Prop where
  /-- The sketch is sound. -/
  sound : s.Sound
  /-- Its totals are shown as integers. -/
  truths_eq : s.truths = .none
  /-- The stream length is a 64-bit integer. -/
  bounded : s.streamLength ≤ maxWord
  /-- All items are 64-bit integers. -/
  words : ∀ x ∈ s.counters.keys, IsWord x
  /-- The offset is not negative. -/
  offset_nonneg : 0 ≤ s.offset
  /-- All folded sketches had lengths that a sketch may have. -/
  folded : ∀ lg ∈ hist.folded, lgMinLength ≤ lg
  /-- No counter exceeds the count of its item. -/
  lower : ∀ x, s.table.count x ≤ hist.count x
  /-- What it lacks is at most the offset. -/
  upper : ∀ x, hist.count x ≤ s.table.count x + s.offset
  /-- The offset is paid for. -/
  mass : hist.share s.lgMax * s.offset + s.counters.total ≤ s.streamLength
  /-- Where nothing was subtracted, the counters are all that was counted. -/
  kept : s.offset = 0 → s.counters.total = s.streamLength

theorem Fresh.accounted (h : s.Fresh) : Accounted s .none where
  sound := h.sound
  truths_eq := h.truths_eq
  bounded := by
    rw [h.streamLength_eq]
    decide
  words x hx := by
    rw [h.counters_eq] at hx
    cases hx
  offset_nonneg := h.offset_eq.ge
  folded _ hlg := by cases hlg
  lower x := by
    rw [h.holds.count_eq]
    exact le_rfl
  upper x := by
    rw [h.holds.count_eq, h.offset_eq]
    exact le_rfl
  mass := by
    rw [h.offset_eq, h.streamLength_eq, h.counters_eq, mul_zero]
    exact le_rfl
  kept _ := by
    rw [h.counters_eq, h.streamLength_eq]
    rfl

namespace Accounted

theorem share_pos (h : Accounted s hist) : 0 < hist.share s.lgMax := by
  refine History.le_share_iff.mpr ⟨?_, fun lg hlg => errorShare_pos (h.folded lg hlg)⟩
  exact errorShare_pos (h.sound.lgMin_le.trans h.sound.lgLength_le)

theorem total_nonneg (h : Accounted s hist) : 0 ≤ s.counters.total := h.sound.total_nonneg

/-- An upper bound never exceeds the stream length. -/
theorem upper_le (h : Accounted s hist) (x : ℤ) : s.table.count x + s.offset ≤ s.streamLength := by
  have hcount : s.table.count x ≤ s.counters.total := by
    rw [h.sound.holds.count_eq]
    exact Entries.count_le_total h.sound.positive h.sound.holds.distinct x
  have hshare : (1 : ℤ) ≤ hist.share s.lgMax := Int.ofNat_le.mpr h.share_pos
  have hoffset : s.offset ≤ hist.share s.lgMax * s.offset := le_mul_of_one_le_left h.offset_nonneg hshare
  have := h.mass
  omega

theorem offset_le (h : Accounted s hist) : s.offset ≤ s.streamLength := by
  have := h.upper_le 0
  have := h.sound.count_nonneg 0
  omega

/-- The counters add up to no more than the stream length. -/
theorem total_le (h : Accounted s hist) : s.counters.total ≤ s.streamLength := by
  have hpaid : 0 ≤ hist.share s.lgMax * s.offset := mul_nonneg (Int.natCast_nonneg _) h.offset_nonneg
  have := h.mass
  omega

theorem streamLength_nonneg (h : Accounted s hist) : 0 ≤ s.streamLength := h.total_nonneg.trans h.total_le

/-- Nothing was counted in an empty sketch. -/
theorem count_eq_zero (h : Accounted s hist) (hempty : s.isEmpty = true) (x : ℤ) : hist.count x = 0 := by
  have hzero : s.streamLength = 0 := of_decide_eq_true hempty
  have hle := h.upper_le x
  have hupper := h.upper x
  have hlower := h.lower x
  have hnonneg := h.sound.count_nonneg x
  omega

/-- An empty sketch has no counters. -/
theorem counters_eq_nil (h : Accounted s hist) (hempty : s.streamLength = 0) : s.counters = [] := by
  apply List.eq_nil_iff_forall_not_mem.mpr
  intro e he
  have hpos := h.sound.mem_keys_iff.mp (List.mem_map_of_mem he)
  have hle := h.upper_le e.1
  have hoffset := h.offset_nonneg
  omega

/-- **A run is accounted for** by what was counted in it. -/
theorem run {es : Entries} {events : List Event} (h : Accounted s hist) (hr : Run s es t events) :
    Accounted t (hist.tallied es) := by
  have hdrift := hr.drift h.sound
  refine ⟨hr.sound h.sound, hdrift.truths h.truths_eq, hdrift.bounded h.bounded, hdrift.words h.words,
    h.offset_nonneg.trans hdrift.offset_le, h.folded, ?_, ?_, ?_, ?_⟩
  · intro x
    have := hdrift.lower x
    have := h.lower x
    change t.table.count x ≤ hist.count x + es.tally x
    omega
  · intro x
    have := hdrift.upper x
    have := h.upper x
    change hist.count x + es.tally x ≤ t.table.count x + t.offset
    omega
  · have hmass := hdrift.mass (hist.share s.lgMax) (Int.natCast_nonneg _) (hist.share_le _)
    have := h.mass
    rw [hdrift.lgMax_eq, hdrift.streamLength_eq]
    exact hmass.trans (by omega)
  · intro hoffset
    have hle := hdrift.offset_le
    have hnonneg := h.offset_nonneg
    rw [hdrift.kept (by omega), h.kept (by omega), hdrift.streamLength_eq]

/-- The lengths of folded sketches. -/
private theorem folded_merge (h : Accounted s hist) (hother : Accounted other hist') :
    ∀ lg ∈ (hist.merge other.lgMax hist').folded, lgMinLength ≤ lg := by
  intro lg hlg
  rcases List.mem_append.mp hlg with hlg | hlg
  · exact h.folded lg hlg
  · rcases List.mem_cons.mp hlg with rfl | hlg
    · exact hother.sound.lgMin_le.trans hother.sound.lgLength_le
    · exact hother.folded lg hlg

/-- **What is counted anew from another sketch is accounted for**, once its totals are added. -/
theorem absorb {events : List Event} (h : Accounted s hist) (hother : Accounted other hist')
    (run : Run s other.counters u events) (htotal : s.streamLength + other.streamLength ≤ maxWord) :
    Accounted { u with
      offset := u.offset + other.offset
      streamLength := s.streamLength + other.streamLength
      truths := .none } (hist.merge other.lgMax hist') := by
  have hdrift := run.drift h.sound
  have htally := hother.sound.tally_eq
  refine ⟨(run.sound h.sound).totals _ _ _, rfl, htotal, hdrift.words h.words, ?_,
    h.folded_merge hother, ?_, ?_, ?_, ?_⟩
  · have := h.offset_nonneg.trans hdrift.offset_le
    have := hother.offset_nonneg
    change 0 ≤ u.offset + other.offset
    omega
  · intro x
    have := hdrift.lower x
    have := h.lower x
    have := hother.lower x
    rw [htally] at *
    change u.table.count x ≤ hist.count x + hist'.count x
    omega
  · intro x
    have := hdrift.upper x
    have := h.upper x
    have := hother.upper x
    rw [htally] at *
    change hist.count x + hist'.count x ≤ u.table.count x + (u.offset + other.offset)
    omega
  · -- both offsets are paid for at the lesser rate
    obtain ⟨hshare, hshare'⟩ := History.share_merge_le hist hist' s.lgMax other.lgMax
    set share := (hist.merge other.lgMax hist').share s.lgMax with hdef
    have hself := Int.mul_le_mul_of_nonneg_right (Int.ofNat_le.mpr hshare) h.offset_nonneg
    have hother' := Int.mul_le_mul_of_nonneg_right (Int.ofNat_le.mpr hshare') hother.offset_nonneg
    have hle := (Int.ofNat_le.mpr hshare).trans (hist.share_le s.lgMax)
    have hpaid := hdrift.mass share (Int.natCast_nonneg _) hle
    have := h.mass
    have := hother.mass
    change ((hist.merge other.lgMax hist').share u.lgMax : ℤ) * (u.offset + other.offset) +
      u.counters.total ≤ s.streamLength + other.streamLength
    rw [hdrift.lgMax_eq, ← hdef, mul_add]
    omega
  · intro hoffset
    change u.offset + other.offset = 0 at hoffset
    change u.counters.total = s.streamLength + other.streamLength
    have hle := hdrift.offset_le
    have hnonneg := h.offset_nonneg
    have hnonneg' := hother.offset_nonneg
    rw [hdrift.kept (by omega), h.kept (by omega), hother.kept (by omega)]

/-- An empty sketch adds nothing, but its length counts among the folded ones. -/
private theorem merge_empty (h : Accounted s hist) (hother : Accounted other hist')
    (hempty : other.isEmpty = true) : Accounted s (hist.merge other.lgMax hist') := by
  have hcount : ∀ x, (hist.merge other.lgMax hist').count x = hist.count x := by
    intro x
    simp only [History.merge, hother.count_eq_zero hempty, add_zero]
  refine ⟨h.sound, h.truths_eq, h.bounded, h.words, h.offset_nonneg, h.folded_merge hother, ?_, ?_, ?_,
    h.kept⟩
  · intro x
    rw [hcount]
    exact h.lower x
  · intro x
    rw [hcount]
    exact h.upper x
  · have hshare := (History.share_merge_le hist hist' s.lgMax other.lgMax).1
    have := Int.mul_le_mul_of_nonneg_right (Int.ofNat_le.mpr hshare) h.offset_nonneg
    have := h.mass
    omega

/-- **A merge is accounted for** by both histories. -/
theorem merge {src : DrawSource} (h : Accounted s hist) (hother : Accounted other hist')
    (hok : (s.merge src other).failure = none) :
    Accounted (s.merge src other).state (hist.merge other.lgMax hist') := by
  rcases merge_cases h.sound hok with ⟨hempty, heq⟩ | ⟨-, htotal, u, events, run, heq⟩
  · rw [heq]
    exact h.merge_empty hother hempty
  · rw [heq]
    exact h.absorb hother run htotal

/-- **A copy is accounted for** by the same history: it is made by folding the sketch into a fresh one
of its greatest length. -/
theorem copy (src : DrawSource) {p : Snapshot} {seed : Scalar} (h : Accounted s hist)
    (hlgMax : p.lgMax = s.lgMax) (hoffset : p.offset = s.offset)
    (hstreamLength : p.streamLength = s.streamLength) (hentries : p.entries = s.counters)
    (hload : (ofRecord src p.toRecord seed).result = .ok t) : Accounted t hist := by
  obtain ⟨fresh, u, events, hfresh, hfreshMax, run, rfl⟩ := ofSnapshot_cases hload
  rw [hlgMax, Int.toNat_natCast] at hfreshMax
  rw [hentries] at run
  have htotal : fresh.streamLength + s.streamLength = s.streamLength := by
    rw [hfresh.streamLength_eq, zero_add]
  have hfolded := hfresh.accounted.absorb h run (htotal.le.trans h.bounded)
  rw [htotal, ← hoffset, ← hstreamLength] at hfolded
  have hlg : u.lgMax = s.lgMax := (run.drift hfresh.sound).lgMax_eq.trans hfreshMax
  have hcount : ∀ x, (History.none.merge s.lgMax hist).count x = hist.count x := fun x => zero_add _
  refine ⟨hfolded.sound, rfl, hfolded.bounded, hfolded.words, hfolded.offset_nonneg, h.folded,
    ?_, ?_, ?_, hfolded.kept⟩
  · intro x
    rw [← hcount]
    exact hfolded.lower x
  · intro x
    rw [← hcount]
    exact hfolded.upper x
  · have hmass := hfolded.mass
    simp only [hlg, History.share_none_merge] at hmass ⊢
    exact hmass

/-- **An update is accounted for.** -/
theorem update {src : DrawSource} {item count : ℤ} (h : Accounted s hist)
    (hok : (s.update src (.int item) (.int count)).failure = none) :
    Accounted (s.update src (.int item) (.int count)).state (hist.update item count) := by
  obtain ⟨t, events, heq, run⟩ := exists_run_of_update h.sound hok
  rw [heq, History.update_eq]
  exact h.run run

/-- **Counting items once each is accounted for.** -/
theorem extend {src : DrawSource} {items : List ℤ} (h : Accounted s hist)
    (hok : (s.extend src (items.map .int)).failure = none) :
    Accounted (s.extend src (items.map .int)).state (hist.extend items) := by
  obtain ⟨t, events, heq, run⟩ := exists_run_of_extend h.sound hok
  rw [heq, History.extend_eq]
  exact h.run run

/-- A copy by way of bytes is accounted for. -/
theorem viaBytes {src : DrawSource} {bs : List UInt8} (h : Accounted s hist) (hsave : s.toBytes = .ok bs)
    (hload : (ofBytes src bs).result = .ok t) : Accounted t hist := by
  rw [ofBytes] at hload
  by_cases hempty : s.toSnapshot.isEmpty = true
  · -- all but the greatest length is left out, and there was nothing else
    have hzero : s.streamLength = 0 := of_decide_eq_true hempty
    rw [Snapshot.ofBytes_toBytes_of_isEmpty hsave hempty h.sound.lengthsInRange] at hload
    have hoffset : s.offset = 0 := le_antisymm (h.offset_le.trans hzero.le) h.offset_nonneg
    exact h.copy src rfl hoffset.symm hzero.symm (h.counters_eq_nil hzero).symm hload
  · rw [Snapshot.ofBytes_toBytes hsave (by simpa using hempty) h.sound.lengthsInRange h.offset_nonneg] at hload
    exact h.copy src rfl rfl rfl rfl hload

/-- A copy by way of a line is accounted for. -/
theorem viaLine {src : DrawSource} {line : String} (h : Accounted s hist) (hsave : s.toLine = .ok line)
    (hload : (ofLine src line).result = .ok t) : Accounted t hist := by
  rw [toLine, toDraft_eq h.truths_eq] at hsave
  rw [ofLine, Snapshot.ofLine_toLine hsave (by decide) h.sound.lengthsInRange h.offset_nonneg
    h.counters_eq_nil] at hload
  exact h.copy src rfl rfl rfl rfl hload

end Accounted

/-- **Every genuine sketch is accounted for by its history**, in whatever order it came about. -/
theorem Genuine.accounted (h : Genuine s hist) : Accounted s hist := by
  induction h with
  | ofSize h => exact (ofSize_fresh h).1.accounted
  | ofLog2 h => exact (ofLog2_fresh h).1.accounted
  | update src item count _ hok ih => exact ih.update hok
  | extend src items _ hok ih => exact ih.extend hok
  | merge src _ _ hok ih ih' => exact ih.merge ih' hok
  | reset _ ih => exact (reset_fresh ih.sound).accounted
  | viaRecord src seed _ hload ih =>
    rw [toRecord_eq ih.truths_eq] at hload
    exact ih.copy src rfl rfl rfl rfl hload
  | viaBytes src _ hsave hload ih => exact ih.viaBytes hsave hload
  | viaLine src _ hsave hload ih => exact ih.viaLine hsave hload

end Sketch

end HeavyHitters
