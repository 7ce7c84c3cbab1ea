import HeavyHitters.Proofs.Sketch.Genuine
import HeavyHitters.Proofs.Sketch.Lossless
import HeavyHitters.Proofs.Snapshot.Writing
import HeavyHitters.Sketch.Query

/-!
# Copies

Whatever a genuine sketch has been through, it can be saved in each of the three ways, and loaded
again. The counters of the copy are counted anew in a table that has the length of the old one, where
they all find room, so this is a run without events. Since it starts from nothing, every counter ends
up with its old count; the totals are recorded. So the copy answers like the original.

Bytes do not record the table length of an empty sketch, and a copy by way of bytes gets the least.

## What is proved

* `exists_run_of_bounded`: what is in bounds is counted to the end.
* `Fresh.exists_quiet_replay`: counters that find room are counted anew without events.
* `Sound.writable`, `Accounted.writable`: numbers in bounds have the widths that they are written in, and
  those of a genuine sketch are in bounds.
* `exists_recorded`: how a snapshot with its numbers in range is loaded.
* `copies_answer_alike`: a genuine sketch can be copied in each way, and the copy answers like it.
-/

namespace HeavyHitters.Sketch

variable {s t : Sketch} {hist : History} {p : Snapshot}

/-! ### Counting anew -/

/-- **What is in bounds is counted to the end**: 64-bit integers of which no count is negative, and that
leave the stream length in bounds. -/
theorem exists_run_of_bounded (src : DrawSource) {es : Entries} (h : s.Sound)
    (hwords : ∀ e ∈ es, IsWord e.1 ∧ IsWord e.2) (hnonneg : ∀ n ∈ es.values, 0 ≤ n)
    (htotal : s.streamLength + es.total ≤ maxWord) :
    ∃ t events, s.replay src es = ⟨t, events, none⟩ ∧ Run s es t events := by
  rcases replay_cases src h es with hrun | ⟨before, e, after, t, events, error, rfl, -, run, herror⟩
  · exact hrun
  · -- the count that was refused is in bounds, too
    have hmem : e ∈ before ++ e :: after := List.mem_append_right _ List.mem_cons_self
    obtain ⟨hitem, hcount⟩ := hwords e hmem
    have hlength := (run.drift h).streamLength_eq
    have hle := Entries.total_add_le hnonneg
    have haccept : t.accept (.int e.1) (.int e.2) = .ok e :=
      accept_eq_ok_iff.mpr ⟨rfl, rfl, hitem, hcount, hnonneg e.2 (List.mem_map_of_mem hmem), fun _ => by omega⟩
    rw [herror] at haccept
    cases haccept

/-- **Counters that find room in a fresh sketch are counted anew without events**, and end up with their
counts. -/
theorem Fresh.exists_quiet_replay (src : DrawSource) {es : Entries} (h : s.Fresh) (hdistinct : es.Distinct)
    (hwords : ∀ x ∈ es.keys, IsWord x) (hpositive : ∀ n ∈ es.values, 0 < n) (htotal : es.total ≤ maxWord)
    (hfits : es.length ≤ s.capacity) :
    ∃ t, s.replay src es = ⟨t, [], none⟩ ∧ t.Sound ∧ t.lgMax = s.lgMax ∧
      t.table.lgLength = s.table.lgLength ∧ t.offset = 0 ∧ ∀ x, t.table.count x = es.count x := by
  have hword : ∀ e ∈ es, IsWord e.1 ∧ IsWord e.2 := by
    intro e he
    have hpos := hpositive e.2 (List.mem_map_of_mem he)
    have hle : e.2 ≤ es.total :=
      List.single_le_sum (fun n hn => (hpositive n hn).le) e.2 (List.mem_map_of_mem he)
    exact ⟨hwords e.1 (List.mem_map_of_mem he), le_trans (by decide) hpos.le, hle.trans htotal⟩
  have hbound : s.streamLength + es.total ≤ maxWord := by
    rwa [h.streamLength_eq, zero_add]
  obtain ⟨t, events, hreplay, run⟩ :=
    exists_run_of_bounded src h.sound hword (fun n hn => (hpositive n hn).le) hbound
  -- nothing was counted before
  have hcounted : ∀ x, s.table.count x + es.tally x = es.count x := by
    intro x
    rw [h.holds.count_eq, Entries.tally_eq_count hdistinct]
    exact zero_add _
  have hitems : ∀ x, 0 < s.table.count x + es.tally x → x ∈ es.keys.toFinset := by
    intro x hx
    rw [hcounted] at hx
    exact List.mem_toFinset.mpr ((Entries.mem_keys_iff_count_pos hpositive hdistinct).mpr hx)
  have hcard : es.keys.toFinset.card ≤ s.capacity := by
    rw [List.toFinset_card_of_nodup hdistinct, Entries.keys, List.length_map]
    exact hfits
  obtain ⟨rfl, hoffset, hlg⟩ := run.quiet h.sound hitems hcard
  have hdrift := run.drift h.sound
  refine ⟨t, hreplay, run.sound h.sound, hdrift.lgMax_eq, hlg, hoffset.trans h.offset_eq, ?_⟩
  intro x
  rw [hdrift.count_eq hoffset, hcounted]

/-! ### What is saved -/

/-- The snapshot `p` records what a copy of `s` needs. -/
structure Records (p : Snapshot) (s : Sketch) : Prop where
  /-- The greatest length is recorded. -/
  lgMax_eq : p.lgMax = s.lgMax
  /-- So is the stream length. -/
  streamLength_eq : p.streamLength = s.streamLength
  /-- So is the offset. -/
  offset_eq : p.offset = s.offset
  /-- And so are the counters. -/
  entries_eq : p.entries = s.counters
  /-- The table lengths are in range. -/
  lengths : Snapshot.LengthsInRange p.lgMax p.lgLength
  /-- The counters find room in a table of the recorded length. -/
  fits : p.active ≤ loadLimit (powerOfTwo p.lgLength.toNat)
  /-- Unless the sketch is empty, that is the length of its table. -/
  lgLength_eq : s.isEmpty = false → p.lgLength = s.table.lgLength

/-- **The numbers of a sketch have the widths that they are written in** if they are in bounds. -/
theorem Sound.writable (h : s.Sound) (hwords : ∀ x ∈ s.counters.keys, IsWord x)
    (hstreamLength : 0 ≤ s.streamLength ∧ s.streamLength ≤ maxWord)
    (hoffset : 0 ≤ s.offset ∧ s.offset ≤ maxWord) (hcounts : ∀ n ∈ s.counters.values, n ≤ maxWord) :
    s.toSnapshot.Writable where
  lengths := h.lengthsInRange
  streamLength := ⟨le_trans (by decide) hstreamLength.1, hstreamLength.2⟩
  offset_nonneg := hoffset.1
  offset_le := hoffset.2
  items e he := hwords e.1 (List.mem_map_of_mem he)
  counts e he := by
    have hmem : e.2 ∈ s.counters.values := List.mem_map_of_mem he
    exact ⟨le_trans (by decide) (h.positive e.2 hmem).le, hcounts e.2 hmem⟩
  active_lt := by
    calc s.toSnapshot.active = s.active := h.holds.active_eq.symm
      _ ≤ s.capacity := h.active_le
      _ = loadLimit (powerOfTwo s.table.lgLength) := h.capacity_eq_loadLimit
      _ ≤ loadLimit (powerOfTwo lgMaxLength) :=
        loadLimit_mono (powerOfTwo_mono (h.lgLength_le.trans h.lgMax_le))
      _ < powerOfTwo 32 := by decide

namespace Accounted

/-- The content of a sketch records what a copy needs. -/
theorem records (h : Accounted s hist) : Records s.toSnapshot s where
  lgMax_eq := rfl
  streamLength_eq := rfl
  offset_eq := rfl
  entries_eq := rfl
  lengths := h.sound.lengthsInRange
  fits := by
    calc s.toSnapshot.active = s.active := h.sound.holds.active_eq.symm
      _ ≤ s.capacity := h.sound.active_le
      _ = loadLimit (powerOfTwo s.table.lgLength) := h.sound.capacity_eq_loadLimit
  lgLength_eq _ := rfl

/-- For an empty sketch its greatest length is enough. -/
theorem records_of_isEmpty (h : Accounted s hist) (hempty : s.isEmpty = true) :
    Records ⟨s.lgMax, lgMinLength, 0, 0, []⟩ s where
  lgMax_eq := rfl
  streamLength_eq := (of_decide_eq_true hempty : s.streamLength = 0).symm
  offset_eq := by
    have hzero : s.streamLength = 0 := of_decide_eq_true hempty
    have := h.offset_le
    have := h.offset_nonneg
    change 0 = s.offset
    omega
  entries_eq := (h.counters_eq_nil (of_decide_eq_true hempty)).symm
  lengths := ⟨le_rfl, Int.ofNat_le.mpr (h.sound.lgMin_le.trans h.sound.lgLength_le),
    Int.ofNat_le.mpr h.sound.lgMax_le⟩
  fits := Nat.zero_le _
  lgLength_eq hne := by
    rw [hempty] at hne
    cases hne

/-- The content of an empty sketch. -/
theorem toSnapshot_of_isEmpty (h : Accounted s hist) (hempty : s.isEmpty = true) :
    s.toSnapshot = ⟨s.lgMax, s.table.lgLength, 0, 0, []⟩ := by
  have hp := h.records_of_isEmpty hempty
  rw [toSnapshot, ← hp.streamLength_eq, ← hp.offset_eq, ← counters, ← hp.entries_eq]

/-- **The numbers of a genuine sketch have the widths that they are written in.** -/
theorem writable (h : Accounted s hist) : s.toSnapshot.Writable := by
  refine h.sound.writable h.words ⟨h.streamLength_nonneg, h.bounded⟩
    ⟨h.offset_nonneg, h.offset_le.trans h.bounded⟩ fun n hn => ?_
  exact ((h.sound.le_total hn).trans h.total_le).trans h.bounded

end Accounted

/-! ### What is loaded -/

/-- Two sketches give the same answers. -/
structure SameAnswers (s t : Sketch) : Prop where
  /-- The stream length is shown alike. -/
  streamLength_eq : t.shownStreamLength = s.shownStreamLength
  /-- So is the maximum error. -/
  maximumError_eq : t.shownOffset = s.shownOffset
  /-- There are as many counters. -/
  active_eq : t.active = s.active
  /-- There may be as many counters at the greatest length. -/
  maxCapacity_eq : t.maxCapacity = s.maxCapacity
  /-- Every item has the same estimate. -/
  estimate_eq : ∀ item, t.estimate item = s.estimate item
  /-- It has the same upper bound. -/
  upperBound_eq : ∀ item, t.upperBound item = s.upperBound item
  /-- It has the same lower bound. -/
  lowerBound_eq : ∀ item, t.lowerBound item = s.lowerBound item
  /-- Unless nothing was counted, there may be as many counters at the present length. -/
  capacity_eq : s.isEmpty = false → t.capacity = s.capacity

/-- **Sketches with the same counts and totals give the same answers.** -/
theorem SameAnswers.of_counts (h : s.Shaped) (h' : t.Shaped) (hcount : ∀ x, t.table.count x = s.table.count x)
    (hoffset : t.offset = s.offset) (hstreamLength : t.streamLength = s.streamLength)
    (htruths : t.truths = s.truths) (hlgMax : t.lgMax = s.lgMax)
    (hcapacity : s.isEmpty = false → t.capacity = s.capacity) : SameAnswers s t where
  streamLength_eq := by rw [shownStreamLength, shownStreamLength, htruths, hstreamLength]
  maximumError_eq := by rw [shownOffset, shownOffset, htruths, hoffset]
  active_eq := h'.active_eq h hcount
  maxCapacity_eq := by rw [maxCapacity, maxCapacity, hlgMax]
  estimate_eq item := by simp only [estimate, hcount, hoffset]
  upperBound_eq item := by simp only [upperBound, hcount, hoffset]
  lowerBound_eq item := by simp only [lowerBound, hcount]
  capacity_eq := hcapacity

/-- A fresh sketch that a snapshot is counted in. -/
private theorem exists_fresh {lgMax lgLength : ℤ} (h : Snapshot.LengthsInRange lgMax lgLength) (seed : ℤ) :
    ∃ u, ofLog2 (.int lgMax) (.int lgLength) (.int seed) = .ok u ∧ u.Fresh ∧ u.lgMax = lgMax.toNat ∧
      u.table.lgLength = lgLength.toNat := by
  have hmin := h.lgMin_le
  have hle := h.lgLength_le
  have hmax := h.lgMax_le
  have hstart : max lgLength (lgMinLength : ℤ) = lgLength := max_eq_left hmin
  have hok : ofLog2 (.int lgMax) (.int lgLength) (.int seed) =
      .ok ⟨lgMax.toNat, .ofLog2 lgLength.toNat, (Table.ofLog2 lgLength.toNat : Table ℤ).capacity, 0, 0, seed,
        .none⟩ := by
    simp only [ofLog2_int, hstart]
    rw [if_neg (by omega), if_neg (by omega), if_neg (by omega)]
  exact ⟨_, hok, (ofLog2_fresh hok).1, rfl, rfl⟩

/-- What comes of loading a snapshot, once its entries were counted: if all of them were, the sketch gets
the recorded totals. -/
def recorded (p : Snapshot) : Outcome Sketch → Loading
  | ⟨s, events, none⟩ =>
    ⟨events, .ok { s with offset := s.offset + p.offset, streamLength := p.streamLength, truths := .none }⟩
  | ⟨_, events, some e⟩ => ⟨events, .error e⟩

/-- **How a snapshot is loaded** whose lengths are in range, and whose totals are not negative: its entries
are counted in a fresh sketch with these lengths. -/
theorem exists_recorded (src : DrawSource) (seed : ℤ) (hlengths : Snapshot.LengthsInRange p.lgMax p.lgLength)
    (hoffset : 0 ≤ p.offset) (hstreamLength : 0 ≤ p.streamLength) :
    ∃ u : Sketch, u.Fresh ∧ u.lgMax = p.lgMax.toNat ∧ u.table.lgLength = p.lgLength.toNat ∧
      ofSnapshot src p seed = recorded p (u.replay src p.entries) := by
  obtain ⟨u, hok, hfresh, hlgMax, hlgLength⟩ := exists_fresh hlengths seed
  refine ⟨u, hfresh, hlgMax, hlgLength, ?_⟩
  have hvalid : ¬ (p.offset < 0 ∨ p.streamLength < 0) := by omega
  rw [ofSnapshot_eq, if_neg hvalid, hok]
  rfl

/-- **A snapshot in which nothing was counted** is loaded as a sketch with its lengths, in which nothing
was counted. -/
theorem exists_blank (src : DrawSource) (seed : ℤ) {lgMax lgLength : ℤ}
    (h : Snapshot.LengthsInRange lgMax lgLength) :
    ∃ t, ofSnapshot src ⟨lgMax, lgLength, 0, 0, []⟩ seed = ⟨[], .ok t⟩ ∧
      t.toSnapshot = ⟨lgMax, lgLength, 0, 0, []⟩ := by
  obtain ⟨u, hfresh, hlgMax, hlgLength, hload⟩ :=
    exists_recorded (p := ⟨lgMax, lgLength, 0, 0, []⟩) src seed h le_rfl le_rfl
  refine ⟨{ u with offset := u.offset + 0, streamLength := 0, truths := .none }, hload, ?_⟩
  have hmin := h.lgMin_le
  have hle := h.lgLength_le
  have hcounters : u.table.entries = [] := hfresh.counters_eq
  dsimp only at hlgMax hlgLength
  have hlgMax' : (u.lgMax : ℤ) = lgMax := by omega
  have hlgLength' : (u.table.lgLength : ℤ) = lgLength := by omega
  simp only [toSnapshot, hfresh.offset_eq, hcounters, hlgMax', hlgLength', add_zero]

/-- **What records a genuine sketch is loaded without events**, as a sketch that gives the same
answers. -/
theorem Accounted.exists_copy (src : DrawSource) (seed : ℤ) (h : Accounted s hist) (hp : Records p s) :
    ∃ t, ofSnapshot src p seed = ⟨[], .ok t⟩ ∧ SameAnswers s t := by
  obtain ⟨u, hfresh, hlgMax, hlgLength, hload⟩ := exists_recorded src seed hp.lengths
    (hp.offset_eq ▸ h.offset_nonneg) (hp.streamLength_eq ▸ h.streamLength_nonneg)
  have hfits : s.counters.length ≤ u.capacity := by
    rw [hfresh.sound.capacity_eq_loadLimit, hlgLength, ← hp.entries_eq]
    exact hp.fits
  obtain ⟨v, hreplay, hsound, hlgMax', hlgLength', hoffset, hcounts⟩ :=
    hfresh.exists_quiet_replay src h.sound.holds.distinct h.words h.sound.positive
      (h.total_le.trans h.bounded) hfits
  refine ⟨{ v with offset := v.offset + p.offset, streamLength := p.streamLength, truths := .none }, ?_, ?_⟩
  · rw [hload, hp.entries_eq, hreplay]
    rfl
  · refine .of_counts h.sound.toShaped (hsound.totals _ _ _).toShaped ?_ ?_ hp.streamLength_eq
      h.truths_eq.symm ?_ ?_
    · intro x
      exact (hcounts x).trans (h.sound.holds.count_eq x).symm
    · change v.offset + p.offset = s.offset
      rw [hoffset, hp.offset_eq, zero_add]
    · change v.lgMax = s.lgMax
      rw [hlgMax', hlgMax, hp.lgMax_eq, Int.toNat_natCast]
    · intro hne
      have hlg : v.table.lgLength = s.table.lgLength := by
        rw [hlgLength', hlgLength, hp.lgLength_eq hne, Int.toNat_natCast]
      change v.capacity = s.capacity
      rw [hsound.capacity_eq_loadLimit, h.sound.capacity_eq_loadLimit, hlg]

/-! ### Copies -/

/-- The bytes of a genuine sketch, and what they are read as. -/
private theorem Accounted.exists_bytes (h : Accounted s hist) :
    ∃ bs p, s.toBytes = .ok bs ∧ bs.length = s.storageBytes ∧ Snapshot.ofBytes bs = .ok p ∧ Records p s := by
  obtain ⟨bs, hsave⟩ := h.writable.exists_toBytes
  have hlength : bs.length = s.storageBytes := by
    have hactive : s.toSnapshot.active = s.active := h.sound.holds.active_eq.symm
    rw [Snapshot.length_of_toBytes hsave, hactive]
    rfl
  cases hempty : s.isEmpty with
  | true =>
    have hread := Snapshot.ofBytes_toBytes_of_isEmpty hsave hempty h.sound.lengthsInRange
    exact ⟨bs, _, hsave, hlength, hread, h.records_of_isEmpty hempty⟩
  | false =>
    have hread := Snapshot.ofBytes_toBytes hsave hempty h.sound.lengthsInRange h.offset_nonneg
    exact ⟨bs, _, hsave, hlength, hread, h.records⟩

/-- **A genuine sketch can be copied** as bytes, as a line, and as a record, with any seed, whatever it
has been through and whatever is drawn. While the copy is loaded nothing grows and nothing is purged,
and it answers like the original. There are as many bytes as the sketch says. -/
theorem copies_answer_alike (h : Genuine s hist) (src : DrawSource) :
    (∃ bs t, s.toBytes = .ok bs ∧ bs.length = s.storageBytes ∧ ofBytes src bs = ⟨[], .ok t⟩ ∧
      SameAnswers s t) ∧
    (∃ line t, s.toLine = .ok line ∧ ofLine src line = ⟨[], .ok t⟩ ∧ SameAnswers s t) ∧
    ∀ seed : ℤ, ∃ t, ofRecord src s.toRecord (.int seed) = ⟨[], .ok t⟩ ∧ SameAnswers s t := by
  have haccounted := h.accounted
  refine ⟨?_, ?_, ?_⟩
  · obtain ⟨bs, p, hsave, hlength, hread, hp⟩ := haccounted.exists_bytes
    obtain ⟨t, hload, hsame⟩ := haccounted.exists_copy src defaultSeed hp
    refine ⟨bs, t, hsave, hlength, ?_, hsame⟩
    rw [ofBytes, hread]
    exact hload
  · obtain ⟨line, hsave⟩ := haccounted.writable.exists_toLine
    obtain ⟨t, hload, hsame⟩ := haccounted.exists_copy src defaultSeed haccounted.records
    have hread : Snapshot.ofLine .usual line = .ok s.toSnapshot :=
      Snapshot.ofLine_toLine hsave (by decide) haccounted.sound.lengthsInRange haccounted.offset_nonneg
        haccounted.counters_eq_nil
    refine ⟨line, t, ?_, ?_, hsame⟩
    · rw [toLine, toDraft_eq haccounted.truths_eq]
      exact hsave
    · rw [ofLine, hread]
      exact hload
  · intro seed
    rw [toRecord_eq haccounted.truths_eq]
    exact haccounted.exists_copy src seed haccounted.records

/-- A narrow sketch in which seven items were counted once each. They have all been purged. -/
def drained : Sketch := (narrow.extend leastDraws ([1, 2, 3, 4, 5, 6, 7].map .int)).state

/-- A sketch that has lost all its counters can be copied, too. -/
theorem copies_answer_alike_drained :
    Genuine drained (History.none.extend [1, 2, 3, 4, 5, 6, 7]) ∧ drained.active = 0 ∧ drained.offset = 1 ∧
      drained.streamLength = 7 ∧ drained.storageBytes = 32 ∧
      ∃ bs t, drained.toBytes = .ok bs ∧ bs.length = 32 ∧ ofBytes leastDraws bs = ⟨[], .ok t⟩ ∧
        SameAnswers drained t := by
  have hgenuine : Genuine drained (History.none.extend [1, 2, 3, 4, 5, 6, 7]) :=
    .extend leastDraws [1, 2, 3, 4, 5, 6, 7] (.ofSize ofSize_eq_narrow) (by decide +kernel)
  have hstorage : drained.storageBytes = 32 := by decide +kernel
  obtain ⟨⟨bs, t, hsave, hlength, hload, hsame⟩, -⟩ := copies_answer_alike hgenuine leastDraws
  exact ⟨hgenuine, by decide +kernel, by decide +kernel, by decide +kernel, hstorage, bs, t, hsave,
    hlength.trans hstorage, hload, hsame⟩

end HeavyHitters.Sketch
