import HeavyHitters.Proofs.Sketch.Stability

/-!
# Two routes to a copy

A copy can be made by way of bytes or by way of a line. Both record the greatest length and the
totals, and the counters in the order of their slots, so both copies have the table of the sketch
rebuilt, whatever is drawn.

The routes part where nothing was counted. Then bytes end after the first word. The length of the
table stands in it, but is not read, and the copy has the least length; a line is always read as a
whole. So the copies of an empty sketch are the same only if its own table has the least length, and
otherwise differ in their lengths and capacities.

## What is proved

* `Accounted.exists_via_line`: a copy by way of a line has the table rebuilt.
* `Accounted.exists_routes`: the copies by both routes are the same but for the length of their tables.
* `routes_agree_iff`: when they are the same.
-/

namespace HeavyHitters

/-- A longer table may hold more counters. -/
theorem loadLimit_powerOfTwo_lt {lg lg' : ℕ} (hmin : lgMinLength ≤ lg) (h : lg < lg') :
    loadLimit (powerOfTwo lg) < loadLimit (powerOfTwo lg') := by
  calc loadLimit (powerOfTwo lg) < loadLimit (2 * powerOfTwo lg) := loadLimit_lt_two_mul (eight_le_powerOfTwo hmin)
    _ = loadLimit (powerOfTwo (lg + 1)) := by rw [powerOfTwo_succ]
    _ ≤ loadLimit (powerOfTwo lg') := loadLimit_mono (powerOfTwo_mono h)

/-- So the length of a table is known from how many counters it may hold. -/
theorem loadLimit_powerOfTwo_inj {lg lg' : ℕ} (hmin : lgMinLength ≤ lg) (hmin' : lgMinLength ≤ lg') :
    loadLimit (powerOfTwo lg) = loadLimit (powerOfTwo lg') ↔ lg = lg' := by
  constructor
  · intro hsame
    rcases lt_trichotomy lg lg' with hlt | heq | hgt
    · exact absurd hsame (loadLimit_powerOfTwo_lt hmin hlt).ne
    · exact heq
    · exact absurd hsame (loadLimit_powerOfTwo_lt hmin' hgt).ne'
  · intro hsame
    rw [hsame]

namespace Sketch

variable {s : Sketch} {hist : History}

/-! ### Both routes -/

namespace Accounted

/-- **The line of a genuine sketch is read as its content.** -/
theorem exists_read_line (h : Accounted s hist) :
    ∃ line, s.toLine = .ok line ∧ Snapshot.ofLine .usual line = .ok s.toSnapshot := by
  obtain ⟨line, hsave⟩ := h.writable.exists_toLine
  refine ⟨line, ?_, ?_⟩
  · rw [toLine, toDraft_eq h.truths_eq]
    exact hsave
  · exact Snapshot.ofLine_toLine hsave (by decide) h.sound.lengthsInRange h.offset_nonneg
      h.counters_eq_nil

/-- **A copy by way of a line** has the table rebuilt, and everything else as it was. -/
theorem exists_via_line (src : DrawSource) (h : Accounted s hist) :
    ∃ line t, s.toLine = .ok line ∧ ofLine src line = ⟨[], .ok t⟩ ∧ Accounted t hist ∧
      s.table.rehash s.table.lgLength = .ok t.table ∧
        t.toSnapshot = { s.toSnapshot with entries := t.counters } := by
  obtain ⟨line, hsave, hread⟩ := h.exists_read_line
  obtain ⟨t, hload, htable, -, hcontent⟩ := h.exists_rebuilt src defaultSeed
  have hload' : ofLine src line = ⟨[], .ok t⟩ := by
    rw [ofLine, hread]
    exact hload
  exact ⟨line, t, hsave, hload', h.viaLine hsave (by rw [hload']), htable, hcontent⟩

/-- **The copies are the same but for the length of their tables**, whatever is drawn for either. -/
theorem exists_routes (h : Accounted s hist) (src src' : DrawSource) :
    ∃ bs r line t, s.toBytes = .ok bs ∧ ofBytes src bs = ⟨[], .ok r⟩ ∧ s.toLine = .ok line ∧
      ofLine src' line = ⟨[], .ok t⟩ ∧ Accounted r hist ∧ Accounted t hist ∧
        t.table.lgLength = s.table.lgLength ∧
          r.toSnapshot = { t.toSnapshot with
            lgLength := (if s.isEmpty then lgMinLength else s.table.lgLength : ℕ) } := by
  obtain ⟨bs, r, hbytes, hloadBytes, hr, htable, hcontent⟩ := h.exists_via_bytes src
  obtain ⟨line, t, hline, hloadLine, ht, htable', hcontent'⟩ := h.exists_via_line src'
  -- without counters there is nothing to rebuild
  have hcounters : r.counters = t.counters := by
    cases hempty : s.isEmpty with
    | true =>
      have hzero : s.streamLength = 0 := of_decide_eq_true hempty
      have hstreamLength : r.streamLength = s.streamLength := congrArg Snapshot.streamLength hcontent
      have hstreamLength' : t.streamLength = s.streamLength := congrArg Snapshot.streamLength hcontent'
      rw [hr.counters_eq_nil (hstreamLength.trans hzero), ht.counters_eq_nil (hstreamLength'.trans hzero)]
    | false =>
      have hsame : r.table = t.table := Except.ok.inj ((htable hempty).symm.trans htable')
      rw [counters, hsame]
  refine ⟨bs, r, line, t, hbytes, hloadBytes, hline, hloadLine, hr, ht, ?_, ?_⟩
  · exact Int.ofNat_inj.mp (congrArg Snapshot.lgLength hcontent')
  · rw [hcontent, hcontent', hcounters]

end Accounted

/-! ### When the copies are the same -/

/-- **The copies by way of bytes and by way of a line are the same** exactly if the sketch was counted in
or its table has the least length, whatever the sketch has been through and whatever is drawn for either
copy. Otherwise the length of the table is all that differs, and with it the capacity: by way of a line
it is kept, and by way of bytes it is the least. -/
theorem routes_agree_iff (h : Genuine s hist) (src src' : DrawSource) :
    ∃ bs r line t, s.toBytes = .ok bs ∧ ofBytes src bs = ⟨[], .ok r⟩ ∧ s.toLine = .ok line ∧
      ofLine src' line = ⟨[], .ok t⟩ ∧ t.table.lgLength = s.table.lgLength ∧
        r.toDraft = { t.toDraft with
          lgLength := .int (if s.isEmpty then lgMinLength else s.table.lgLength : ℕ) } ∧
        (r.toDraft = t.toDraft ↔ (s.isEmpty = true → s.table.lgLength = lgMinLength)) ∧
        (r.capacity = t.capacity ↔ (s.isEmpty = true → s.table.lgLength = lgMinLength)) := by
  obtain ⟨bs, r, line, t, hbytes, hloadBytes, hline, hloadLine, hr, ht, hlgLength, hcontent⟩ :=
    h.accounted.exists_routes src src'
  have hdraft : r.toDraft = { t.toDraft with
      lgLength := .int (if s.isEmpty then lgMinLength else s.table.lgLength : ℕ) } := by
    rw [toDraft_eq hr.truths_eq, toDraft_eq ht.truths_eq, hcontent]
    rfl
  have hlg : r.table.lgLength = if s.isEmpty then lgMinLength else s.table.lgLength :=
    Int.ofNat_inj.mp (congrArg Snapshot.lgLength hcontent)
  have hiff : r.table.lgLength = t.table.lgLength ↔ (s.isEmpty = true → s.table.lgLength = lgMinLength) := by
    rw [hlg, hlgLength]
    split_ifs with hempty
    · simp only [hempty, true_imp_iff]
      exact eq_comm
    · exact iff_of_true rfl fun htrue => absurd htrue hempty
  refine ⟨bs, r, line, t, hbytes, hloadBytes, hline, hloadLine, hlgLength, hdraft, ?_, ?_⟩
  · rw [← hiff]
    constructor
    · intro hsame
      exact Int.ofNat_inj.mp (Scalar.int.inj (congrArg Snapshot.Draft.lgLength hsame))
    · intro hsame
      rw [hdraft, ← hlg, hsame]
      rfl
  · rw [← hiff, hr.sound.capacity_eq_loadLimit, ht.sound.capacity_eq_loadLimit,
      loadLimit_powerOfTwo_inj hr.sound.lgMin_le ht.sound.lgMin_le]

/-- The doubled sketch has the same copies. -/
theorem routes_agree_iff_doubled :
    Genuine doubled doubledHistory ∧
      ∃ bs r line t, doubled.toBytes = .ok bs ∧ ofBytes leastDraws bs = ⟨[], .ok r⟩ ∧
        doubled.toLine = .ok line ∧ ofLine leastDraws line = ⟨[], .ok t⟩ ∧ r.toDraft = t.toDraft := by
  have hfull : doubled.isEmpty = false := by decide +kernel
  obtain ⟨bs, r, line, t, hbytes, hloadBytes, hline, hloadLine, -, -, hiff, -⟩ :=
    routes_agree_iff genuine_doubled leastDraws leastDraws
  have hsame : r.toDraft = t.toDraft := hiff.mpr fun hempty => absurd hempty (by simp [hfull])
  exact ⟨genuine_doubled, bs, r, line, t, hbytes, hloadBytes, hline, hloadLine, hsame⟩

/-- A sketch that was given a table of 16 slots, in which nothing was counted. -/
def preallocated : Sketch :=
  let table := Table.ofLog2 4
  ⟨5, table, table.capacity, 0, 0, defaultSeed, .none⟩

/-- Its copies differ: by way of bytes it loses half of its slots. -/
theorem routes_differ_preallocated :
    Genuine preallocated .none ∧
      (preallocated.toBytes >>= fun bs => (ofBytes leastDraws bs).result.map fun r => (r.toDraft, r.capacity))
        = .ok (⟨.int 5, .int 3, .int 0, .int 0, []⟩, 6) ∧
      (preallocated.toLine >>= fun line => (ofLine leastDraws line).result.map fun t => (t.toDraft, t.capacity))
        = .ok (⟨.int 5, .int 4, .int 0, .int 0, []⟩, 12) := by
  have hnew : ofLog2 (.int 5) (.int 4) (.int defaultSeed) = .ok preallocated := by
    rw [ofLog2_int]
    rfl
  exact ⟨.ofLog2 hnew, by decide +kernel, by decide +kernel⟩

end Sketch

end HeavyHitters
