import HeavyHitters.Proofs.Snapshot.Binary
import HeavyHitters.Proofs.Snapshot.Line

/-!
# Snapshots that can be written

A snapshot can be written in both encodings if every number in it has the width that it is given in
the bytes. The line sets no widths, but the usual limit on digits, and a number of 64 bits is far
below that.

## What is proved

* `Writable.exists_toBytes`, `Writable.exists_toLine`: such a snapshot has bytes and a line.
* `length_of_toBytes`: how many bytes it has.
-/

namespace HeavyHitters.Snapshot

variable {p : Snapshot}

/-- All numbers of a snapshot fit in their fields. -/
structure Writable (p : Snapshot) : Prop where
  /-- The table lengths are in range. -/
  lengths : LengthsInRange p.lgMax p.lgLength
  /-- The stream length is a 64-bit integer. -/
  streamLength : IsWord p.streamLength
  /-- The offset is not negative. -/
  offset_nonneg : 0 ≤ p.offset
  /-- It is a 64-bit integer. -/
  offset_le : p.offset ≤ maxWord
  /-- So are all items. -/
  items : ∀ e ∈ p.entries, IsWord e.1
  /-- And so are all counts. -/
  counts : ∀ e ∈ p.entries, IsWord e.2
  /-- The number of counters fits in 32 bits. -/
  active_lt : p.active < powerOfTwo 32

/-! ### Bytes -/

private theorem exists_naturalField (width : ℕ) (n : ℤ) (hn : 0 ≤ n) (hlt : n < powerOfTwo (8 * width)) :
    ∃ bs, naturalField width n = .ok bs := ⟨_, if_pos ⟨hn, hlt⟩⟩

private theorem exists_wordField {n : ℤ} (hn : IsWord n) : ∃ bs, wordField n = .ok bs := ⟨_, if_pos hn⟩

private theorem LengthsInRange.exists_headerField (h : LengthsInRange p.lgMax p.lgLength) :
    ∃ header, p.headerField = .ok header := by
  have hmin := h.lgMin_le
  have hle := h.lgLength_le
  have hmax := h.lgMax_le
  have hbyte : (powerOfTwo (8 * 1) : ℤ) = 256 := rfl
  simp only [lgMinLength, lgMaxLength] at hmin hmax
  obtain ⟨lgMax, hlgMax⟩ := exists_naturalField 1 p.lgMax (by omega) (by omega)
  obtain ⟨lgLength, hlgLength⟩ := exists_naturalField 1 p.lgLength (by omega) (by omega)
  exact exists_bind_ok hlgMax (exists_bind_ok hlgLength ⟨_, rfl⟩)

/-- **A writable snapshot has bytes.** -/
theorem Writable.exists_toBytes (h : p.Writable) : ∃ bs, p.toBytes = .ok bs := by
  obtain ⟨header, hheader⟩ := h.lengths.exists_headerField
  apply exists_bind_ok hheader
  split_ifs
  · exact ⟨header, rfl⟩
  · -- every field is wide enough
    obtain ⟨active, hactive⟩ := exists_naturalField 4 p.active (Int.natCast_nonneg _)
      (Int.ofNat_lt.mpr h.active_lt)
    obtain ⟨streamLength, hstreamLength⟩ := exists_wordField h.streamLength
    have hoffset : IsWord p.offset := ⟨le_trans (by decide) h.offset_nonneg, h.offset_le⟩
    obtain ⟨offset, hoffset⟩ := exists_wordField hoffset
    obtain ⟨counts, hcounts⟩ := exists_mapM_ok fun e he => exists_wordField (h.counts e he)
    obtain ⟨items, hitems⟩ := exists_mapM_ok fun e he => exists_wordField (h.items e he)
    apply exists_bind_ok hactive
    apply exists_bind_ok hstreamLength
    apply exists_bind_ok hoffset
    apply exists_bind_ok hcounts
    exact exists_bind_ok hitems ⟨_, rfl⟩

/-- **The number of bytes** of a snapshot: one word if it is empty, and otherwise four words, and two
for each counter. -/
theorem length_of_toBytes {bs : List UInt8} (h : p.toBytes = .ok bs) :
    bs.length = if p.isEmpty then bytesEmpty else bytesFor p.active := by
  cases hempty : p.isEmpty with
  | true =>
    obtain ⟨header, hheader, h⟩ := bind_eq_ok.mp h
    rw [hempty, if_pos rfl] at h
    cases h
    obtain ⟨lgMax, lgLength, -, -, rfl⟩ := headerField_eq_ok hheader
    rfl
  | false =>
    obtain ⟨header, active, streamLength, offset, counts, items, hheader, hactive, hstreamLength, hoffset,
      hcounts, hitems, rfl⟩ := toBytes_eq_ok h hempty
    obtain ⟨lgMax, lgLength, -, -, rfl⟩ := headerField_eq_ok hheader
    have hactive' := (ofBytesLE_of_naturalField hactive).1
    have hstreamLength' := length_of_wordField hstreamLength
    have hoffset' := length_of_wordField hoffset
    have hcounts' := length_flatten_words hcounts
    have hitems' := length_flatten_words hitems
    rw [List.length_map] at hcounts' hitems'
    simp only [List.length_append, List.length_cons, List.length_nil, hactive', hstreamLength', hoffset',
      hcounts', hitems', Snapshot.active, bytesFor, bytesFull, wordBytes, wordsFull, Bool.false_eq_true,
      if_false]
    omega

/-! ### Lines -/

private theorem writeInteger_of_allows {limit : Text.DigitLimit} {n : ℤ} (h : Allows limit n) :
    writeInteger limit n = .ok (Text.numeral n) := by
  rw [writeInteger, h]

/-- A power of two that may be written is not too great to be computed for that. -/
private theorem writePower_of_allows {limit : Text.DigitLimit} {lg : ℕ}
    (h : Allows limit (powerOfTwo lg : ℕ)) :
    writePower limit lg = .ok (Text.numeral (powerOfTwo lg : ℕ)) := by
  have hquarter : limit.exceededBy? (lg / 4 + 1) = none := by
    cases limit with
    | unlimited => rfl
    | atMost k =>
      have hlt : powerOfTwo lg < 10 ^ k := by
        simpa [Allows, Text.DigitLimit.exceededByNumber?] using h
      have hk : lg / 4 < k := by
        by_contra hle
        -- four binary digits make more than one decimal digit
        have hpow : 10 ^ k ≤ powerOfTwo lg :=
          calc 10 ^ k ≤ 16 ^ k := Nat.pow_le_pow_left (by decide) k
            _ = 2 ^ (4 * k) := by rw [pow_mul]; rfl
            _ ≤ 2 ^ lg := Nat.pow_le_pow_right (by decide) (by omega)
        exact absurd hlt (Nat.not_lt.mpr hpow)
      exact if_neg (by omega)
  rw [writePower, hquarter, writeInteger_of_allows h]

/-- **A snapshot has a line** if the limit allows all its integers to be written, and there is memory
for its table length. -/
theorem exists_toLine {limit : Text.DigitLimit} (hlg : 0 ≤ p.lgLength) (hheld : p.lgLength < unheldDigits)
    (h : ∀ n ∈ p.lineFields, Allows limit n) : ∃ line, p.toLine limit = .ok line := by
  have hwritten : ∀ ns : List ℤ, (∀ n ∈ ns, Allows limit n) →
      ∃ css, (ns.map Scalar.int).mapM (·.written limit) = .ok css := fun ns hns => by
    refine exists_mapM_ok fun a ha => ?_
    obtain ⟨n, hn, rfl⟩ := List.mem_map.mp ha
    exact ⟨_, writeInteger_of_allows (hns n hn)⟩
  simp only [lineFields, List.forall_mem_append, List.forall_mem_cons] at h
  obtain ⟨⟨h1, h2, h3, h4, h5, h6, h7, h8, hpower, -⟩, hcounters⟩ := h
  obtain ⟨header, hheader⟩ := hwritten
    [(version : ℤ), family, p.lgMax, p.flags, itemType, p.streamLength, p.offset, p.active]
    (by simp only [List.forall_mem_cons]; exact ⟨h1, h2, h3, h4, h5, h6, h7, h8, fun _ hn => by cases hn⟩)
  obtain ⟨counters, hcounters⟩ := hwritten _ hcounters
  have hlength : p.toDraft.lgLength.toLogarithm = .ok p.lgLength.toNat := Scalar.toLogarithm_int hlg hheld
  rw [← header_toDraft] at hheader
  rw [← counters_toDraft] at hcounters
  apply exists_bind_ok hlength
  apply exists_bind_ok hheader
  apply exists_bind_ok (writePower_of_allows hpower)
  exact exists_bind_ok hcounters ⟨_, rfl⟩

private theorem allows_atMost {k : ℕ} {n : ℤ} (hk : 80 ≤ k) (h : n.natAbs < 10 ^ 80) : Allows (.atMost k) n :=
  if_pos (h.trans_le (Nat.pow_le_pow_right (by decide) hk))

/-- The usual limit allows all numbers of eighty digits. -/
theorem allows_usual {n : ℤ} (h : n.natAbs < 10 ^ 80) : Allows .usual n :=
  allows_atMost (by decide) h

theorem allows_usual_of_isWord {n : ℤ} (h : IsWord n) : Allows .usual n := by
  obtain ⟨hmin, hmax⟩ := h
  simp only [minWord, maxWord] at hmin hmax
  exact allows_usual (by omega)

/-- **A writable snapshot has a line** with the usual limit on digits. -/
theorem Writable.exists_toLine (h : p.Writable) : ∃ line, p.toLine .usual = .ok line := by
  have hmin := h.lengths.lgMin_le
  have hle := h.lengths.lgLength_le
  have hmax := h.lengths.lgMax_le
  simp only [lgMinLength, lgMaxLength] at hmin hmax
  refine Snapshot.exists_toLine (by omega) (lt_of_le_of_lt (hle.trans hmax) (by decide)) ?_
  have hactive : p.active < 2 ^ 32 := h.active_lt
  have hpower : powerOfTwo p.lgLength.toNat ≤ 2 ^ 30 := powerOfTwo_mono (show _ ≤ 30 by omega)
  have hflags : p.flags ≤ 4 := by
    unfold flags flagsFor
    cases p.isEmpty <;> decide
  simp only [lineFields, List.forall_mem_append, List.forall_mem_cons, version, family, itemType]
  refine ⟨⟨allows_usual (by decide), allows_usual (by decide), allows_usual (by omega),
    allows_usual (by omega), allows_usual (by decide), allows_usual_of_isWord h.streamLength,
    allows_usual_of_isWord ⟨le_trans (by decide) h.offset_nonneg, h.offset_le⟩, allows_usual (by omega),
    allows_usual (by omega), fun _ hn => by cases hn⟩, fun n hn => ?_⟩
  obtain ⟨e, he, hn⟩ := List.mem_flatMap.mp hn
  rcases List.mem_pair.mp hn with rfl | rfl
  · exact allows_usual_of_isWord (h.items e he)
  · exact allows_usual_of_isWord (h.counts e he)

end HeavyHitters.Snapshot
