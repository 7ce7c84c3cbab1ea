import HeavyHitters.Proofs.Snapshot.Grammar

/-!
# The canonical form of bytes

Several bytes may stand for one snapshot, since the reading does not look at all of them. The bytes
that the snapshot is written as are one form of these: all that is not looked at is cleared in it, and
an empty snapshot gets the least table length (`canonical`). All else is written as it was read, number
by number.

## What is proved

* `wordField_ofWordBytes`, `mapM_wordField_readWords`: numbers that were read are written as the bytes
  that they were read from.
* `toBytes_of_ofBytes`: what was read is written in canonical form.
* `bytes_grammar`: the grammatical bytes are those that can be read, and reading and writing undo each
  other, up to the canonical form.
-/

namespace HeavyHitters.Snapshot

variable {bs : List UInt8} {p : Snapshot}

/-! ### Numbers -/

/-- Bytes are those of the number that they stand for. -/
theorem toBytesLE_ofBytesLE (bs : List UInt8) : toBytesLE bs.length (ofBytesLE bs) = bs := by
  induction bs with
  | nil => rfl
  | cons b bs ih =>
    have hlow : (b.toNat + 256 * ofBytesLE bs).toUInt8 = b := by
      apply UInt8.toNat_inj.mp
      simp
    have hrest : (b.toNat + 256 * ofBytesLE bs) / 256 = ofBytesLE bs := by
      have := b.toNat_lt
      omega
    rw [List.length_cons, ofBytesLE, toBytesLE, hlow, hrest, ih]

theorem ofBytesLE_lt (bs : List UInt8) : ofBytesLE bs < powerOfTwo (8 * bs.length) := by
  induction bs with
  | nil => exact Nat.one_pos
  | cons b bs ih =>
    have hpow : powerOfTwo (8 * (b :: bs).length) = 256 * powerOfTwo (8 * bs.length) := by
      rw [List.length_cons, Nat.mul_succ, Nat.add_comm, powerOfTwo_add]
      rfl
    have := b.toNat_lt
    rw [hpow, ofBytesLE]
    omega

/-- A number that was read is written as the bytes that it was read from. -/
theorem naturalField_ofBytesLE {width : ℕ} (h : bs.length = width) :
    naturalField width (ofBytesLE bs) = .ok bs := by
  subst h
  rw [naturalField, if_pos ⟨Int.natCast_nonneg _, Int.ofNat_lt.mpr (ofBytesLE_lt bs)⟩, Int.toNat_natCast,
    toBytesLE_ofBytesLE]

theorem naturalField_byte (b : UInt8) : naturalField 1 b.toNat = .ok [b] := by
  have hvalue : ofBytesLE [b] = b.toNat := rfl
  rw [← hvalue]
  exact naturalField_ofBytesLE rfl

/-- So is an integer in two's complement. -/
theorem wordField_ofWordBytes (h : bs.length = wordBytes) : wordField (ofWordBytes bs) = .ok bs := by
  have hlt : ofBytesLE bs < 0x10000000000000000 := by
    have := ofBytesLE_lt bs
    rwa [h] at this
  have hword : IsWord (ofWordBytes bs) := by
    simp only [ofWordBytes, IsWord, minWord, maxWord]
    split_ifs <;> omega
  have hmod : (ofWordBytes bs % 0x10000000000000000).toNat = ofBytesLE bs := by
    simp only [ofWordBytes]
    split_ifs <;> omega
  rw [wordField, if_pos hword, hmod, ← h, toBytesLE_ofBytesLE]

/-- And so are integers in words. -/
theorem mapM_wordField_readWords {n : ℕ} (h : bs.length = wordBytes * n) :
    ∃ bss, (readWords n bs).mapM wordField = .ok bss ∧ bss.flatten = bs := by
  induction n generalizing bs with
  | zero =>
    rw [Nat.mul_zero, List.length_eq_zero_iff] at h
    exact ⟨[], rfl, h.symm⟩
  | succ n ih =>
    rw [Nat.mul_succ] at h
    have htake : (bs.take wordBytes).length = wordBytes := List.length_take_of_le (by omega)
    have hdrop : (bs.drop wordBytes).length = wordBytes * n := by
      rw [List.length_drop]
      omega
    obtain ⟨bss, hbss, hflatten⟩ := ih hdrop
    refine ⟨bs.take wordBytes :: bss, ?_, ?_⟩
    · rw [readWords, List.mapM_cons, wordField_ofWordBytes htake, hbss]
      rfl
    · rw [List.flatten_cons, hflatten, List.take_append_drop]

theorem length_readWords (n : ℕ) (bs : List UInt8) : (readWords n bs).length = n := by
  induction n generalizing bs with
  | zero => rfl
  | succ n ih => rw [readWords, List.length_cons, ih]

/-! ### Parts -/

/-- Bytes that are long enough have a first part of any length. -/
private theorem exists_append (n : ℕ) (xs : List UInt8) (h : n ≤ xs.length) :
    ∃ ys zs, xs = ys ++ zs ∧ ys.length = n :=
  ⟨xs.take n, xs.drop n, (List.take_append_drop n xs).symm, List.length_take_of_le h⟩

/-- The first word of a snapshot, from the bytes of its table lengths. -/
private theorem headerField_of_bytes {lgMax lgLength : UInt8} (hlgMax : p.lgMax = lgMax.toNat)
    (hlgLength : p.lgLength = lgLength.toNat) :
    p.headerField = .ok
      [if p.isEmpty then 1 else 4, 1, 10, lgMax, lgLength, if p.isEmpty then 4 else 0, 1, 0] := by
  rw [headerField, hlgMax, hlgLength, naturalField_byte, naturalField_byte]
  simp only [flags, flagsFor]
  cases p.isEmpty <;> rfl

/-- Nothing follows the header of an empty snapshot. -/
private theorem toBytes_eq_headerField (h : p.isEmpty = true) : p.toBytes = p.headerField := by
  rw [toBytes, h]
  cases p.headerField <;> rfl

/-- A snapshot in which something was counted is written field by field. -/
private theorem toBytes_of_fields {header active streamLength offset : List UInt8}
    {counts items : List (List UInt8)} (hempty : p.isEmpty = false) (hheader : p.headerField = .ok header)
    (hactive : naturalField 4 p.active = .ok active)
    (hstreamLength : wordField p.streamLength = .ok streamLength)
    (hoffset : wordField p.offset = .ok offset) (hcounts : (p.entries.map (·.2)).mapM wordField = .ok counts)
    (hitems : (p.entries.map (·.1)).mapM wordField = .ok items) :
    p.toBytes = .ok (header ++
      (active ++ ([0, 0, 0, 0] ++ (streamLength ++ (offset ++ (counts.flatten ++ items.flatten)))))) := by
  rw [List.mapM_map] at hcounts hitems
  refine bind_eq_ok.mpr ⟨header, hheader, ?_⟩
  rw [hempty, if_neg Bool.false_ne_true]
  refine bind_eq_ok.mpr ⟨active, hactive, bind_eq_ok.mpr ⟨streamLength, hstreamLength, ?_⟩⟩
  refine bind_eq_ok.mpr ⟨offset, hoffset, bind_eq_ok.mpr ⟨counts, hcounts, ?_⟩⟩
  refine bind_eq_ok.mpr ⟨items, hitems, ?_⟩
  simp only [List.append_assoc]
  rfl

/-! ### The canonical form -/

/-- The byte at position `i` of `length` bytes in canonical form: bit 2 of the flags is kept, unused
bytes are zeros, and the table length of a snapshot without content is the least. -/
def canonicalByte (length i : ℕ) (b : UInt8) : UInt8 :=
  if i = 5 then b &&& 4
  else if i = 7 ∨ 12 ≤ i ∧ i < 16 then 0
  else if i = 4 ∧ length = 8 then 3
  else b

/-- Bytes with all that is not looked at cleared. -/
def canonical (bs : List UInt8) : List UInt8 := bs.mapIdx (canonicalByte bs.length)

/-- The flag is all that is left of the flags. -/
private theorem flags_and (b : UInt8) : b &&& 4 = if b.toNat.testBit 2 then 4 else 0 := by
  have hand : b.toNat &&& 4 = (b.toNat.testBit 2).toNat * 2 ^ 2 := Nat.and_two_pow _ 2
  apply UInt8.toNat_inj.mp
  rw [UInt8.toNat_and]
  change b.toNat &&& 4 = _
  rw [hand]
  cases b.toNat.testBit 2 <;> rfl

private theorem toBytes_of_emptyForm (h : Grammatical bs) (hform : EmptyForm bs) :
    (⟨byteAt bs 3, lgMinLength, 0, 0, []⟩ : Snapshot).toBytes = .ok (canonical bs) := by
  have h8 := hform.length_eq
  let [b₀, b₁, b₂, b₃, b₄, b₅, b₆, b₇] := bs
  have h₀ : b₀ = 1 := UInt8.toNat_inj.mp hform.words
  have h₁ : b₁ = 1 := UInt8.toNat_inj.mp h.version
  have h₂ : b₂ = 10 := UInt8.toNat_inj.mp h.family
  have h₆ : b₆ = 1 := UInt8.toNat_inj.mp h.itemType
  have h₅ : b₅ &&& 4 = 4 := by
    have hmarked : b₅.toNat.testBit 2 = true := hform.marked
    rw [flags_and, hmarked, if_pos rfl]
  have hheader : (⟨b₃.toNat, lgMinLength, 0, 0, []⟩ : Snapshot).headerField =
      .ok [1, 1, 10, b₃, 3, 4, 1, 0] := by
    have hleast : (lgMinLength : ℤ) = (3 : UInt8).toNat := rfl
    exact headerField_of_bytes rfl hleast
  have hcanonical : canonical [b₀, b₁, b₂, b₃, b₄, b₅, b₆, b₇] = [b₀, b₁, b₂, b₃, 3, b₅ &&& 4, b₆, 0] := rfl
  rw [hcanonical, h₀, h₁, h₂, h₅, h₆, ← hheader]
  exact toBytes_eq_headerField rfl

private theorem exists_four_bytes (h : bs.length = 4) : ∃ b₀ b₁ b₂ b₃, bs = [b₀, b₁, b₂, b₃] := by
  let [b₀, b₁, b₂, b₃] := bs
  exact ⟨b₀, b₁, b₂, b₃, rfl⟩

private theorem exists_eight_bytes (h : bs.length = 8) :
    ∃ b₀ b₁ b₂ b₃ b₄ b₅ b₆ b₇, bs = [b₀, b₁, b₂, b₃, b₄, b₅, b₆, b₇] := by
  let [b₀, b₁, b₂, b₃, b₄, b₅, b₆, b₇] := bs
  exact ⟨b₀, b₁, b₂, b₃, b₄, b₅, b₆, b₇, rfl⟩

/-- What the grammar says about the header of full bytes. -/
private theorem header_of_fullForm {b₀ b₁ b₂ b₃ b₄ b₅ b₆ b₇ : UInt8} {rest : List UInt8} (h : Grammatical bs)
    (hform : FullForm bs) (hbs : bs = [b₀, b₁, b₂, b₃, b₄, b₅, b₆, b₇] ++ rest) :
    b₀ = 4 ∧ b₁ = 1 ∧ b₂ = 10 ∧ byteAt bs 3 = b₃.toNat ∧ byteAt bs 4 = b₄.toNat ∧ b₅ &&& 4 = 0 ∧ b₆ = 1 := by
  subst hbs
  have hunmarked : b₅.toNat.testBit 2 = false := hform.unmarked
  refine ⟨UInt8.toNat_inj.mp hform.words, UInt8.toNat_inj.mp h.version, UInt8.toNat_inj.mp h.family, rfl, rfl,
    ?_, UInt8.toNat_inj.mp h.itemType⟩
  rw [flags_and, hunmarked, if_neg Bool.false_ne_true]

/-- Full bytes, part by part. -/
private theorem exists_parts {n : ℕ} (h : bs.length = bytesFor n) :
    ∃ header active unused streamLength offset counts items : List UInt8,
      bs = header ++ (active ++ (unused ++ (streamLength ++ (offset ++ (counts ++ items))))) ∧
        header.length = 8 ∧ active.length = 4 ∧ unused.length = 4 ∧ streamLength.length = wordBytes ∧
          offset.length = wordBytes ∧ counts.length = wordBytes * n ∧ items.length = wordBytes * n := by
  simp only [bytesFor, bytesFull, wordBytes, wordsFull] at h ⊢
  obtain ⟨header, rest, rfl, hheader⟩ := exists_append 8 bs (by omega)
  rw [List.length_append, hheader] at h
  obtain ⟨active, rest, rfl, hactive⟩ := exists_append 4 rest (by omega)
  rw [List.length_append, hactive] at h
  obtain ⟨unused, rest, rfl, hunused⟩ := exists_append 4 rest (by omega)
  rw [List.length_append, hunused] at h
  obtain ⟨streamLength, rest, rfl, hstreamLength⟩ := exists_append 8 rest (by omega)
  rw [List.length_append, hstreamLength] at h
  obtain ⟨offset, rest, rfl, hoffset⟩ := exists_append 8 rest (by omega)
  rw [List.length_append, hoffset] at h
  obtain ⟨counts, items, rfl, hcounts⟩ := exists_append (8 * n) rest (by omega)
  rw [List.length_append, hcounts] at h
  exact ⟨header, active, unused, streamLength, offset, counts, items, rfl, hheader, hactive, hunused,
    hstreamLength, hoffset, hcounts, by omega⟩

/-- Bytes whose places are looked at stay as they are. -/
private theorem mapIdx_eq_self {f : ℕ → UInt8 → UInt8} {xs : List UInt8}
    (h : ∀ i b, i < xs.length → f i b = b) : xs.mapIdx f = xs := by
  apply List.ext_getElem
  · exact List.length_mapIdx
  · intro i hi hi'
    rw [List.getElem_mapIdx]
    exact h i _ hi'

/-- The canonical form of full bytes, part by part. -/
private theorem canonical_append {b₀ b₁ b₂ b₃ b₄ b₅ b₆ b₇ u₀ u₁ u₂ u₃ : UInt8} {active rest : List UInt8}
    (hactive : active.length = 4) :
    canonical ([b₀, b₁, b₂, b₃, b₄, b₅, b₆, b₇] ++ (active ++ ([u₀, u₁, u₂, u₃] ++ rest))) =
      [b₀, b₁, b₂, b₃, b₄, b₅ &&& 4, b₆, 0] ++ (active ++ ([0, 0, 0, 0] ++ rest)) := by
  have hlength :
      ¬ ([b₀, b₁, b₂, b₃, b₄, b₅, b₆, b₇] ++ (active ++ ([u₀, u₁, u₂, u₃] ++ rest))).length = 8 := by
    simp only [List.length_append, hactive, List.length_cons]
    omega
  rw [canonical]
  generalize List.length _ = n at hlength ⊢
  rw [List.mapIdx_append, List.mapIdx_append, List.mapIdx_append, hactive]
  have hheader : [b₀, b₁, b₂, b₃, b₄, b₅, b₆, b₇].mapIdx (canonicalByte n) =
      [b₀, b₁, b₂, b₃, b₄, b₅ &&& 4, b₆, 0] := by
    simp [canonicalByte, hlength]
  have hkept : active.mapIdx (fun i => canonicalByte n (i + 8)) = active := by
    refine mapIdx_eq_self fun i b hi => ?_
    rw [canonicalByte, if_neg (by omega), if_neg (by omega), if_neg (by omega)]
  have hunused : [u₀, u₁, u₂, u₃].mapIdx (fun i => canonicalByte n (i + 4 + 8)) = [0, 0, 0, 0] := by
    simp [canonicalByte]
  have hrest : rest.mapIdx (fun i => canonicalByte n (i + 4 + 4 + 8)) = rest := by
    refine mapIdx_eq_self fun i b _ => ?_
    rw [canonicalByte, if_neg (by omega), if_neg (by omega), if_neg (by omega)]
  rw [hheader]
  exact congrArg _ (congrArg₂ _ hkept (congrArg₂ _ hunused hrest))

/-- Every number of full bytes is written as the bytes that it was read from. -/
private theorem FullForm.exists_written (h : FullForm bs) :
    ∃ (header active unused streamLength offset : List UInt8) (counts items : List (List UInt8)),
      bs = header ++
        (active ++ (unused ++ (streamLength ++ (offset ++ (counts.flatten ++ items.flatten))))) ∧
      header.length = 8 ∧ active.length = 4 ∧ unused.length = 4 ∧
      naturalField 4 (entriesOf bs).length = .ok active ∧
      wordField (streamLengthOf bs) = .ok streamLength ∧ wordField (offsetOf bs) = .ok offset ∧
      ((entriesOf bs).map (·.2)).mapM wordField = .ok counts ∧
      ((entriesOf bs).map (·.1)).mapM wordField = .ok items := by
  obtain ⟨header, active, unused, streamLength, offset, counts, items, hbs, h8, h4, hu, hs, ho, hc, hi⟩ :=
    exists_parts h.length_eq
  obtain ⟨hactive, hstreamLength, hoffset, hrest⟩ := field_append h8 h4 hu hs ho (counts ++ items)
  rw [← hbs] at hactive hstreamLength hoffset hrest
  obtain ⟨countWords, hcountWords, rfl⟩ := mapM_wordField_readWords hc
  obtain ⟨itemWords, hitemWords, rfl⟩ := mapM_wordField_readWords hi
  -- the counters are made of the counts and the items as they stand
  have hentries : entriesOf bs =
      (readWords (activeOf bs) itemWords.flatten).zip (readWords (activeOf bs) countWords.flatten) := by
    rw [entriesOf, hrest, List.drop_left' hc, ← Nat.add_zero bytesFull, hrest, List.drop_zero,
      readWords_append hc]
  have hwidth : (readWords (activeOf bs) itemWords.flatten).length =
      (readWords (activeOf bs) countWords.flatten).length := by
    rw [length_readWords, length_readWords]
  have hlength : (entriesOf bs).length = ofBytesLE active := by
    rw [hentries, List.length_zip, hwidth, min_self, length_readWords, activeOf, hactive]
  refine ⟨header, active, unused, streamLength, offset, countWords, itemWords, hbs, h8, h4, hu, ?_, ?_, ?_,
    ?_, ?_⟩
  · rw [hlength, naturalField_ofBytesLE h4]
  · rw [streamLengthOf, hstreamLength, wordField_ofWordBytes hs]
  · rw [offsetOf, hoffset, wordField_ofWordBytes ho]
  · rw [hentries, List.map_snd_zip hwidth.ge, hcountWords]
  · rw [hentries, List.map_fst_zip hwidth.le, hitemWords]

private theorem toBytes_of_fullForm (h : Grammatical bs) (hform : FullForm bs) :
    (⟨byteAt bs 3, byteAt bs 4, streamLengthOf bs, offsetOf bs, entriesOf bs⟩ : Snapshot).toBytes =
      .ok (canonical bs) := by
  obtain ⟨header, active, unused, streamLength, offset, counts, items, hbs, h8, h4, hu, hactive, hstreamLength,
    hoffset, hcounts, hitems⟩ := hform.exists_written
  obtain ⟨b₀, b₁, b₂, b₃, b₄, b₅, b₆, b₇, rfl⟩ := exists_eight_bytes h8
  obtain ⟨u₀, u₁, u₂, u₃, rfl⟩ := exists_four_bytes hu
  obtain ⟨h₀, h₁, h₂, h₃, h₄, h₅, h₆⟩ := header_of_fullForm h hform hbs
  set p : Snapshot := ⟨byteAt bs 3, byteAt bs 4, streamLengthOf bs, offsetOf bs, entriesOf bs⟩
  have hempty : p.isEmpty = false := decide_eq_false hform.streamLength_ne
  have hheader : p.headerField = .ok [4, 1, 10, b₃, b₄, 0, 1, 0] := by
    have hlgMax : p.lgMax = b₃.toNat := congrArg _ h₃
    have hlgLength : p.lgLength = b₄.toNat := congrArg _ h₄
    have hfields := headerField_of_bytes hlgMax hlgLength
    rwa [hempty] at hfields
  rw [toBytes_of_fields hempty hheader hactive hstreamLength hoffset hcounts hitems, hbs, canonical_append h4,
    h₀, h₁, h₂, h₅, h₆]

/-- **What was read is written in canonical form.** -/
theorem toBytes_of_ofBytes (h : ofBytes bs = .ok p) : p.toBytes = .ok (canonical bs) := by
  have hgrammatical : Grammatical bs := exists_ofBytes_iff.mp ⟨p, h⟩
  obtain ⟨-, h⟩ := ofBytes_eq_ok_iff.mp h
  rcases hgrammatical.form with hform | hform
  · have hmarked : Marked bs := marked_iff_testBit.mpr hform.marked
    rw [if_pos hmarked, ofEmptyBytes_eq_ok_iff] at h
    obtain ⟨-, -, rfl⟩ := h
    exact toBytes_of_emptyForm hgrammatical hform
  · have hunmarked : ¬ Marked bs := by
      rw [marked_iff_testBit, hform.unmarked]
      exact Bool.false_ne_true
    rw [if_neg hunmarked, ofFullBytes_eq_ok_iff] at h
    obtain ⟨-, -, -, -, rfl⟩ := h
    exact toBytes_of_fullForm hgrammatical hform

/-! ### Reading and writing -/

/-- The bytes of a writable snapshot are read as that snapshot, if something was counted. -/
private theorem Writable.exists_ofBytes (h : p.Writable) (hcounted : p.streamLength ≠ 0) :
    ∃ bs, p.toBytes = .ok bs ∧ ofBytes bs = .ok p := by
  obtain ⟨bs, hbs⟩ := h.exists_toBytes
  have hempty : p.isEmpty = false := decide_eq_false hcounted
  exact ⟨bs, hbs, ofBytes_toBytes hbs hempty h.lengths h.offset_nonneg⟩

/-- **The grammar of bytes.** Bytes are read exactly if they are grammatical. All others are reported as
corrupt, which is an error of a value, also when every field that is read has to be there. What was
read from bytes is written as their canonical form, and what was written for a snapshot with content, all
numbers of which fit in their fields, is read as that snapshot, with its counters in the same order. -/
theorem bytes_grammar :
    (∀ bs : List UInt8, ((∃ p, ofBytes bs = .ok p) ↔ Grammatical bs) ∧
      ofBytesGuarded bs = reported (ofBytes bs) ∧
      (¬ Grammatical bs → ∃ c, ofBytesGuarded bs = .error (.corrupt c) ∧
        (Error.corrupt c).kind = .value) ∧
      ∀ p, ofBytes bs = .ok p → p.toBytes = .ok (canonical bs)) ∧
    ∀ p : Snapshot, p.Writable → p.streamLength ≠ 0 → ∃ bs, p.toBytes = .ok bs ∧ ofBytes bs = .ok p := by
  refine ⟨fun bs => ⟨exists_ofBytes_iff, ofBytesGuarded_eq bs, ?_, fun p => toBytes_of_ofBytes⟩,
    fun p => Writable.exists_ofBytes⟩
  intro hnot
  rw [ofBytesGuarded_eq]
  cases h : ofBytes bs with
  | ok p => exact absurd (exists_ofBytes_iff.mp ⟨p, h⟩) hnot
  | error c => exact ⟨c, rfl, rfl⟩

/-- Bytes in which an item was counted twice, with every flag but the empty one set, and with unused
bytes that are no zeros. -/
def noisy : List UInt8 :=
  [4, 1, 10, 5, 3, 251, 1, 99, 1, 0, 0, 0, 7, 7, 7, 7, 2, 0, 0, 0, 0, 0, 0, 0, 0, 0, 0, 0, 0, 0, 0, 0,
    2, 0, 0, 0, 0, 0, 0, 0, 254, 255, 255, 255, 255, 255, 255, 255]

/-- Noisy bytes are read, and written without the noise. -/
theorem bytes_grammar_noisy :
    ofBytes noisy = .ok ⟨5, 3, 2, 0, [(-2, 2)]⟩ ∧ Grammatical noisy ∧
      (⟨5, 3, 2, 0, [(-2, 2)]⟩ : Snapshot).toBytes = .ok
        [4, 1, 10, 5, 3, 0, 1, 0, 1, 0, 0, 0, 0, 0, 0, 0, 2, 0, 0, 0, 0, 0, 0, 0, 0, 0, 0, 0, 0, 0, 0, 0,
          2, 0, 0, 0, 0, 0, 0, 0, 254, 255, 255, 255, 255, 255, 255, 255] := by
  have hread : ofBytes noisy = .ok ⟨5, 3, 2, 0, [(-2, 2)]⟩ := by rfl
  obtain ⟨hgrammar, -, -, hwritten⟩ := bytes_grammar.1 noisy
  exact ⟨hread, hgrammar.mp ⟨_, hread⟩, hwritten _ hread⟩

end HeavyHitters.Snapshot
