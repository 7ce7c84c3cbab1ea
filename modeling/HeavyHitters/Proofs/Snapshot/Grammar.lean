import HeavyHitters.Proofs.Snapshot.Writing
import Mathlib.Data.Nat.Bitwise

/-!
# The grammar of bytes

Which bytes can be read is said here byte by byte (`Grammatical`), and the reading accepts exactly
these. Several bytes may stand for one snapshot, since unused bytes and flags are not looked at, and
neither is the table length of an empty snapshot.

A field is always read where there are bytes for it. To say so, the reading is repeated with fields
that have to be there (`ofBytesGuarded`): it never comes to a field that is not.

## What is proved

* `ofBytes_eq_ok_iff`, `ofEmptyBytes_eq_ok_iff`, `ofFullBytes_eq_ok_iff`: when bytes are read, and as
  what.
* `exists_ofBytes_iff`: the bytes that can be read are the grammatical ones.
* `ofBytesGuarded_eq`: no field is read where there are no bytes for it.
-/

namespace HeavyHitters.Snapshot

variable {bs : List UInt8} {p : Snapshot}

/-! ### What is read -/

/-- What follows the words is not looked at. -/
theorem readWords_append {n : ℕ} {xs : List UInt8} (h : xs.length = wordBytes * n) (ys : List UInt8) :
    readWords n (xs ++ ys) = readWords n xs := by
  induction n generalizing xs with
  | zero => rfl
  | succ n ih =>
    rw [Nat.mul_succ] at h
    rw [readWords, readWords, List.take_append_of_le_length (by omega),
      List.drop_append_of_le_length (by omega), ih (by rw [List.length_drop]; omega)]

/-- **Bytes are read** if they start with a valid header, and what follows it can be read. -/
theorem ofBytes_eq_ok_iff :
    ofBytes bs = .ok p ↔ ValidHeader bs ∧
      (if Marked bs then ofEmptyBytes bs (byteAt bs 3)
        else ofFullBytes bs (byteAt bs 3) (byteAt bs 4)) = .ok p := by
  constructor
  · intro h
    have hheader : ValidHeader bs := by
      obtain ⟨_, hlength, h⟩ := bind_eq_ok.mp h
      obtain ⟨_, hwords, h⟩ := bind_eq_ok.mp h
      obtain ⟨_, hversion, h⟩ := bind_eq_ok.mp h
      obtain ⟨_, hfamily, h⟩ := bind_eq_ok.mp h
      obtain ⟨_, hmarked, h⟩ := bind_eq_ok.mp h
      obtain ⟨_, htype, -⟩ := bind_eq_ok.mp h
      exact ⟨ensure_eq_ok_iff.mp hlength, ensure_eq_ok_iff.mp hwords, ensure_eq_ok_iff.mp hversion,
        ensure_eq_ok_iff.mp hfamily, ensure_eq_ok_iff.mp hmarked, ensure_eq_ok_iff.mp htype⟩
    exact ⟨hheader, (ofBytes_of_validHeader hheader).symm.trans h⟩
  · rintro ⟨hheader, h⟩
    exact (ofBytes_of_validHeader hheader).trans h

/-- Bytes without content are read if there are no more than the header. -/
theorem ofEmptyBytes_eq_ok_iff {lgMax : ℤ} :
    ofEmptyBytes bs lgMax = .ok p ↔
      LengthsInRange lgMax lgMinLength ∧ bs.length = bytesEmpty ∧ p = ⟨lgMax, lgMinLength, 0, 0, []⟩ := by
  constructor
  · intro h
    obtain ⟨_, hlengths, h⟩ := bind_eq_ok.mp h
    obtain ⟨_, hlength, h⟩ := bind_eq_ok.mp h
    cases h
    exact ⟨checkLengths_eq_ok_iff.mp hlengths, ensure_eq_ok_iff.mp hlength, rfl⟩
  · rintro ⟨hlengths, hlength, rfl⟩
    rw [ofEmptyBytes, checkLengths_eq_ok_iff.mpr hlengths, ensure_of hlength]
    rfl

/-- The number of counters that full bytes record. -/
def activeOf (bs : List UInt8) : ℕ := ofBytesLE (field bs 8 4)

/-- The stream length that full bytes record. -/
def streamLengthOf (bs : List UInt8) : ℤ := ofWordBytes (field bs 16 wordBytes)

/-- The offset that full bytes record. -/
def offsetOf (bs : List UInt8) : ℤ := ofWordBytes (field bs 24 wordBytes)

/-- The counters of full bytes: all counts, and behind them all items. -/
def entriesOf (bs : List UInt8) : List (ℤ × ℤ) :=
  (readWords (activeOf bs) (bs.drop (bytesFull + wordBytes * activeOf bs))).zip
    (readWords (activeOf bs) (bs.drop bytesFull))

/-- Bytes with content are read if there are as many as the counters take, and the numbers in the
header are in range. -/
theorem ofFullBytes_eq_ok_iff {lgMax lgLength : ℤ} :
    ofFullBytes bs lgMax lgLength = .ok p ↔
      bs.length = bytesFor (activeOf bs) ∧ LengthsInRange lgMax lgLength ∧ 0 ≤ offsetOf bs ∧
        streamLengthOf bs ≠ 0 ∧
          p = ⟨lgMax, lgLength, streamLengthOf bs, offsetOf bs, entriesOf bs⟩ := by
  constructor
  · intro h
    obtain ⟨_, -, h⟩ := bind_eq_ok.mp h
    obtain ⟨_, hlength, h⟩ := bind_eq_ok.mp h
    obtain ⟨_, hlengths, h⟩ := bind_eq_ok.mp h
    obtain ⟨_, hoffset, h⟩ := bind_eq_ok.mp h
    obtain ⟨_, hstreamLength, h⟩ := bind_eq_ok.mp h
    cases h
    rw [checkEmptiness, if_neg Bool.false_ne_true] at hstreamLength
    exact ⟨ensure_eq_ok_iff.mp hlength, checkLengths_eq_ok_iff.mp hlengths, ensure_eq_ok_iff.mp hoffset,
      ensure_eq_ok_iff.mp hstreamLength, rfl⟩
  · rintro ⟨hlength, hlengths, hoffset, hstreamLength, rfl⟩
    have hfull : bytesFull ≤ bs.length := by
      rw [hlength, bytesFor]
      exact Nat.le_add_right _ _
    have hempty : checkEmptiness false (streamLengthOf bs) (activeOf bs) = .ok () :=
      ensure_of hstreamLength _
    simp only [activeOf, streamLengthOf, offsetOf] at hlength hoffset hempty
    simp only [ofFullBytes, ensure_of hfull, ensure_of hlength, checkLengths_eq_ok_iff.mpr hlengths,
      ensure_of hoffset, hempty, bind, Except.bind, pure, Except.pure]
    rfl

/-! ### The grammar -/

/-- Bytes without content. -/
structure EmptyForm (bs : List UInt8) : Prop where
  /-- The header has one word. -/
  words : byteAt bs 0 = 1
  /-- Bit 2 of the flags is set. -/
  marked : (byteAt bs 5).testBit 2 = true
  /-- Nothing follows the header. -/
  length_eq : bs.length = 8

/-- Bytes with content. -/
structure FullForm (bs : List UInt8) : Prop where
  /-- The header has four words. -/
  words : byteAt bs 0 = 4
  /-- Bit 2 of the flags is clear. -/
  unmarked : (byteAt bs 5).testBit 2 = false
  /-- Two words for each counter follow. -/
  length_eq : bs.length = 32 + 16 * activeOf bs
  /-- The table has at least eight slots. -/
  lgLength_ge : 3 ≤ byteAt bs 4
  /-- It is not longer than it may be. -/
  lgLength_le : byteAt bs 4 ≤ byteAt bs 3
  /-- Something was counted. -/
  streamLength_ne : streamLengthOf bs ≠ 0
  /-- The offset is not negative. -/
  offset_nonneg : 0 ≤ offsetOf bs

/-- The bytes that stand for a snapshot. -/
structure Grammatical (bs : List UInt8) : Prop where
  /-- There is a header. -/
  length_ge : 8 ≤ bs.length
  /-- The version is 1. -/
  version : byteAt bs 1 = 1
  /-- The family is 10. -/
  family : byteAt bs 2 = 10
  /-- The item type is 1. -/
  itemType : byteAt bs 6 = 1
  /-- The greatest length is at least eight slots. -/
  lgMax_ge : 3 ≤ byteAt bs 3
  /-- It is one that a sketch may have. -/
  lgMax_le : byteAt bs 3 ≤ 30
  /-- The rest has one of two forms. -/
  form : EmptyForm bs ∨ FullForm bs

theorem marked_iff_testBit : Marked bs ↔ (byteAt bs 5).testBit 2 = true := by
  have hand : byteAt bs 5 &&& emptyFlag = ((byteAt bs 5).testBit 2).toNat * 2 ^ 2 := Nat.and_two_pow _ 2
  rw [Marked, hand]
  cases (byteAt bs 5).testBit 2 <;> decide

/-- The lengths of bytes without content are in range if the greatest is. -/
private theorem lengthsInRange_least {lgMax : ℕ} :
    LengthsInRange lgMax lgMinLength ↔ 3 ≤ lgMax ∧ lgMax ≤ 30 := by
  simp only [lengthsInRange_iff, lgMinLength, lgMaxLength]
  omega

private theorem lengthsInRange_natCast {lgMax lgLength : ℕ} :
    LengthsInRange lgMax lgLength ↔ 3 ≤ lgLength ∧ lgLength ≤ lgMax ∧ lgMax ≤ 30 := by
  simp only [lengthsInRange_iff, lgMinLength, lgMaxLength]
  omega

private theorem Grammatical.of_ofBytes (h : ofBytes bs = .ok p) : Grammatical bs := by
  obtain ⟨hheader, h⟩ := ofBytes_eq_ok_iff.mp h
  by_cases hmarked : Marked bs
  · rw [if_pos hmarked, ofEmptyBytes_eq_ok_iff, lengthsInRange_least] at h
    obtain ⟨⟨hmin, hmax⟩, hlength, -⟩ := h
    exact ⟨hheader.length_le, hheader.version, hheader.family, hheader.itemType, hmin, hmax,
      .inl ⟨hheader.marked_iff.mp hmarked, marked_iff_testBit.mp hmarked, hlength⟩⟩
  · rw [if_neg hmarked, ofFullBytes_eq_ok_iff, lengthsInRange_natCast] at h
    obtain ⟨hlength, ⟨hmin, hle, hmax⟩, hoffset, hstreamLength, -⟩ := h
    have hwords : byteAt bs 0 = wordsFull :=
      hheader.words.resolve_left fun hempty => hmarked (hheader.marked_iff.mpr hempty)
    have hunmarked : (byteAt bs 5).testBit 2 = false := by
      rwa [marked_iff_testBit, Bool.not_eq_true] at hmarked
    exact ⟨hheader.length_le, hheader.version, hheader.family, hheader.itemType, hmin.trans hle, hmax,
      .inr ⟨hwords, hunmarked, hlength, hmin, hle, hstreamLength, hoffset⟩⟩

private theorem Grammatical.exists_ofBytes (h : Grammatical bs) : ∃ p, ofBytes bs = .ok p := by
  rcases h.form with hempty | hfull
  · have hmarked : Marked bs := marked_iff_testBit.mpr hempty.marked
    have hheader : ValidHeader bs :=
      ⟨h.length_ge, .inl hempty.words, h.version, h.family, ⟨fun _ => hempty.words, fun _ => hmarked⟩,
        h.itemType⟩
    have hlengths := lengthsInRange_least.mpr ⟨h.lgMax_ge, h.lgMax_le⟩
    rw [ofBytes_of_validHeader hheader, if_pos hmarked]
    exact ⟨_, ofEmptyBytes_eq_ok_iff.mpr ⟨hlengths, hempty.length_eq, rfl⟩⟩
  · have hunmarked : ¬ Marked bs := by
      rw [marked_iff_testBit, hfull.unmarked]
      exact Bool.false_ne_true
    have hwords : ¬ byteAt bs 0 = wordsEmpty := by
      rw [hfull.words]
      decide
    have hheader : ValidHeader bs :=
      ⟨h.length_ge, .inr hfull.words, h.version, h.family,
        ⟨fun hm => absurd hm hunmarked, fun hw => absurd hw hwords⟩, h.itemType⟩
    have hlengths := lengthsInRange_natCast.mpr ⟨hfull.lgLength_ge, hfull.lgLength_le, h.lgMax_le⟩
    rw [ofBytes_of_validHeader hheader, if_neg hunmarked]
    exact ⟨_, ofFullBytes_eq_ok_iff.mpr
      ⟨hfull.length_eq, hlengths, hfull.offset_nonneg, hfull.streamLength_ne, rfl⟩⟩

/-- **The bytes that can be read are the grammatical ones.** -/
theorem exists_ofBytes_iff : (∃ p, ofBytes bs = .ok p) ↔ Grammatical bs := by
  constructor
  · rintro ⟨p, h⟩
    exact .of_ofBytes h
  · exact Grammatical.exists_ofBytes

/-! ### Fields that are there -/

/-- The `width` bytes from position `i` on, which have to be there. -/
def fieldWithin (bs : List UInt8) (i width : ℕ) : Except Error (List UInt8) :=
  if i + width ≤ bs.length then .ok (field bs i width) else .error .fieldWidth

/-- What is wrong with bytes is reported as a corruption. -/
def reported {α : Type} (x : Except Corruption α) : Except Error α := x.mapError .corrupt

/-- The snapshot with content that bytes with a checked header stand for, by fields that have to be
there. -/
def ofFullBytesGuarded (bs : List UInt8) (lgMax lgLength : ℤ) : Except Error Snapshot := do
  reported (ensure (bytesFull ≤ bs.length) (.shortPreamble bs.length))
  let fields ← fieldWithin bs bytesEmpty (bytesFull - bytesEmpty)
  let active := ofBytesLE (field fields 0 4)
  let streamLength := ofWordBytes (field fields 8 wordBytes)
  let offset := ofWordBytes (field fields 16 wordBytes)
  reported (ensure (bs.length = bytesFor active) (.byteCount active bs.length))
  reported (checkLengths lgMax lgLength)
  reported (ensure (0 ≤ offset) (.negativeOffset offset))
  reported (checkEmptiness false streamLength active)
  let counts ← fieldWithin bs bytesFull (wordBytes * active)
  let items ← fieldWithin bs (bytesFull + wordBytes * active) (wordBytes * active)
  return ⟨lgMax, lgLength, streamLength, offset, (readWords active items).zip (readWords active counts)⟩

/-- The snapshot that bytes stand for, by fields that have to be there. -/
def ofBytesGuarded (bs : List UInt8) : Except Error Snapshot := do
  reported (ensure (bytesEmpty ≤ bs.length) (.shortHeader bs.length))
  let header ← fieldWithin bs 0 bytesEmpty
  let byte (i : ℕ) : ℕ := byteAt header i
  reported (ensure (byte 0 = wordsEmpty ∨ byte 0 = wordsFull) (.headerWords (byte 0)))
  reported (ensure (byte 1 = version) (.version (byte 1)))
  reported (ensure (byte 2 = family) (.family (byte 2)))
  reported (ensure (Marked header ↔ byte 0 = wordsEmpty) .emptyFlagMismatch)
  reported (ensure (byte 6 = itemType) (.itemType (byte 6)))
  if Marked header then reported (ofEmptyBytes bs (byte 3))
  else ofFullBytesGuarded bs (byte 3) (byte 4)

private theorem reported_bind {α β : Type} (x : Except Corruption α) (f : α → Except Corruption β) :
    reported (x >>= f) = reported x >>= fun a => reported (f a) := by
  cases x <;> rfl

private theorem ok_bind {ε α β : Type} (a : α) (f : α → Except ε β) : (.ok a >>= f : Except ε β) = f a := rfl

/-- What follows a check may use what was checked. -/
private theorem ensure_bind_congr {α : Type} {q : Prop} [Decidable q] (c : Corruption) {x y : Except Error α}
    (h : q → x = y) :
    (reported (ensure q c) >>= fun _ => x) = reported (ensure q c) >>= fun _ => y := by
  by_cases hq : q
  · rw [h hq]
  · simp only [ensure, hq, if_false]
    rfl

private theorem fieldWithin_of {i width : ℕ} (h : i + width ≤ bs.length) :
    fieldWithin bs i width = .ok (field bs i width) := if_pos h

/-- A part of a field is a field. -/
private theorem field_field {i j width n : ℕ} (h : j + n ≤ width) :
    field (field bs i width) j n = field bs (i + j) n := by
  rw [field, field, field, List.drop_take, List.take_take, List.drop_drop, min_eq_left (by omega)]

private theorem byteAt_field {i width : ℕ} (h : i < width) : byteAt (field bs 0 width) i = byteAt bs i := by
  rw [byteAt, byteAt, field, List.drop_zero, List.getD_eq_getElem?_getD, List.getD_eq_getElem?_getD,
    List.getElem?_take_of_lt h]

private theorem readWords_field {i n : ℕ} (h : i + wordBytes * n ≤ bs.length) :
    readWords n (field bs i (wordBytes * n)) = readWords n (bs.drop i) := by
  have hlength : (field bs i (wordBytes * n)).length = wordBytes * n :=
    List.length_take_of_le (by rw [List.length_drop]; omega)
  have happend := readWords_append hlength ((bs.drop i).drop (wordBytes * n))
  rwa [field, List.take_append_drop, ← field, eq_comm] at happend

private theorem ofFullBytesGuarded_eq (bs : List UInt8) (lgMax lgLength : ℤ) :
    ofFullBytesGuarded bs lgMax lgLength = reported (ofFullBytes bs lgMax lgLength) := by
  rw [ofFullBytesGuarded, ofFullBytes, reported_bind]
  refine ensure_bind_congr _ fun hfull => ?_
  have hfields : fieldWithin bs bytesEmpty (bytesFull - bytesEmpty) = .ok (field bs 8 24) :=
    fieldWithin_of hfull
  rw [hfields, ok_bind]
  have h8 : field (field bs 8 24) 0 4 = field bs 8 4 := field_field (by decide)
  have h16 : field (field bs 8 24) 8 wordBytes = field bs 16 wordBytes := field_field (by decide)
  have h24 : field (field bs 8 24) 16 wordBytes = field bs 24 wordBytes := field_field (by decide)
  simp only [h8, h16, h24]
  rw [reported_bind]
  refine ensure_bind_congr _ fun hlength => ?_
  set n := ofBytesLE (field bs 8 4) with hn
  have hend : bytesFull + wordBytes * n + wordBytes * n = bs.length := by
    simp only [hlength, bytesFor, wordBytes]
    omega
  have hcounts : fieldWithin bs bytesFull (wordBytes * n) = .ok (field bs bytesFull (wordBytes * n)) :=
    fieldWithin_of (by omega)
  have hitems : fieldWithin bs (bytesFull + wordBytes * n) (wordBytes * n) =
      .ok (field bs (bytesFull + wordBytes * n) (wordBytes * n)) := fieldWithin_of hend.le
  simp only [reported_bind, hcounts, hitems, ok_bind, readWords_field hend.le,
    readWords_field (show bytesFull + wordBytes * n ≤ bs.length by omega)]
  rfl

/-- **No field is read where there are no bytes for it**, so all that can be wrong with bytes is
reported as a corruption. -/
theorem ofBytesGuarded_eq (bs : List UInt8) : ofBytesGuarded bs = reported (ofBytes bs) := by
  rw [ofBytesGuarded, ofBytes, reported_bind]
  refine ensure_bind_congr _ fun hlength => ?_
  have hheader : fieldWithin bs 0 bytesEmpty = .ok (field bs 0 bytesEmpty) := fieldWithin_of (by omega)
  rw [hheader, ok_bind]
  have hbyte : ∀ i, i < 8 → byteAt (field bs 0 bytesEmpty) i = byteAt bs i := fun i hi => byteAt_field hi
  simp only [reported_bind, apply_ite reported, Marked, hbyte 0 (by decide), hbyte 1 (by decide),
    hbyte 2 (by decide), hbyte 3 (by decide), hbyte 4 (by decide), hbyte 5 (by decide), hbyte 6 (by decide),
    ofFullBytesGuarded_eq]
  rfl

end HeavyHitters.Snapshot
