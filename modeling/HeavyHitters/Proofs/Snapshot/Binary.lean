import HeavyHitters.Proofs.Snapshot.Checks
import HeavyHitters.Snapshot.Binary

/-!
# Bytes can be read back

The bytes of a snapshot are made of fields of fixed width, so every field is found where it was
written, and the number in it is read as the number that it was written for.

## What is proved

* `ofWordBytes_of_wordField`: an integer in two's complement is read back.
* `readWords_flatten`: so are integers in words one after the other.
* `toBytes_eq_ok`: what the bytes of a snapshot consist of.
* `ofFullBytes_of_fields`: what is checked of the bytes of numbers are these numbers.
* `ofBytes_toBytes`: the bytes of a snapshot are read as that snapshot, if it is one that can be read
  and something was counted.
* `ofBytes_toBytes_of_isEmpty`: the bytes of an empty one are read as the empty snapshot of its greatest
  length.
-/

namespace HeavyHitters.Snapshot

/-! ### Numbers -/

/-- A word holds eight bytes. -/
theorem length_of_wordField {n : ℤ} {bs : List UInt8} (h : wordField n = .ok bs) : bs.length = wordBytes := by
  unfold wordField at h
  split_ifs at h
  cases h
  exact length_toBytesLE _ _

/-- **An integer in two's complement is read back.** -/
theorem ofWordBytes_of_wordField {n : ℤ} {bs : List UInt8} (h : wordField n = .ok bs) :
    ofWordBytes bs = n := by
  unfold wordField at h
  split_ifs at h with hword
  cases h
  obtain ⟨hmin, hmax⟩ := hword
  simp only [minWord, maxWord] at hmin hmax
  have hpow : powerOfTwo (8 * wordBytes) = 0x10000000000000000 := rfl
  have hlt : (n % 0x10000000000000000).toNat < 0x10000000000000000 := by omega
  rw [ofWordBytes, ofBytesLE_toBytesLE, hpow, Nat.mod_eq_of_lt hlt]
  split_ifs <;> omega

/-- A number without a sign is read back. -/
theorem ofBytesLE_of_naturalField {width : ℕ} {n : ℤ} {bs : List UInt8} (h : naturalField width n = .ok bs) :
    bs.length = width ∧ (ofBytesLE bs : ℤ) = n := by
  unfold naturalField at h
  split_ifs at h with hrange
  cases h
  have hlt : n.toNat < powerOfTwo (8 * width) := by omega
  rw [ofBytesLE_toBytesLE, Nat.mod_eq_of_lt hlt, Int.toNat_of_nonneg hrange.1]
  exact ⟨length_toBytesLE _ _, rfl⟩

/-- A number in one byte is that byte. -/
theorem exists_byte_of_naturalField {n : ℤ} {bs : List UInt8} (h : naturalField 1 n = .ok bs) :
    ∃ b : UInt8, bs = [b] ∧ (b.toNat : ℤ) = n := by
  obtain ⟨hlength, hvalue⟩ := ofBytesLE_of_naturalField h
  obtain ⟨b, rfl⟩ := List.length_eq_one_iff.mp hlength
  exact ⟨b, rfl, by simpa [ofBytesLE] using hvalue⟩

/-- Words one after the other. -/
theorem length_flatten_words {ns : List ℤ} {bss : List (List UInt8)} (h : ns.mapM wordField = .ok bss) :
    bss.flatten.length = wordBytes * ns.length := by
  have hall := mapM_eq_ok.mp h
  clear h
  induction hall with
  | nil => rfl
  | cons hn _ ih =>
    rw [List.flatten_cons, List.length_append, length_of_wordField hn, ih, List.length_cons,
      Nat.mul_succ, Nat.add_comm]

/-- **Integers in words are read back**, whatever follows them. -/
theorem readWords_flatten {ns : List ℤ} {bss : List (List UInt8)} (h : ns.mapM wordField = .ok bss)
    (rest : List UInt8) : readWords ns.length (bss.flatten ++ rest) = ns := by
  have hall := mapM_eq_ok.mp h
  clear h
  induction hall with
  | nil => rfl
  | cons hn _ ih =>
    have hlength := length_of_wordField hn
    rw [List.flatten_cons, List.append_assoc, List.length_cons, readWords, List.take_left' hlength,
      List.drop_left' hlength, ofWordBytes_of_wordField hn, ih]

/-! ### Fields -/

/-- A field behind bytes of known number. -/
private theorem drop_append_add {α : Type} {xs ys : List α} {n : ℕ} (h : xs.length = n) (m : ℕ) :
    (xs ++ ys).drop (n + m) = ys.drop m := by
  rw [← List.drop_drop, List.drop_left' h]

/-- The first word of a snapshot, byte by byte. -/
theorem headerField_eq_ok {p : Snapshot} {bs : List UInt8} (h : p.headerField = .ok bs) :
    ∃ lgMax lgLength : UInt8, (lgMax.toNat : ℤ) = p.lgMax ∧ (lgLength.toNat : ℤ) = p.lgLength ∧
      bs = [if p.isEmpty then 1 else 4, 1, 10, lgMax, lgLength, if p.isEmpty then 4 else 0, 1, 0] := by
  obtain ⟨bs₁, h₁, h⟩ := bind_eq_ok.mp h
  obtain ⟨bs₂, h₂, h⟩ := bind_eq_ok.mp h
  obtain ⟨lgMax, rfl, hlgMax⟩ := exists_byte_of_naturalField h₁
  obtain ⟨lgLength, rfl, hlgLength⟩ := exists_byte_of_naturalField h₂
  cases h
  refine ⟨lgMax, lgLength, hlgMax, hlgLength, ?_⟩
  unfold flags flagsFor
  cases p.isEmpty <;> rfl

/-- **The bytes of a snapshot** in which something was counted are its first word, the numbers of its
header, and its counts and items. -/
theorem toBytes_eq_ok {p : Snapshot} {bs : List UInt8} (h : p.toBytes = .ok bs)
    (hempty : p.isEmpty = false) :
    ∃ header active streamLength offset counts items,
      p.headerField = .ok header ∧ naturalField 4 p.active = .ok active ∧
      wordField p.streamLength = .ok streamLength ∧ wordField p.offset = .ok offset ∧
      (p.entries.map (·.2)).mapM wordField = .ok counts ∧
      (p.entries.map (·.1)).mapM wordField = .ok items ∧
      bs = header ++ (active ++ ([0, 0, 0, 0] ++ (streamLength ++ (offset ++ (counts.flatten ++ items.flatten))))) := by
  obtain ⟨header, hheader, h⟩ := bind_eq_ok.mp h
  rw [hempty] at h
  obtain ⟨active, hactive, h⟩ := bind_eq_ok.mp h
  obtain ⟨streamLength, hstreamLength, h⟩ := bind_eq_ok.mp h
  obtain ⟨offset, hoffset, h⟩ := bind_eq_ok.mp h
  obtain ⟨counts, hcounts, h⟩ := bind_eq_ok.mp h
  obtain ⟨items, hitems, h⟩ := bind_eq_ok.mp h
  cases h
  refine ⟨header, active, streamLength, offset, counts, items, hheader, hactive, hstreamLength, hoffset,
    ?_, ?_, ?_⟩
  · rw [List.mapM_map]
    exact hcounts
  · rw [List.mapM_map]
    exact hitems
  · simp only [List.append_assoc]

/-! ### Reading -/

/-- A byte as a number; behind the last there are zeros. -/
def byteAt (bs : List UInt8) (i : ℕ) : ℕ := (bs.getD i 0).toNat

/-- Whether the flags mark a snapshot as empty. -/
def Marked (bs : List UInt8) : Prop := byteAt bs 5 &&& emptyFlag ≠ 0

instance (bs : List UInt8) : Decidable (Marked bs) := by
  unfold Marked
  infer_instance

/-- Bytes start with the first word of a snapshot. -/
structure ValidHeader (bs : List UInt8) : Prop where
  /-- There are enough bytes. -/
  length_le : bytesEmpty ≤ bs.length
  /-- The header has one of the two lengths. -/
  words : byteAt bs 0 = wordsEmpty ∨ byteAt bs 0 = wordsFull
  /-- The version is known. -/
  version : byteAt bs 1 = version
  /-- The family is the right one. -/
  family : byteAt bs 2 = family
  /-- A header that is marked as empty is short. -/
  marked_iff : Marked bs ↔ byteAt bs 0 = wordsEmpty
  /-- The items are 64-bit integers. -/
  itemType : byteAt bs 6 = itemType

/-- After a valid header the rest of the bytes decides. -/
theorem ofBytes_of_validHeader {bs : List UInt8} (h : ValidHeader bs) :
    ofBytes bs =
      if Marked bs then ofEmptyBytes bs (byteAt bs 3) else ofFullBytes bs (byteAt bs 3) (byteAt bs 4) := by
  rw [ofBytes, ensure_of h.length_le]
  change (do
    ensure (byteAt bs 0 = wordsEmpty ∨ byteAt bs 0 = wordsFull) (.headerWords (byteAt bs 0))
    ensure (byteAt bs 1 = Snapshot.version) (.version (byteAt bs 1))
    ensure (byteAt bs 2 = Snapshot.family) (.family (byteAt bs 2))
    ensure (Marked bs ↔ byteAt bs 0 = wordsEmpty) .emptyFlagMismatch
    ensure (byteAt bs 6 = Snapshot.itemType) (.itemType (byteAt bs 6))
    if Marked bs then ofEmptyBytes bs (byteAt bs 3)
    else ofFullBytes bs (byteAt bs 3) (byteAt bs 4)) = _
  rw [ensure_of h.words, ensure_of h.version, ensure_of h.family, ensure_of h.marked_iff,
    ensure_of h.itemType]
  rfl

/-- The fields of a header, and what follows it, are where they were written. -/
theorem field_append {header active unused streamLength offset : List UInt8} (h8 : header.length = 8)
    (h4 : active.length = 4) (hu : unused.length = 4) (hs : streamLength.length = wordBytes)
    (ho : offset.length = wordBytes) (rest : List UInt8) :
    let bs := header ++ (active ++ (unused ++ (streamLength ++ (offset ++ rest))))
    field bs 8 4 = active ∧ field bs 16 wordBytes = streamLength ∧ field bs 24 wordBytes = offset ∧
      ∀ n, bs.drop (bytesFull + n) = rest.drop n := by
  intro bs
  refine ⟨?_, ?_, ?_, fun n => ?_⟩
  · rw [field, List.drop_left' h8, List.take_left' h4]
  · rw [field, show 16 = 8 + (4 + (4 + 0)) from rfl, drop_append_add h8, drop_append_add h4,
      drop_append_add hu, List.drop_zero, List.take_left' hs]
  · rw [field, show 24 = 8 + (4 + (4 + (wordBytes + 0))) from rfl, drop_append_add h8,
      drop_append_add h4, drop_append_add hu, drop_append_add hs, List.drop_zero,
      List.take_left' ho]
  · have hskipped : bytesFull + n = 8 + (4 + (4 + (wordBytes + (wordBytes + n)))) := by
      simp only [bytesFull, wordBytes, wordsFull]
      omega
    rw [hskipped, drop_append_add h8, drop_append_add h4, drop_append_add hu, drop_append_add hs,
      drop_append_add ho]

/-- **What follows the first word** is read as the numbers that it was written for, and these are
checked. -/
theorem ofFullBytes_of_fields {p : Snapshot} {header active unused streamLength offset : List UInt8}
    {counts items : List (List UInt8)} (h8 : header.length = 8) (hunused : unused.length = 4)
    (hactive : naturalField 4 p.active = .ok active)
    (hstreamLength : wordField p.streamLength = .ok streamLength)
    (hoffset : wordField p.offset = .ok offset) (hcounts : (p.entries.map (·.2)).mapM wordField = .ok counts)
    (hitems : (p.entries.map (·.1)).mapM wordField = .ok items) :
    ofFullBytes (header ++
        (active ++ (unused ++ (streamLength ++ (offset ++ (counts.flatten ++ items.flatten))))))
      p.lgMax p.lgLength = checked false p := by
  obtain ⟨h4, hactive'⟩ := ofBytesLE_of_naturalField hactive
  have hs8 := length_of_wordField hstreamLength
  have ho8 := length_of_wordField hoffset
  have hc8 := length_flatten_words hcounts
  have hi8 := length_flatten_words hitems
  rw [List.length_map] at hc8 hi8
  obtain ⟨hd8, hd16, hd24, hd32⟩ := field_append h8 h4 hunused hs8 ho8 (counts.flatten ++ items.flatten)
  generalize hbs : header ++
    (active ++ (unused ++ (streamLength ++ (offset ++ (counts.flatten ++ items.flatten))))) = bs at *
  have hcount : ofBytesLE active = p.entries.length := by
    have : (ofBytesLE active : ℤ) = p.entries.length := hactive'
    omega
  have hlength : bs.length = bytesFor p.entries.length := by
    rw [← hbs]
    simp only [List.length_append, h8, h4, hunused, hs8, ho8, hc8, hi8, bytesFor, bytesFull, wordBytes,
      wordsFull]
    omega
  have hreadCounts : readWords p.entries.length (bs.drop bytesFull) = p.entries.map (·.2) := by
    have hread := readWords_flatten hcounts items.flatten
    rw [List.length_map] at hread
    rw [← Nat.add_zero bytesFull, hd32, List.drop_zero, hread]
  have hreadItems : readWords p.entries.length (bs.drop (bytesFull + wordBytes * p.entries.length)) =
      p.entries.map (·.1) := by
    have hread := readWords_flatten hitems []
    rw [List.length_map, List.append_nil] at hread
    rw [hd32, List.drop_left' hc8, hread]
  simp only [ofFullBytes, hd8, hd16, hd24, hcount, hreadCounts, hreadItems,
    ofWordBytes_of_wordField hstreamLength, ofWordBytes_of_wordField hoffset, hlength]
  rw [ensure_of (by simp [bytesFor]), ensure_of trivial, List.zip_map']
  simp only [Prod.mk.eta, List.map_id']
  rfl

/-- **The bytes of a snapshot are read as that snapshot**, if its table lengths are in range, its
offset is not negative, and something was counted. -/
theorem ofBytes_toBytes {p : Snapshot} {bs : List UInt8} (h : p.toBytes = .ok bs)
    (hempty : p.isEmpty = false) (hlengths : LengthsInRange p.lgMax p.lgLength) (hoffset : 0 ≤ p.offset) :
    ofBytes bs = .ok p := by
  obtain ⟨header, active, streamLength, offset, counts, items, hheader, hactive, hstreamLength, hoffset',
    hcounts, hitems, hbs⟩ := toBytes_eq_ok h hempty
  obtain ⟨lgMax, lgLength, hlgMax, hlgLength, rfl⟩ := headerField_eq_ok hheader
  have hnonzero : p.streamLength ≠ 0 := of_decide_eq_false hempty
  have h8 : ([if p.isEmpty then 1 else 4, 1, 10, lgMax, lgLength, if p.isEmpty then 4 else 0, 1, 0] :
    List UInt8).length = 8 := rfl
  have hzeros : ([0, 0, 0, 0] : List UInt8).length = 4 := rfl
  have hfull := ofFullBytes_of_fields h8 hzeros hactive hstreamLength hoffset' hcounts hitems
  have hchecked := checked_isEmpty hlengths hoffset fun hzero => absurd hzero hnonzero
  rw [← hbs, ← hempty, hchecked] at hfull
  rw [hempty, if_neg Bool.false_ne_true, if_neg Bool.false_ne_true] at hbs
  generalize active ++ _ = rest at hbs
  subst hbs
  have hmarked : ¬ Marked ([4, 1, 10, lgMax, lgLength, 0, 1, 0] ++ rest) := by
    change ¬ 0 &&& emptyFlag ≠ 0
    decide
  have hheader : ValidHeader ([4, 1, 10, lgMax, lgLength, 0, 1, 0] ++ rest) :=
    ⟨by simp [bytesEmpty, wordBytes, wordsEmpty], .inr rfl, rfl, rfl,
      ⟨fun h => absurd h hmarked, fun h => by cases h⟩, rfl⟩
  rw [ofBytes_of_validHeader hheader, if_neg hmarked, ← hfull, ← hlgMax, ← hlgLength]
  rfl

/-- **The bytes of an empty snapshot** are read as the empty snapshot of its greatest length. -/
theorem ofBytes_toBytes_of_isEmpty {p : Snapshot} {bs : List UInt8} (h : p.toBytes = .ok bs)
    (hempty : p.isEmpty = true) (hlengths : LengthsInRange p.lgMax p.lgLength) :
    ofBytes bs = .ok ⟨p.lgMax, lgMinLength, 0, 0, []⟩ := by
  obtain ⟨header, hheader, h⟩ := bind_eq_ok.mp h
  rw [hempty, if_pos rfl] at h
  cases h
  obtain ⟨lgMax, lgLength, hlgMax, -, rfl⟩ := headerField_eq_ok hheader
  rw [hempty, if_pos rfl, if_pos rfl]
  have hmarked : Marked [1, 1, 10, lgMax, lgLength, 4, 1, 0] := by
    change emptyFlag &&& emptyFlag ≠ 0
    decide
  have hheader : ValidHeader [1, 1, 10, lgMax, lgLength, 4, 1, 0] :=
    ⟨le_rfl, .inl rfl, rfl, rfl, ⟨fun _ => rfl, fun _ => hmarked⟩, rfl⟩
  have hrange : LengthsInRange p.lgMax lgMinLength :=
    ⟨le_rfl, hlengths.lgMin_le.trans hlengths.lgLength_le, hlengths.lgMax_le⟩
  have hbyte : ((byteAt [1, 1, 10, lgMax, lgLength, 4, 1, 0] 3 : ℕ) : ℤ) = p.lgMax := hlgMax
  rw [ofBytes_of_validHeader hheader, if_pos hmarked, ofEmptyBytes, hbyte,
    checkLengths_eq_ok_iff.mpr hrange]
  rfl

end HeavyHitters.Snapshot
