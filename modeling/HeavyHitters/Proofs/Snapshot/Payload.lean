import HeavyHitters.Proofs.Snapshot.Writing

/-!
# One payload, two encodings

Whatever numbers a payload consists of, both encodings can carry them, if each number has the width of
its field and the flags do not mark the payload as empty: as bytes with a full header, or as a line. The
readings are compared here on such payloads, which need not come from a snapshot.

Either reading finds the numbers as they were put there, and both make the same checks of them, in the
same order. They part in what they take for the mark of an empty snapshot. In bytes that is the empty
flag, which is clear; in a line it is any flag at all.

## What is proved

* `Payload.ofBytes_bytes`, `Payload.ofLine_line`: what is checked of either encoding.
* `decoders_agree_iff`: when the two readings come to the same.
-/

namespace HeavyHitters.Snapshot

/-! ### Payloads -/

/-- Numbers that both encodings can carry. -/
structure Payload where
  /-- The binary logarithm of the greatest table length. -/
  lgMax : UInt8
  /-- The binary logarithm of the table length. -/
  lgLength : UInt8
  /-- The flags. -/
  flags : UInt8
  /-- The stream length. -/
  streamLength : ℤ
  /-- The offset. -/
  offset : ℤ
  /-- The items with their counts. -/
  entries : List (ℤ × ℤ)
  /-- The empty flag is clear. -/
  unmarked : flags.toNat &&& emptyFlag = 0
  /-- The stream length fits in a word. -/
  streamLength_word : IsWord streamLength
  /-- So does the offset. -/
  offset_word : IsWord offset
  /-- So do all items and counts. -/
  entries_word : ∀ e ∈ entries, IsWord e.1 ∧ IsWord e.2
  /-- The number of entries fits in half a word. -/
  length_lt : entries.length < powerOfTwo 32

/-- The bytes of an integer in two's complement. -/
def wordOf (n : ℤ) : List UInt8 := toBytesLE wordBytes (n % 0x10000000000000000).toNat

theorem wordField_eq_wordOf {n : ℤ} (h : IsWord n) : wordField n = .ok (wordOf n) := if_pos h

theorem mapM_wordField_eq_wordOf {ns : List ℤ} (h : ∀ n ∈ ns, IsWord n) :
    ns.mapM wordField = .ok (ns.map wordOf) := by
  refine mapM_eq_ok.mpr (List.forall₂_map_right_iff.mpr (List.forall₂_same.mpr ?_))
  exact fun n hn => wordField_eq_wordOf (h n hn)

namespace Payload

variable (x : Payload)

/-- The snapshot with the numbers of a payload. -/
def content : Snapshot := ⟨x.lgMax.toNat, x.lgLength.toNat, x.streamLength, x.offset, x.entries⟩

/-- The first word of a payload. -/
def header : List UInt8 :=
  [wordsFull.toUInt8, version.toUInt8, family.toUInt8, x.lgMax, x.lgLength, x.flags, itemType.toUInt8, 0]

/-- A payload as bytes. -/
def bytes : List UInt8 :=
  x.header ++ (toBytesLE 4 x.entries.length ++ ([0, 0, 0, 0] ++ (wordOf x.streamLength ++ (wordOf x.offset ++
    (((x.entries.map (·.2)).map wordOf).flatten ++ ((x.entries.map (·.1)).map wordOf).flatten)))))

/-- A payload as a line. -/
def line : String :=
  String.ofList ([','].intercalate ((fieldsWith x.flags.toNat x.content).map Text.numeral))

/-! ### What is read -/

/-- The header is one of a snapshot that is not marked as empty. -/
private theorem validHeader_append (rest : List UInt8) :
    ¬ Marked (x.header ++ rest) ∧ ValidHeader (x.header ++ rest) := by
  have hmarked : ¬ Marked (x.header ++ rest) := fun h => h x.unmarked
  refine ⟨hmarked, ?_, .inr rfl, rfl, rfl, ⟨fun h => absurd h hmarked, fun h => by cases h⟩, rfl⟩
  simp [header, bytesEmpty, wordBytes, wordsEmpty]

/-- **The bytes of a payload** are read as its numbers, which are checked as those of a snapshot that is
not marked as empty. -/
theorem ofBytes_bytes : ofBytes x.bytes = checked false x.content := by
  have hactive : naturalField 4 x.content.active = .ok (toBytesLE 4 x.entries.length) :=
    if_pos ⟨Int.natCast_nonneg _, Int.ofNat_lt.mpr x.length_lt⟩
  have hstreamLength : wordField x.content.streamLength = .ok (wordOf x.streamLength) :=
    wordField_eq_wordOf x.streamLength_word
  have hoffset : wordField x.content.offset = .ok (wordOf x.offset) := wordField_eq_wordOf x.offset_word
  have hcounts : (x.content.entries.map (·.2)).mapM wordField = .ok ((x.entries.map (·.2)).map wordOf) :=
    mapM_wordField_eq_wordOf (List.forall_mem_map.mpr fun e he => (x.entries_word e he).2)
  have hitems : (x.content.entries.map (·.1)).mapM wordField = .ok ((x.entries.map (·.1)).map wordOf) :=
    mapM_wordField_eq_wordOf (List.forall_mem_map.mpr fun e he => (x.entries_word e he).1)
  have hheader : x.header.length = 8 := rfl
  have hzeros : ([0, 0, 0, 0] : List UInt8).length = 4 := rfl
  have hfull := ofFullBytes_of_fields hheader hzeros hactive hstreamLength hoffset hcounts hitems
  rw [bytes]
  generalize toBytesLE 4 x.entries.length ++ _ = rest at hfull ⊢
  obtain ⟨hmarked, hvalid⟩ := x.validHeader_append rest
  rw [ofBytes_of_validHeader hvalid, if_neg hmarked]
  exact hfull

/-- The usual limit allows all numbers of a payload. -/
private theorem allows_fields : ∀ n ∈ fieldsWith x.flags.toNat x.content, Allows .usual n := by
  have hbyte : ∀ b : UInt8, Allows .usual b.toNat := fun b => by
    have := b.toNat_lt
    exact allows_usual (by omega)
  have hactive : x.content.active < 2 ^ 32 := x.length_lt
  have hpower : powerOfTwo x.content.lgLength.toNat ≤ 2 ^ 255 := by
    have := x.lgLength.toNat_lt
    exact powerOfTwo_mono (show x.content.lgLength.toNat ≤ 255 by simp only [content, Int.toNat_natCast]; omega)
  simp only [fieldsWith, List.forall_mem_append, List.forall_mem_cons, version, family, itemType]
  refine ⟨⟨allows_usual (by decide), allows_usual (by decide), hbyte _, hbyte _, allows_usual (by decide),
    allows_usual_of_isWord x.streamLength_word, allows_usual_of_isWord x.offset_word, allows_usual (by omega),
    allows_usual (by omega), fun _ hn => by cases hn⟩, fun n hn => ?_⟩
  obtain ⟨e, he, hn⟩ := List.mem_flatMap.mp hn
  obtain ⟨hitem, hcount⟩ := x.entries_word e he
  rcases List.mem_pair.mp hn with rfl | rfl
  · exact allows_usual_of_isWord hitem
  · exact allows_usual_of_isWord hcount

/-- **The line of a payload** is read as its numbers, which are checked as those of a snapshot that is
marked as empty if it has any flags. -/
theorem ofLine_line : ofLine .usual x.line = checked (x.flags ≠ 0) x.content := by
  have hmark : decide (0 < ((x.flags.toNat : ℕ) : ℤ)) = decide (x.flags ≠ 0) := by
    have hzero : x.flags = 0 ↔ x.flags.toNat = 0 := UInt8.toNat_inj.symm
    rw [decide_eq_decide, ne_eq, hzero]
    omega
  rw [line, ofLine_numerals (by decide) (by simp [fieldsWith, headerFields]) x.allows_fields,
    ofFields_fieldsWith _ (Int.natCast_nonneg _), hmark]

end Payload

/-! ### When the readings agree -/

/-- Two checks of one snapshot come to the same if both marks fit, or neither does, or its numbers are
out of range. -/
private theorem toOption_checked_eq_iff {marked marked' : Bool} {p : Snapshot} :
    (checked marked p).toOption = (checked marked' p).toOption ↔
      (p.InRange → (MarkFits marked p ↔ MarkFits marked' p)) := by
  have hmem : ∀ q, q ∈ (checked marked p).toOption ↔ q = p ∧ p.InRange ∧ MarkFits marked p := fun q =>
    mem_toOption_iff.trans checked_eq_ok_iff
  have hmem' : ∀ q, q ∈ (checked marked' p).toOption ↔ q = p ∧ p.InRange ∧ MarkFits marked' p := fun q =>
    mem_toOption_iff.trans checked_eq_ok_iff
  constructor
  · intro hsame hrange
    have hp := (hmem p).symm.trans (hsame ▸ hmem' p)
    simpa only [true_and, hrange] using hp
  · intro hmarks
    refine Option.ext fun q => ?_
    refine (hmem q).trans (Iff.trans ?_ (hmem' q).symm)
    exact and_congr_right fun _ => and_congr_right hmarks

/-- **The two readings of a payload** check the same numbers, in the same order: the bytes as unmarked,
and the line as marked if there are any flags. They come to the same, the same snapshot or a refusal,
exactly if there are no flags, or the numbers are out of range, or nothing was counted and there are
entries nevertheless. -/
theorem decoders_agree_iff (x : Payload) :
    ofBytes x.bytes = checked false x.content ∧ ofLine .usual x.line = checked (x.flags ≠ 0) x.content ∧
      ((ofBytes x.bytes).toOption = (ofLine .usual x.line).toOption ↔
        x.flags = 0 ∨ ¬ x.content.InRange ∨ x.streamLength = 0 ∧ x.entries ≠ []) := by
  refine ⟨x.ofBytes_bytes, x.ofLine_line, ?_⟩
  rw [x.ofBytes_bytes, x.ofLine_line, toOption_checked_eq_iff]
  by_cases hflags : x.flags = 0
  · simp only [hflags, ne_eq, not_true_eq_false, decide_false, true_or, implies_true]
  · have hstreamLength : x.content.streamLength = x.streamLength := rfl
    have hentries : x.content.entries = x.entries := rfl
    simp only [hflags, ne_eq, not_false_eq_true, decide_true, MarkFits, hstreamLength, hentries, false_or,
      Bool.false_eq_true, if_false, if_true]
    tauto

/-- A payload with a flag that has no meaning. -/
def flagged : Payload where
  lgMax := 3
  lgLength := 3
  flags := 1
  streamLength := 3
  offset := 0
  entries := [(5, 3)]
  unmarked := rfl
  streamLength_word := by decide
  offset_word := by decide
  entries_word := by decide
  length_lt := by decide

/-- Its bytes are read, and its line is refused. -/
theorem decoders_differ_flagged :
    flagged.line = "1,10,3,1,1,3,0,1,8,5,3" ∧ ofBytes flagged.bytes = .ok ⟨3, 3, 3, 0, [(5, 3)]⟩ ∧
      ofLine .usual flagged.line = .error (.flaggedEmpty 3 1) :=
  ⟨by decide +kernel, by decide +kernel, by decide +kernel⟩

end HeavyHitters.Snapshot
