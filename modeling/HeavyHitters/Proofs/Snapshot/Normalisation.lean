import HeavyHitters.Proofs.Snapshot.Writing

/-!
# Lines in any form

The line that a snapshot is written as is one of many that are read as it. Blanks may stand around a
line and commas behind it, and each of its integers may be written in any way that a numeral can be
read. What all these lines have in common is the snapshot: it passes the checks, so it is `Readable`,
and the line that is written for it is read as the same again. So to read a line and to write it anew
takes it to its normal form.

Here no limit is set on the digits of an integer, and a readable snapshot has integers of any size.

## What is proved

* `ofLine_framed`: blanks around a line and commas behind it do not matter.
* `readable_of_ofLine`: what a line is read as passes the checks.
* `lines_normalise`: a readable snapshot is read from its line, however that is framed, and what is read
  from any line is readable.
-/

namespace HeavyHitters.Snapshot

variable {limit : Text.DigitLimit} {p : Snapshot}

/-- A snapshot passes the checks that are made when a line is read. -/
structure Readable (p : Snapshot) : Prop where
  /-- The table lengths are in range. -/
  lengths : LengthsInRange p.lgMax p.lgLength
  /-- The offset is not negative. -/
  offset_nonneg : 0 ≤ p.offset
  /-- There are no counters if nothing was counted. -/
  entries_eq_nil : p.streamLength = 0 → p.entries = []

/-! ### Frames -/

/-- Blanks around a line and commas behind it are not part of any field. -/
private theorem splitLine_framed {before cs after : List Char} (commas : ℕ)
    (hbefore : ∀ c ∈ before, Text.isBlank c = true) (hafter : ∀ c ∈ after, Text.isBlank c = true)
    (hcs : ∀ c ∈ cs, Text.isBlank c = false) :
    splitLine (before ++ (cs ++ List.replicate commas ',') ++ after) = splitLine cs := by
  have hcommas : ∀ c ∈ List.replicate commas ',', (c == ',') = true := by
    intro c hc
    rw [List.eq_of_mem_replicate hc]
    rfl
  have hblank : ∀ c ∈ cs ++ List.replicate commas ',', Text.isBlank c = false := by
    intro c hc
    rcases List.mem_append.mp hc with hc | hc
    · exact hcs c hc
    · rw [List.eq_of_mem_replicate hc]
      exact Text.not_isBlank (.inr (.inr rfl))
  rw [splitLine, splitLine, Text.trim_append_of_all hbefore hafter, Text.trim_eq_self hblank,
    Text.trim_eq_self hcs, Text.dropEndWhile_append_of_all hcommas]

/-- **Blanks around a line and commas behind it do not matter** when it is read. -/
theorem ofLine_framed {line : String} {before after : List Char} (commas : ℕ)
    (hline : p.toLine limit = .ok line) (hbefore : ∀ c ∈ before, Text.isBlank c = true)
    (hafter : ∀ c ∈ after, Text.isBlank c = true) :
    ofLine limit (String.ofList (before ++ (line.toList ++ List.replicate commas ',') ++ after)) =
      ofLine limit line := by
  obtain ⟨rfl, -⟩ := toLine_eq_ok hline
  rw [ofLine, ofLine, String.toList_ofList, String.toList_ofList,
    splitLine_framed commas hbefore hafter fun c hc => not_isBlank_of_mem_intercalate hc]

/-! ### What is read -/

/-- A snapshot whose mark is accepted has no counters if nothing was counted. -/
private theorem active_eq_zero_of_checkEmptiness {marked : Bool} {streamLength active : ℤ} {u : Unit}
    (h : checkEmptiness marked streamLength active = .ok u) (hzero : streamLength = 0) : active = 0 := by
  cases marked with
  | true => exact (ensure_eq_ok_iff.mp h).2
  | false => exact absurd hzero (ensure_eq_ok_iff.mp h)

/-- What integers stand for is readable. -/
private theorem readable_of_ofFields {fields : List ℤ} (h : ofFields fields = .ok p) : Readable p := by
  unfold ofFields at h
  split at h
  · rename_i version family lgMax marks type streamLength offset active length rest
    obtain ⟨-, -, h⟩ := bind_eq_ok.mp h
    obtain ⟨-, -, h⟩ := bind_eq_ok.mp h
    obtain ⟨-, -, h⟩ := bind_eq_ok.mp h
    obtain ⟨_, hcount, h⟩ := bind_eq_ok.mp h
    obtain ⟨-, -, h⟩ := bind_eq_ok.mp h
    obtain ⟨⟨⟩, hlengths, h⟩ := bind_eq_ok.mp h
    obtain ⟨_, hoffset, h⟩ := bind_eq_ok.mp h
    obtain ⟨_, hempty, h⟩ := bind_eq_ok.mp h
    cases h
    refine ⟨checkLengths_eq_ok_iff.mp hlengths, ensure_eq_ok_iff.mp hoffset, fun hzero => ?_⟩
    have hactive := active_eq_zero_of_checkEmptiness hempty hzero
    have hrest := (ensure_eq_ok_iff.mp hcount).2
    have hnil : rest = [] := List.eq_nil_of_length_eq_zero (by omega)
    rw [hnil]
    rfl
  · cases h

/-- **What a line is read as passes the checks.** -/
theorem readable_of_ofLine {line : String} (h : ofLine limit line = .ok p) : Readable p := by
  obtain ⟨-, -, h⟩ := bind_eq_ok.mp h
  obtain ⟨numbers, -, h⟩ := bind_eq_ok.mp h
  exact readable_of_ofFields h

/-! ### Normal forms -/

/-- A readable snapshot has a line, and this is read as the snapshot. -/
private theorem Readable.exists_line (h : Readable p) :
    ∃ line, p.toLine .unlimited = .ok line ∧ ofLine .unlimited line = .ok p := by
  have hmin := h.lengths.lgMin_le
  have hmax := h.lengths.lgLength_le.trans h.lengths.lgMax_le
  have hline := toLine_unlimited (s := p) (le_trans (by decide) hmin) (lt_of_le_of_lt hmax (by decide))
  exact ⟨_, hline, ofLine_toLine hline (by decide) h.lengths h.offset_nonneg h.entries_eq_nil⟩

/-- **Lines have normal forms.** A readable snapshot, with integers of any size, has a line, and it is read
from this line also with blanks around it and any number of commas behind it, the counters in the same
order. A text is either reported as corrupt or read as a readable snapshot, and then the line of that is
read as the same snapshot. -/
theorem lines_normalise :
    (∀ p : Snapshot, Readable p → ∃ line, p.toLine .unlimited = .ok line ∧
      ∀ (before after : List Char) (commas : ℕ), (∀ c ∈ before, Text.isBlank c = true) →
        (∀ c ∈ after, Text.isBlank c = true) →
        ofLine .unlimited (String.ofList
          (before ++ (line.toList ++ List.replicate commas ',') ++ after)) = .ok p) ∧
    ∀ text : String, (∃ c, ofLine .unlimited text = .error c ∧ (Error.corrupt c).kind = .value) ∨
      ∃ p line, ofLine .unlimited text = .ok p ∧ Readable p ∧ p.toLine .unlimited = .ok line ∧
        ofLine .unlimited line = .ok p := by
  refine ⟨fun p h => ?_, fun text => ?_⟩
  · obtain ⟨line, hline, hread⟩ := h.exists_line
    refine ⟨line, hline, fun before after commas hbefore hafter => ?_⟩
    rw [ofLine_framed commas hline hbefore hafter, hread]
  · cases htext : ofLine .unlimited text with
    | error c => exact .inl ⟨c, rfl, rfl⟩
    | ok p =>
      have hreadable := readable_of_ofLine htext
      obtain ⟨line, hline, hread⟩ := hreadable.exists_line
      exact .inr ⟨p, line, rfl, hreadable, hline, hread⟩

/-- A snapshot with a stream length beyond 64 bits. -/
def vast : Snapshot := ⟨5, 4, 18446744073709551616, 3, [(-7, 20), (9, 1)]⟩

/-- The line of the vast snapshot is read with blanks around it and commas behind it; and a line with signs,
blanks and underscores in it is read as the same snapshot, whose line is the normal form of both. -/
theorem lines_normalise_vast :
    Readable vast ∧
      vast.toLine .unlimited = .ok "1,10,5,0,1,18446744073709551616,3,2,16,-7,20,9,1" ∧
      ofLine .unlimited "\t 1,10,5,0,1,18446744073709551616,3,2,16,-7,20,9,1,, \n" = .ok vast ∧
      ofLine .unlimited "+1,1_0, 5,-2,01,18446744073709551616,\t3,2,16 ,-7,2_0,٩,1" = .ok vast := by
  have hreadable : Readable vast := ⟨⟨by decide, by decide, by decide⟩, by decide, by decide⟩
  have hwritten : vast.toLine .unlimited = .ok "1,10,5,0,1,18446744073709551616,3,2,16,-7,20,9,1" := by
    decide +kernel
  have hfancy : ofLine .unlimited "+1,1_0, 5,-2,01,18446744073709551616,\t3,2,16 ,-7,2_0,٩,1" = .ok vast := by
    decide +kernel
  obtain ⟨line, hline, hframed⟩ := lines_normalise.1 vast hreadable
  cases hwritten.symm.trans hline
  have hframed' := hframed ['\t', ' '] [' ', '\n'] 2 (List.all_eq_true.mp (by decide +kernel))
    (List.all_eq_true.mp (by decide +kernel))
  exact ⟨hreadable, hwritten, hframed', hfancy⟩

end HeavyHitters.Snapshot
