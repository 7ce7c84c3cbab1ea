import HeavyHitters.Proofs.Numeral
import HeavyHitters.Proofs.Snapshot.Checks
import HeavyHitters.Snapshot.Line

/-!
# Lines can be read back

The line of a snapshot is its integers with commas between them. There are no blanks around it and no
commas at its end, so it splits into the numerals that it was made of, and these are read as the
integers that they were written for.

## What is proved

* `toLine_eq_ok`: what a line consists of.
* `ofFields_fieldsWith`, `ofLine_numerals`: what is checked of a line of numerals are their integers.
* `ofLine_toLine`: the line of a snapshot is read as that snapshot, if it is one that can be read.
-/

namespace HeavyHitters.Snapshot

variable {limit : Text.DigitLimit}

/-! ### Writing -/

/-- A limit allows an integer to be written. -/
def Allows (limit : Text.DigitLimit) (n : ℤ) : Prop := limit.exceededByNumber? n.natAbs = none

private theorem writeInteger_eq_ok {n : ℤ} {cs : List Char} (h : writeInteger limit n = .ok cs) :
    cs = Text.numeral n ∧ Allows limit n := by
  unfold writeInteger at h
  split at h
  · cases h
  · rename_i hnone
    cases h
    exact ⟨rfl, hnone⟩

private theorem writePower_eq_ok {lg : ℕ} {cs : List Char} (h : writePower limit lg = .ok cs) :
    cs = Text.numeral (powerOfTwo lg) ∧ Allows limit (powerOfTwo lg) := by
  unfold writePower at h
  split at h
  · cases h
  · exact writeInteger_eq_ok h

private theorem mapM_written_eq_ok {ns : List ℤ} {css : List (List Char)}
    (h : (ns.map Scalar.int).mapM (·.written limit) = .ok css) :
    css = ns.map Text.numeral ∧ ∀ n ∈ ns, Allows limit n := by
  have hall := mapM_eq_ok.mp h
  rw [List.forall₂_map_left_iff] at hall
  clear h
  induction hall with
  | nil => exact ⟨rfl, fun _ hn => by cases hn⟩
  | cons hn _ ih =>
    obtain ⟨rfl, hallow⟩ := writeInteger_eq_ok hn
    obtain ⟨rfl, hallows⟩ := ih
    exact ⟨rfl, List.forall_mem_cons.mpr ⟨hallow, hallows⟩⟩

/-- The scalars in the header of a line are integers. -/
theorem header_toDraft (p : Snapshot) :
    [Scalar.int version, .int family, p.toDraft.lgMax, .int p.toDraft.flags, .int itemType,
      p.toDraft.streamLength, p.toDraft.offset, .int p.toDraft.active] =
      [(version : ℤ), family, p.lgMax, p.flags, itemType, p.streamLength, p.offset, p.active].map
        Scalar.int := by
  rw [Draft.flags_toDraft, Draft.active_toDraft]
  rfl

/-- So are those that its entries are written with. -/
theorem counters_toDraft (p : Snapshot) :
    (p.toDraft.entries.flatMap fun e => [e.1, e.2]) =
      (p.entries.flatMap fun e => [e.1, e.2]).map Scalar.int := by
  simp [toDraft, List.flatMap_map, List.map_flatMap]

/-- **The line of a snapshot** consists of the numerals of its integers. The limit allows them all,
and the table length has a logarithm. -/
theorem toLine_eq_ok {p : Snapshot} {line : String} (h : p.toLine limit = .ok line) :
    line = String.ofList ([','].intercalate (p.lineFields.map Text.numeral)) ∧
      ∀ n ∈ p.lineFields, Allows limit n := by
  obtain ⟨lg, hlg, h⟩ := bind_eq_ok.mp h
  obtain ⟨header, hheader, h⟩ := bind_eq_ok.mp h
  obtain ⟨length, hlength, h⟩ := bind_eq_ok.mp h
  obtain ⟨counters, hcounters, h⟩ := bind_eq_ok.mp h
  cases h
  have hlgLength : lg = p.lgLength.toNat := by
    simp only [toDraft, Scalar.toLogarithm, Scalar.whole?_int] at hlg
    split_ifs at hlg
    cases hlg
    rfl
  rw [counters_toDraft] at hcounters
  obtain ⟨rfl, hallows⟩ := mapM_written_eq_ok hcounters
  obtain ⟨rfl, hallow⟩ := writePower_eq_ok hlength
  rw [header_toDraft] at hheader
  obtain ⟨rfl, hallows'⟩ := mapM_written_eq_ok hheader
  subst hlgLength
  refine ⟨?_, ?_⟩
  · simp [lineFields]
  · simp only [lineFields, List.forall_mem_append]
    refine ⟨?_, hallows⟩
    simp only [List.forall_mem_cons] at hallows' ⊢
    obtain ⟨h1, h2, h3, h4, h5, h6, h7, h8, -⟩ := hallows'
    exact ⟨h1, h2, h3, h4, h5, h6, h7, h8, hallow, fun _ hn => by cases hn⟩

/-! ### Splitting -/

private theorem mem_intercalate {c : Char} {ls : List (List Char)} (h : c ∈ [','].intercalate ls) :
    c = ',' ∨ ∃ l ∈ ls, c ∈ l := by
  induction ls with
  | nil => simp at h
  | cons l ls ih =>
    cases ls with
    | nil => exact .inr ⟨l, List.mem_cons_self, by simpa using h⟩
    | cons m ls =>
      rw [List.intercalate_cons_cons, List.append_assoc, List.mem_append, List.mem_append,
        List.mem_singleton] at h
      rcases h with hl | rfl | hrest
      · exact .inr ⟨l, List.mem_cons_self, hl⟩
      · exact .inl rfl
      · exact (ih hrest).imp_right fun ⟨k, hk, hc⟩ => ⟨k, List.mem_cons_of_mem _ hk, hc⟩

/-- A line ends with a numeral. -/
private theorem exists_intercalate_append (n : ℤ) (ns : List ℤ) :
    ∃ cs m, [','].intercalate ((n :: ns).map Text.numeral) = cs ++ Text.numeral m := by
  induction ns generalizing n with
  | nil => exact ⟨[], n, by simp [List.intercalate]⟩
  | cons m ns ih =>
    obtain ⟨cs, k, hcs⟩ := ih m
    refine ⟨Text.numeral n ++ [','] ++ cs, k, ?_⟩
    simp only [List.map_cons] at hcs ⊢
    rw [List.intercalate_cons_cons, hcs, ← List.append_assoc]

/-- There is nothing blank in a line. -/
theorem not_isBlank_of_mem_intercalate {ns : List ℤ} {c : Char}
    (hc : c ∈ [','].intercalate (ns.map Text.numeral)) : Text.isBlank c = false := by
  refine Text.not_isBlank ?_
  rcases mem_intercalate hc with rfl | ⟨l, hl, hcl⟩
  · exact .inr (.inr rfl)
  · obtain ⟨n, -, rfl⟩ := List.mem_map.mp hl
    exact (Text.isDigit_or_of_mem_numeral hcl).imp_right Or.inl

/-- **A line splits into its numerals.** -/
theorem splitLine_intercalate {ns : List ℤ} (hne : ns ≠ []) :
    splitLine ([','].intercalate (ns.map Text.numeral)) = ns.map Text.numeral := by
  have hcomma : ∀ l ∈ ns.map Text.numeral, ',' ∉ l := by
    intro l hl hmem
    obtain ⟨n, -, rfl⟩ := List.mem_map.mp hl
    rcases Text.isDigit_or_of_mem_numeral hmem with h | h <;> cases h
  rw [splitLine, Text.trim_eq_self fun c hc => not_isBlank_of_mem_intercalate hc]
  -- the last character is part of a numeral, and so no comma
  have hend : Text.dropEndWhile (· == ',') ([','].intercalate (ns.map Text.numeral)) =
      [','].intercalate (ns.map Text.numeral) := by
    obtain ⟨n, ns, rfl⟩ := List.exists_cons_of_ne_nil hne
    obtain ⟨cs, m, hcs⟩ := exists_intercalate_append n ns
    obtain ⟨ds, d, hds⟩ := List.exists_cons_of_ne_nil
      (List.reverse_ne_nil_iff.mpr (Text.numeral_ne_nil m))
    have hd : ds ∈ Text.numeral m := List.mem_reverse.mp (hds ▸ List.mem_cons_self)
    have hne' : (ds == ',') = false := by
      rw [beq_eq_false_iff_ne]
      rintro rfl
      rcases Text.isDigit_or_of_mem_numeral hd with h | h <;> cases h
    rw [hcs, Text.dropEndWhile, List.reverse_append, hds, List.cons_append, List.dropWhile_cons, hne']
    rw [if_neg Bool.false_ne_true, ← List.cons_append, ← hds, ← List.reverse_append, List.reverse_reverse]
  rw [hend]
  exact List.splitOn_intercalate ',' hcomma (by simpa using hne)

/-! ### Reading -/

private theorem mapM_readField {ns : List ℤ} (hlimit : limit ≠ .atMost 0)
    (h : ∀ n ∈ ns, Allows limit n) : (ns.map Text.numeral).mapM (readField limit) = .ok ns := by
  refine mapM_eq_ok.mpr (List.forall₂_map_left_iff.mpr ?_)
  refine List.forall₂_same.mpr fun n hn => ?_
  rw [readField, Text.readNumeral_numeral hlimit (h n hn)]
  rfl

private theorem pairUp_flatMap (es : List (ℤ × ℤ)) :
    pairUp (es.flatMap fun e => [e.1, e.2]) = es := by
  induction es with
  | nil => rfl
  | cons e es ih =>
    rw [List.flatMap_cons]
    change (e.1, e.2) :: pairUp (es.flatMap fun e => [e.1, e.2]) = e :: es
    rw [ih]

/-- The integers of a line, with any flags. -/
def fieldsWith (marks : ℤ) (p : Snapshot) : List ℤ :=
  [(version : ℤ), family, p.lgMax, marks, itemType, p.streamLength, p.offset, p.active,
    powerOfTwo p.lgLength.toNat] ++ p.entries.flatMap fun e => [e.1, e.2]

/-- **The integers of a line** are read as the snapshot that they were written for, and this is checked.
Any flags mark it as empty. -/
theorem ofFields_fieldsWith {p : Snapshot} (marks : ℤ) (hlg : 0 ≤ p.lgLength) :
    ofFields (fieldsWith marks p) = checked (0 < marks) p := by
  have hcount : ((p.entries.flatMap fun e => [e.1, e.2]).length : ℤ) = 2 * (p.active : ℤ) := by
    simp [List.length_flatMap, active]
    omega
  have hlog : ((powerOfTwo p.lgLength.toNat : ℕ) : ℤ).toNat.log2 = p.lgLength.toNat := by
    rw [Int.toNat_natCast, log2_powerOfTwo]
  have hnonneg : ((p.lgLength.toNat : ℕ) : ℤ) = p.lgLength := Int.toNat_of_nonneg hlg
  simp only [fieldsWith, List.cons_append, List.nil_append, ofFields]
  rw [ensure_of trivial, ensure_of trivial, ensure_of trivial,
    ensure_of ⟨Int.natCast_nonneg _, hcount⟩, hlog, ensure_of rfl, hnonneg, pairUp_flatMap]
  rfl

/-- **A line of numerals** is read as their integers, if the limit allows these to be written. -/
theorem ofLine_numerals {ns : List ℤ} (hlimit : limit ≠ .atMost 0) (hlength : headerFields ≤ ns.length)
    (hallows : ∀ n ∈ ns, Allows limit n) :
    ofLine limit (String.ofList ([','].intercalate (ns.map Text.numeral))) = ofFields ns := by
  have hne : ns ≠ [] := by
    rintro rfl
    cases hlength
  have hlength' : headerFields ≤ (ns.map Text.numeral).length := by
    rwa [List.length_map]
  rw [ofLine, String.toList_ofList, splitLine_intercalate hne]
  simp only [ensure_of hlength', mapM_readField hlimit hallows, bind, Except.bind]

/-- **The line of a snapshot is read as that snapshot**, if its table lengths are in range, its offset
is not negative, and it has no counters if nothing was counted. -/
theorem ofLine_toLine {p : Snapshot} {line : String} (h : p.toLine limit = .ok line)
    (hlimit : limit ≠ .atMost 0) (hlengths : LengthsInRange p.lgMax p.lgLength) (hoffset : 0 ≤ p.offset)
    (hempty : p.streamLength = 0 → p.entries = []) : ofLine limit line = .ok p := by
  obtain ⟨rfl, hallows⟩ := toLine_eq_ok h
  have hmark : decide (0 < (p.flags : ℤ)) = p.isEmpty := by
    unfold flags flagsFor
    cases p.isEmpty <;> rfl
  rw [ofLine_numerals hlimit (by simp [lineFields, headerFields]) hallows]
  change ofFields (fieldsWith p.flags p) = .ok p
  rw [ofFields_fieldsWith _ (le_trans (by decide) hlengths.lgMin_le), hmark,
    checked_isEmpty hlengths hoffset hempty]

end HeavyHitters.Snapshot
