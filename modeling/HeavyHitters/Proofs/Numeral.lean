import HeavyHitters.Text.Numeral
import Mathlib.Data.Int.Notation
import Mathlib.Data.List.TakeWhile
import Mathlib.Data.Nat.Notation

/-!
# Numerals can be read back

The numeral of an integer has nothing in it but the digits `0` to `9` and a minus sign at its start.
So none of what makes reading liberal applies to it, and it is read as the integer that it was
written for. With a limit on the digits this holds as long as the limit allows to write it.

## What is proved

* `readNumeral?_numeral`: the numeral of an integer is read as that integer.
* `readNumeral_numeral`: so it is with a limit that allows it to be written.
-/

namespace HeavyHitters.Text

/-! ### Digits -/

theorem isDigit_bounds {c : Char} (h : c.isDigit = true) : 48 ≤ c.toNat ∧ c.toNat ≤ 57 := by
  rw [Char.isDigit, Bool.and_eq_true, decide_eq_true_eq, decide_eq_true_eq] at h
  exact ⟨h.1, h.2⟩

/-- The value of a digit is its distance from zero. -/
theorem digitValue?_of_isDigit {c : Char} (h : c.isDigit = true) : digitValue? c = some (c.toNat - 48) := by
  obtain ⟨hlow, hhigh⟩ := isDigit_bounds h
  have hfirst : (0x30 ≤ c.toNat && c.toNat < 0x30 + 10) = true := by
    rw [Bool.and_eq_true, decide_eq_true_eq, decide_eq_true_eq]
    omega
  have hzeros : digitZeros = 0x30 :: digitZeros.tail := rfl
  rw [digitValue?, hzeros, List.find?_cons, hfirst]
  rfl

/-- Digits stand for the number with these digits. -/
theorem readDigits?_of_isDigit {cs : List Char} (h : ∀ c ∈ cs, c.isDigit = true) (value : ℕ) :
    readDigits? value cs = some (Nat.ofDigitChars 10 cs value) := by
  induction cs generalizing value with
  | nil => rfl
  | cons c cs ih =>
    have hc := h c List.mem_cons_self
    have hne : c ≠ '_' := by
      rintro rfl
      cases hc
    have hstep : readDigits? value (c :: cs) =
        (digitValue? c).bind fun d => readDigits? (10 * value + d) cs := by
      cases cs with
      | nil => rw [readDigits?.eq_3]; simp
      | cons d ds => rw [readDigits?.eq_3]; simp [hne]
    rw [hstep, digitValue?_of_isDigit hc, Option.bind_some, Nat.ofDigitChars_cons,
      ih fun d hd => h d (List.mem_cons_of_mem _ hd)]
    rfl

theorem isDigit_of_mem_toDigits {c : Char} {n : ℕ} (h : c ∈ Nat.toDigits 10 n) : c.isDigit = true :=
  Nat.isDigit_of_mem_toDigits (by decide) (by decide) h

theorem readUnsigned?_toDigits (n : ℕ) : readUnsigned? (Nat.toDigits 10 n) = some n := by
  have hdigits : ∀ c ∈ Nat.toDigits 10 n, c.isDigit = true := fun c hc => isDigit_of_mem_toDigits hc
  have hvalue : Nat.ofDigitChars 10 (Nat.toDigits 10 n) 0 = n := Nat.ofDigitChars_ten_toDigits
  cases hcs : Nat.toDigits 10 n with
  | nil => exact absurd hcs Nat.toDigits_ne_nil
  | cons c cs =>
    rw [hcs] at hdigits hvalue
    rw [readUnsigned?, digitValue?_of_isDigit (hdigits c List.mem_cons_self), Option.bind_some,
      readDigits?_of_isDigit fun d hd => hdigits d (List.mem_cons_of_mem _ hd)]
    rw [Nat.ofDigitChars_cons, Nat.mul_zero, Nat.zero_add] at hvalue
    exact congrArg some hvalue

/-! ### Numerals -/

theorem numeral_ne_nil (n : ℤ) : numeral n ≠ [] := by
  unfold numeral
  split
  · exact List.cons_ne_nil _ _
  · exact Nat.toDigits_ne_nil

/-- A numeral consists of digits and a sign. -/
theorem isDigit_or_of_mem_numeral {c : Char} {n : ℤ} (h : c ∈ numeral n) : c.isDigit = true ∨ c = '-' := by
  unfold numeral at h
  split at h
  · rcases List.mem_cons.mp h with rfl | h
    · exact .inr rfl
    · exact .inl (isDigit_of_mem_toDigits h)
  · exact .inl (isDigit_of_mem_toDigits h)

/-- A digit, a sign or a comma is not blank. -/
theorem not_isBlank {c : Char} (h : c.isDigit = true ∨ c = '-' ∨ c = ',') : isBlank c = false := by
  rcases h with h | rfl | rfl
  · obtain ⟨hlow, hhigh⟩ := isDigit_bounds h
    simp only [isBlank, isWhiteSpace, isSeparator, Bool.or_eq_false_iff, Bool.and_eq_false_iff,
      beq_eq_false_iff_ne, decide_eq_false_iff_not]
    omega
  · rfl
  · rfl

theorem trim_eq_self {p : Char → Bool} {cs : List Char} (h : ∀ c ∈ cs, p c = false) : trim p cs = cs := by
  have hstart : ∀ ds : List Char, (∀ c ∈ ds, p c = false) → ds.dropWhile p = ds := by
    intro ds hds
    cases ds with
    | nil => rfl
    | cons d ds => rw [List.dropWhile_cons, if_neg (by simp [hds d])]
  rw [trim, dropEndWhile, hstart cs h, hstart cs.reverse fun c hc => h c (List.mem_reverse.mp hc),
    List.reverse_reverse]

theorem trim_numeral (n : ℤ) : trim isWhiteSpace (numeral n) = numeral n := by
  refine trim_eq_self fun c hc => ?_
  have hblank := not_isBlank ((isDigit_or_of_mem_numeral hc).imp_right Or.inl)
  rw [isBlank, Bool.or_eq_false_iff] at hblank
  exact hblank.1

/-- Digits start with no sign. -/
private theorem exists_toDigits_cons (n : ℕ) :
    ∃ c cs, Nat.toDigits 10 n = c :: cs ∧ c ≠ '+' ∧ c ≠ '-' := by
  obtain ⟨c, cs, hcs⟩ := List.exists_cons_of_ne_nil (Nat.toDigits_ne_nil (n := n) (b := 10))
  have hc : c.isDigit = true := isDigit_of_mem_toDigits (hcs ▸ List.mem_cons_self)
  refine ⟨c, cs, hcs, ?_, ?_⟩
  · rintro rfl
    cases hc
  · rintro rfl
    cases hc

/-- **The numeral of an integer is read as that integer.** -/
theorem readNumeral?_numeral (n : ℤ) : readNumeral? (numeral n) = some n := by
  rw [readNumeral?, trim_numeral, numeral]
  split
  · rw [readSigned?, readUnsigned?_toDigits]
    change some (-((n.natAbs : ℕ) : ℤ)) = some n
    congr 1
    omega
  · obtain ⟨c, cs, hcs, hplus, hminus⟩ := exists_toDigits_cons n.natAbs
    have hread := readUnsigned?_toDigits n.natAbs
    rw [hcs] at hread ⊢
    rw [readSigned?.eq_3 _ (by simpa using hplus) (by simpa using hminus), hread]
    change some ((n.natAbs : ℕ) : ℤ) = some n
    congr 1
    omega

/-! ### Limits -/

/-- A numeral starts with as many digits as it has. -/
private theorem leadingDigits?_numeral (n : ℤ) :
    leadingDigits? (dropSign (numeral n)) = some (Nat.toDigits 10 n.natAbs).length := by
  have hdrop : dropSign (numeral n) = Nat.toDigits 10 n.natAbs := by
    unfold numeral
    split
    · rfl
    · obtain ⟨c, cs, hcs, hplus, hminus⟩ := exists_toDigits_cons n.natAbs
      rw [hcs, dropSign.eq_3 _ (by simpa using hplus) (by simpa using hminus)]
  have hall : (Nat.toDigits 10 n.natAbs).takeWhile (fun c => c == '_' || (digitValue? c).isSome) =
      Nat.toDigits 10 n.natAbs := by
    refine List.takeWhile_eq_self_iff.mpr fun c hc => ?_
    rw [digitValue?_of_isDigit (isDigit_of_mem_toDigits hc)]
    simp
  have hsplit : (Nat.toDigits 10 n.natAbs).splitOn '_' = [Nat.toDigits 10 n.natAbs] :=
    List.splitOn_eq_singleton Nat.underscore_not_in_toDigits
  simp [leadingDigits?, hdrop, hall, hsplit]

/-- **A numeral that a limit allows to be written can be read with that limit.** -/
theorem readNumeral_numeral {limit : DigitLimit} {n : ℤ} (hlimit : limit ≠ .atMost 0)
    (h : limit.exceededByNumber? n.natAbs = none) : readNumeral limit (numeral n) = .ok n := by
  have hoverlong : overlong? limit (numeral n) = none := by
    rw [overlong?, trim_numeral, leadingDigits?_numeral, Option.bind_some, Option.map_eq_none_iff]
    cases limit with
    | unlimited => rfl
    | atMost k =>
      have hk : 0 < k := Nat.pos_of_ne_zero fun hzero => hlimit (hzero ▸ rfl)
      have hlt : n.natAbs < 10 ^ k := by simpa [DigitLimit.exceededByNumber?] using h
      have hlength := (Nat.length_toDigits_le_iff (by decide) hk).mpr hlt
      simp [DigitLimit.exceededBy?, hlength]
  rw [readNumeral, hoverlong, readNumeral?_numeral]

end HeavyHitters.Text
