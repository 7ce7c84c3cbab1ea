/-!
# Blank characters

Two classes of characters that carry no content, and the functions that take them off the
ends of a text. The white-space characters are those of the Unicode property of that name.
The blank characters are these together with the four information separators
`U+001C` to `U+001F`, so every white-space character is blank (`isBlank_of_isWhiteSpace`).
-/

namespace HeavyHitters.Text

/-- The characters with the Unicode property `White_Space`. -/
def isWhiteSpace (c : Char) : Bool :=
  let n := c.toNat
  (0x09 ≤ n && n ≤ 0x0D) || n == 0x20 || n == 0x85 || n == 0xA0 || n == 0x1680 ||
    (0x2000 ≤ n && n ≤ 0x200A) || n == 0x2028 || n == 0x2029 || n == 0x202F || n == 0x205F ||
    n == 0x3000

/-- The information separators: file, group, record and unit. -/
def isSeparator (c : Char) : Bool :=
  0x1C ≤ c.toNat && c.toNat ≤ 0x1F

/-- White space or an information separator. -/
def isBlank (c : Char) : Bool :=
  isWhiteSpace c || isSeparator c

theorem isBlank_of_isWhiteSpace {c : Char} (h : isWhiteSpace c = true) : isBlank c = true := by
  simp [isBlank, h]

/-- The list without the longest run of `p` at its end. -/
def dropEndWhile (p : Char → Bool) (cs : List Char) : List Char :=
  (cs.reverse.dropWhile p).reverse

/-- The list without the longest runs of `p` at both its ends. -/
def trim (p : Char → Bool) (cs : List Char) : List Char :=
  dropEndWhile p (cs.dropWhile p)

@[simp] theorem dropEndWhile_nil (p : Char → Bool) : dropEndWhile p [] = [] := rfl

theorem dropWhile_eq_nil_of_all {p : Char → Bool} {cs : List Char} (h : ∀ c ∈ cs, p c = true) :
    cs.dropWhile p = [] := by
  induction cs with
  | nil => rfl
  | cons c cs ih =>
    rw [List.dropWhile_cons, if_pos (h c (by simp))]
    exact ih fun d hd => h d (by simp [hd])

theorem dropEndWhile_append_of_all {p : Char → Bool} {cs ds : List Char}
    (h : ∀ c ∈ ds, p c = true) : dropEndWhile p (cs ++ ds) = dropEndWhile p cs := by
  have hds : ds.reverse.dropWhile p = [] := dropWhile_eq_nil_of_all (by simpa using h)
  simp [dropEndWhile, List.dropWhile_append, hds]

/-- What the ends are made of may stand there any number of times. -/
theorem trim_append_of_all {p : Char → Bool} {before cs after : List Char}
    (hbefore : ∀ c ∈ before, p c = true) (hafter : ∀ c ∈ after, p c = true) :
    trim p (before ++ cs ++ after) = trim p cs := by
  have hstart : (before ++ cs ++ after).dropWhile p = (cs ++ after).dropWhile p := by
    rw [List.append_assoc, List.dropWhile_append, dropWhile_eq_nil_of_all hbefore]
    rfl
  rw [trim, hstart, List.dropWhile_append]
  split
  · -- there was nothing else
    rename_i hempty
    rw [dropWhile_eq_nil_of_all hafter, trim, List.isEmpty_iff.mp hempty]
  · exact dropEndWhile_append_of_all hafter

end HeavyHitters.Text
