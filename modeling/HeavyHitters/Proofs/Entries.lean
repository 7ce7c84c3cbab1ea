import Mathlib.Algebra.Order.BigOperators.Group.List
import Mathlib.Data.List.Nodup
import Mathlib.Data.List.Perm.Basic
import Mathlib.Tactic.Linarith
import Mathlib.Tactic.Ring

/-!
# Entries

A list of pairs of an item and a count, seen as a dictionary: its keys are distinct, and its order
does not matter. The two things that happen to the counters of a sketch are easy to say of such a
list. Something is added to the count of an item (`add`), or all counts are lessened by an amount
and those that are not greater than it are dropped (`lessen`).

## What is proved

* `add_perm`: what is added can be told up to the order of the entries.
* `count_add`, `count_lessen`: what they do to the count of an item.
* `length_add`, `length_lessen`: what they do to the number of entries.
* `total_add`, `total_lessen_le`: what they do to the sum of all counts.
* `mem_iff_count`, `perm_of_count_eq`: where all counts are positive, they tell the entries.
* `tally_eq_count`: in a list with distinct items the entries of an item add up to its count.
-/

namespace HeavyHitters

/-- Pairs of an item and its count. -/
abbrev Entries := List (ℤ × ℤ)

namespace Entries

/-- The items. -/
def keys (es : Entries) : List ℤ := es.map Prod.fst

/-- The counts. -/
def values (es : Entries) : List ℤ := es.map Prod.snd

/-- No item has two counts. -/
def Distinct (es : Entries) : Prop := es.keys.Nodup

/-- The count of an item, if it has one. -/
def get? (es : Entries) (item : ℤ) : Option ℤ := es.lookup item

/-- The count of an item, or zero if it has none. -/
def count (es : Entries) (item : ℤ) : ℤ := (es.get? item).getD 0

/-- The sum of all counts. -/
def total (es : Entries) : ℤ := es.values.sum

/-- Adds to the count of an item, which is entered if it has none. -/
def add (es : Entries) (item count : ℤ) : Entries :=
  if item ∈ es.keys then es.map fun e => if e.1 = item then (e.1, e.2 + count) else e
  else (item, count) :: es

/-- Lessens all counts by an amount, and drops those that are not greater than it. -/
def lessen (es : Entries) (amount : ℤ) : Entries :=
  (es.filter fun e => amount < e.2).map fun e => (e.1, e.2 - amount)

variable {es fs : Entries}

/-! ### Order -/

theorem Distinct.perm (h : es.Distinct) (hp : List.Perm es fs) : fs.Distinct :=
  (hp.map Prod.fst).nodup_iff.mp h

theorem get?_eq_some_iff (h : es.Distinct) {item n : ℤ} : es.get? item = some n ↔ (item, n) ∈ es := by
  induction es with
  | nil => simp [get?]
  | cons e es ih =>
    obtain ⟨k, m⟩ := e
    have hnodup := List.nodup_cons.mp h
    have hes : Distinct es := hnodup.2
    by_cases hk : item = k
    · subst hk
      simp only [get?, List.lookup_cons_self, Option.some.injEq, List.mem_cons, Prod.mk.injEq,
        true_and]
      constructor
      · rintro rfl
        exact Or.inl rfl
      · rintro (rfl | hmem)
        · rfl
        · exact absurd (List.mem_map_of_mem (f := Prod.fst) hmem) hnodup.1
    · have hbeq : (item == k) = false := by simpa using hk
      simp only [get?, List.lookup_cons, hbeq, List.mem_cons, Prod.mk.injEq, hk, false_and, false_or]
      exact ih hes

theorem get?_eq_none_iff {item : ℤ} : es.get? item = none ↔ item ∉ es.keys := by
  simp only [get?, List.lookup_eq_none_iff, keys, List.mem_map, not_exists, not_and]
  constructor
  · intro h e he hitem
    have := h e he
    simp [hitem] at this
  · intro h e he
    simpa using fun hitem => h e he hitem.symm

theorem get?_perm (h : es.Distinct) (hp : List.Perm es fs) (item : ℤ) : es.get? item = fs.get? item := by
  ext n
  rw [get?_eq_some_iff h, get?_eq_some_iff (h.perm hp)]
  exact hp.mem_iff

theorem total_perm (hp : List.Perm es fs) : es.total = fs.total := (hp.map Prod.snd).sum_eq

theorem add_perm (hp : List.Perm es fs) (item n : ℤ) : (es.add item n).Perm (fs.add item n) := by
  have hkeys : item ∈ es.keys ↔ item ∈ fs.keys := (hp.map Prod.fst).mem_iff
  unfold add
  simp only [hkeys]
  split_ifs
  · exact hp.map _
  · exact hp.cons _

/-! ### Keys -/

theorem keys_add (es : Entries) (item n : ℤ) :
    (es.add item n).keys = if item ∈ es.keys then es.keys else item :: es.keys := by
  unfold add
  split_ifs with h
  · simp only [keys, List.map_map]
    refine List.map_congr_left fun e _ => ?_
    simp only [Function.comp_apply]
    split_ifs <;> rfl
  · rfl

theorem mem_keys_add_iff {item n k : ℤ} : k ∈ (es.add item n).keys ↔ k = item ∨ k ∈ es.keys := by
  rw [keys_add]
  split_ifs with hmem
  · refine ⟨Or.inr, ?_⟩
    rintro (rfl | hk)
    · exact hmem
    · exact hk
  · exact List.mem_cons

theorem Distinct.add (h : es.Distinct) (item n : ℤ) : (es.add item n).Distinct := by
  rw [Distinct, keys_add]
  split_ifs with hmem
  · exact h
  · exact List.nodup_cons.mpr ⟨hmem, h⟩

theorem keys_lessen_sublist (es : Entries) (amount : ℤ) : (es.lessen amount).keys.Sublist es.keys := by
  have : (es.lessen amount).keys = (es.filter fun e => amount < e.2).map Prod.fst := by
    simp [lessen, keys, Function.comp_def]
  rw [this]
  exact List.filter_sublist.map _

theorem Distinct.lessen (h : es.Distinct) (amount : ℤ) : (es.lessen amount).Distinct :=
  (keys_lessen_sublist es amount).nodup h

/-! ### Adding to a count -/

theorem mem_add_iff (h : es.Distinct) {item n k m : ℤ} :
    (k, m) ∈ es.add item n ↔
      if k = item then m = es.count item + n else (k, m) ∈ es := by
  by_cases hmem : item ∈ es.keys
  · obtain ⟨⟨k', old⟩, hold, rfl⟩ := List.mem_map.mp hmem
    have hget : es.get? k' = some old := (get?_eq_some_iff h).mpr hold
    rw [add, if_pos hmem]
    simp only [List.mem_map, Prod.exists, count, hget, Option.getD_some]
    split_ifs with hk
    · subst hk
      constructor
      · rintro ⟨a, b, hab, heq⟩
        split_ifs at heq with ha
        · cases heq
          have := (get?_eq_some_iff h).mpr hab
          rw [hget] at this
          cases this
          rfl
        · cases heq
          exact absurd rfl ha
      · rintro rfl
        exact ⟨k, old, hold, by simp⟩
    · constructor
      · rintro ⟨a, b, hab, heq⟩
        split_ifs at heq with ha
        · cases heq
          exact absurd ha hk
        · cases heq
          exact hab
      · intro hkm
        exact ⟨k, m, hkm, by simp [hk]⟩
  · have hget : es.get? item = none := get?_eq_none_iff.mpr hmem
    rw [add, if_neg hmem]
    simp only [List.mem_cons, Prod.mk.injEq, count, hget, Option.getD_none, zero_add]
    split_ifs with hk
    · subst hk
      simp only [true_and, or_iff_left_iff_imp]
      intro hkm
      exact absurd (List.mem_map_of_mem (f := Prod.fst) hkm) hmem
    · simp [hk]

theorem get?_add (h : es.Distinct) (item n k : ℤ) :
    (es.add item n).get? k = if k = item then some (es.count item + n) else es.get? k := by
  ext m
  rw [get?_eq_some_iff (h.add item n), mem_add_iff h]
  split_ifs
  · rw [Option.some.injEq, eq_comm]
  · exact (get?_eq_some_iff h).symm

theorem count_add (h : es.Distinct) (item n k : ℤ) :
    (es.add item n).count k = if k = item then es.count item + n else es.count k := by
  unfold count
  rw [get?_add h]
  split_ifs <;> rfl

theorem length_add (es : Entries) (item n : ℤ) :
    (es.add item n).length = if item ∈ es.keys then es.length else es.length + 1 := by
  unfold add
  split_ifs <;> simp

/-- Where an item has no count, adding to its count changes nothing. -/
private theorem map_add_of_not_mem {item : ℤ} (h : item ∉ es.keys) (n : ℤ) :
    es.map (fun e => if e.1 = item then (e.1, e.2 + n) else e) = es := by
  refine (List.map_congr_left fun e he => ?_).trans (List.map_id es)
  have hne : e.1 ≠ item := fun heq => h (heq ▸ List.mem_map_of_mem he)
  simp [hne]

/-- The sum of counts of which one was added to. -/
private theorem total_map_add (h : es.Distinct) {item : ℤ} (hmem : item ∈ es.keys) (n : ℤ) :
    total (es.map fun e => if e.1 = item then (e.1, e.2 + n) else e) = es.total + n := by
  induction es with
  | nil => simp [keys] at hmem
  | cons e es ih =>
    obtain ⟨hnot, hes⟩ := List.nodup_cons.mp h
    simp only [total, values, List.map_cons, List.sum_cons] at ih ⊢
    by_cases he : e.1 = item
    · rw [map_add_of_not_mem (he ▸ hnot) n, if_pos he]
      ring
    · have hmem' : item ∈ keys es := by
        rcases List.mem_cons.mp hmem with heq | hin
        · exact absurd heq.symm he
        · exact hin
      rw [ih hes hmem', if_neg he]
      ring

theorem total_add (h : es.Distinct) (item n : ℤ) : (es.add item n).total = es.total + n := by
  unfold add
  split_ifs with hmem
  · exact total_map_add h hmem n
  · simp only [total, values, List.map_cons, List.sum_cons]
    ring

theorem values_add_pos (h : ∀ n ∈ es.values, 0 < n) {item n : ℤ} (hn : 0 < n) :
    ∀ m ∈ (es.add item n).values, 0 < m := by
  unfold add
  split_ifs
  · simp only [values, List.map_map, List.mem_map, Function.comp_apply]
    rintro m ⟨e, he, rfl⟩
    have := h e.2 (List.mem_map_of_mem he)
    split_ifs
    · simp only
      omega
    · exact this
  · intro m hm
    rcases List.mem_cons.mp hm with rfl | hm
    · exact hn
    · exact h m hm

/-! ### Lessening all counts -/

theorem mem_lessen_iff {amount k m : ℤ} :
    (k, m) ∈ es.lessen amount ↔ (k, m + amount) ∈ es ∧ 0 < m := by
  simp only [lessen, List.mem_map, List.mem_filter, decide_eq_true_eq, Prod.mk.injEq, Prod.exists]
  constructor
  · rintro ⟨k', n, ⟨hn, hlt⟩, rfl, rfl⟩
    exact ⟨by simpa using hn, by omega⟩
  · rintro ⟨hm, hpos⟩
    exact ⟨k, m + amount, ⟨hm, by omega⟩, rfl, by omega⟩

theorem get?_lessen (h : es.Distinct) (amount k : ℤ) :
    (es.lessen amount).get? k = (es.get? k).bind fun n => if amount < n then some (n - amount) else none := by
  ext m
  rw [get?_eq_some_iff (h.lessen amount), mem_lessen_iff, ← get?_eq_some_iff h, Option.bind_eq_some_iff]
  constructor
  · rintro ⟨hget, hpos⟩
    refine ⟨m + amount, hget, ?_⟩
    rw [if_pos (by omega)]
    simp
  · rintro ⟨n, hget, hn⟩
    split_ifs at hn with hlt
    · cases hn
      exact ⟨by simpa using hget, by omega⟩

/-- A count is lessened as far as it goes. -/
theorem count_lessen (h : es.Distinct) {amount : ℤ} (hamount : 0 ≤ amount) (k : ℤ) :
    (es.lessen amount).count k = if amount < es.count k then es.count k - amount else 0 := by
  unfold count
  rw [get?_lessen h]
  cases es.get? k with
  | none => simp [not_lt.mpr hamount]
  | some n =>
    simp only [Option.bind_some, Option.getD_some]
    split_ifs <;> rfl

theorem values_lessen_pos (es : Entries) (amount : ℤ) : ∀ n ∈ (es.lessen amount).values, 0 < n := by
  intro n hn
  obtain ⟨⟨k, m⟩, he, rfl⟩ := List.mem_map.mp hn
  exact (mem_lessen_iff.mp he).2

/-- What is dropped are the counts that are not greater. -/
theorem length_lessen (es : Entries) (amount : ℤ) :
    (es.lessen amount).length + es.values.countP (· ≤ amount) = es.length := by
  induction es with
  | nil => rfl
  | cons e es ih =>
    simp only [lessen, values, List.length_map, List.map_cons, List.filter_cons, List.countP_cons,
      List.length_cons, decide_eq_true_eq] at ih ⊢
    by_cases h : amount < e.2
    · simp only [h, if_true, List.length_cons, not_le.mpr h, if_false]
      omega
    · simp only [h, if_false, not_lt.mp h, if_true]
      omega

/-- Every count that reaches the amount loses all of it, and no count grows. -/
theorem total_lessen_le (hpos : ∀ n ∈ es.values, 0 < n) (amount : ℤ) :
    (es.lessen amount).total + es.values.countP (amount ≤ ·) * amount ≤ es.total := by
  induction es with
  | nil => simp [lessen, total, values]
  | cons e es ih =>
    have he : 0 < e.2 := hpos e.2 List.mem_cons_self
    have hes := ih fun n hn => hpos n (List.mem_cons_of_mem _ hn)
    simp only [lessen, total, values, List.filter_cons, List.map_cons, List.countP_cons,
      List.sum_cons, decide_eq_true_eq] at hes ⊢
    rcases lt_trichotomy amount e.2 with hlt | heq | hgt
    · simp only [hlt, hlt.le, if_true, List.map_cons, List.sum_cons]
      push_cast
      linarith
    · simp only [heq, lt_irrefl, le_refl, if_true, if_false] at hes ⊢
      push_cast
      linarith
    · simp only [not_lt.mpr hgt.le, not_le.mpr hgt, if_false]
      push_cast
      linarith

/-! ### Sums -/

theorem count_nonneg (hpos : ∀ n ∈ es.values, 0 < n) (h : es.Distinct) (item : ℤ) : 0 ≤ es.count item := by
  unfold count
  cases hget : es.get? item with
  | none => simp
  | some n =>
    have := hpos n (List.mem_map_of_mem (f := Prod.snd) ((get?_eq_some_iff h).mp hget))
    exact this.le

/-- A single count is at most the sum of all. -/
theorem count_le_total (hpos : ∀ n ∈ es.values, 0 < n) (h : es.Distinct) (item : ℤ) :
    es.count item ≤ es.total := by
  have hsum : ∀ n ∈ es.values, n ≤ es.total :=
    fun n hn => List.single_le_sum (fun m hm => (hpos m hm).le) n hn
  have htotal : 0 ≤ es.total := List.sum_nonneg fun n hn => (hpos n hn).le
  unfold count
  cases hget : es.get? item with
  | none => simpa using htotal
  | some n => exact hsum n (List.mem_map_of_mem (f := Prod.snd) ((get?_eq_some_iff h).mp hget))

/-! ### Entries by their counts -/

/-- Where all counts are positive, the count of an item tells its entry. -/
theorem mem_iff_count (hpos : ∀ n ∈ es.values, 0 < n) (h : es.Distinct) {k n : ℤ} :
    (k, n) ∈ es ↔ 0 < n ∧ n = es.count k := by
  constructor
  · intro hmem
    rw [count, (get?_eq_some_iff h).mpr hmem, Option.getD_some]
    exact ⟨hpos n (List.mem_map_of_mem hmem), rfl⟩
  · rintro ⟨hn, rfl⟩
    unfold count at hn ⊢
    cases hget : es.get? k with
    | none =>
      rw [hget] at hn
      exact absurd hn (lt_irrefl 0)
    | some m => exact (get?_eq_some_iff h).mp hget

theorem mem_keys_iff_count_pos (hpos : ∀ n ∈ es.values, 0 < n) (h : es.Distinct) {k : ℤ} :
    k ∈ es.keys ↔ 0 < es.count k := by
  constructor
  · intro hk
    obtain ⟨⟨k', n⟩, hmem, rfl⟩ := List.mem_map.mp hk
    obtain ⟨hn, hcount⟩ := (mem_iff_count hpos h).mp hmem
    exact hcount ▸ hn
  · intro hcount
    have hmem : (k, es.count k) ∈ es := (mem_iff_count hpos h).mpr ⟨hcount, rfl⟩
    exact List.mem_map_of_mem (f := Prod.fst) hmem

/-- Where all counts are positive, they tell the entries up to their order. -/
theorem perm_of_count_eq (hpos : ∀ n ∈ es.values, 0 < n) (hpos' : ∀ n ∈ fs.values, 0 < n)
    (h : es.Distinct) (h' : fs.Distinct) (hcount : ∀ k, es.count k = fs.count k) : es.Perm fs := by
  refine (List.perm_ext_iff_of_nodup (List.Nodup.of_map _ h) (List.Nodup.of_map _ h')).mpr ?_
  rintro ⟨k, n⟩
  rw [mem_iff_count hpos h, mem_iff_count hpos' h', hcount]

/-! ### Repeated items -/

/-- What the entries of an item add up to, in a list where it may have several. -/
def tally (es : Entries) (item : ℤ) : ℤ := total (es.filter fun e => e.1 = item)

theorem tally_cons (e : ℤ × ℤ) (es : Entries) (item : ℤ) :
    tally (e :: es) item = (if item = e.1 then e.2 else 0) + tally es item := by
  unfold tally total values
  by_cases h : e.1 = item
  · simp [h]
  · simp [h, Ne.symm h]

/-- Items that are counted once each. -/
theorem tally_ones (items : List ℤ) (item : ℤ) :
    tally (items.map fun x => (x, 1)) item = items.count item := by
  induction items with
  | nil => rfl
  | cons x xs ih =>
    rw [List.map_cons, tally_cons, ih, List.count_cons, Nat.cast_add, add_comm]
    by_cases h : item = x
    · simp [h]
    · simp [h, Ne.symm h]

theorem tally_of_not_mem {es : Entries} {item : ℤ} (h : item ∉ es.keys) : es.tally item = 0 := by
  have hnil : (es.filter fun e => e.1 = item) = [] := by
    refine List.filter_eq_nil_iff.mpr fun e he => ?_
    rw [decide_eq_true_eq]
    rintro rfl
    exact h (List.mem_map_of_mem he)
  rw [tally, hnil]
  rfl

/-- Where every item has one entry, that is its count. -/
theorem tally_eq_count {es : Entries} (h : es.Distinct) (item : ℤ) : es.tally item = es.count item := by
  induction es with
  | nil => rfl
  | cons e es ih =>
    obtain ⟨hnot, hes⟩ := List.nodup_cons.mp h
    rw [tally_cons]
    by_cases hitem : item = e.1
    · have hget : get? (e :: es) item = some e.2 :=
        (get?_eq_some_iff h).mpr (hitem ▸ List.mem_cons_self)
      rw [if_pos hitem, tally_of_not_mem (hitem ▸ hnot), count, hget]
      simp
    · have hbeq : (item == e.1) = false := by simpa using hitem
      rw [if_neg hitem, ih hes, zero_add, count, count, get?, get?, List.lookup_cons, hbeq]

theorem total_cons (e : ℤ × ℤ) (es : Entries) : total (e :: es) = e.2 + total es := by
  simp [total, values]

theorem total_append (es fs : Entries) : total (es ++ fs) = total es + total fs := by
  simp [total, values]

/-- Entries up to one of them add up to no more than all do. -/
theorem total_add_le {before after : Entries} {e : ℤ × ℤ} (h : ∀ n ∈ values (before ++ e :: after), 0 ≤ n) :
    total before + e.2 ≤ total (before ++ e :: after) := by
  have hafter : 0 ≤ total after := by
    refine List.sum_nonneg fun n hn => h n ?_
    rw [values, List.map_append, List.map_cons]
    exact List.mem_append_right _ (List.mem_cons_of_mem _ hn)
  rw [total_append, total_cons]
  omega

end Entries

end HeavyHitters
