import HeavyHitters.Proofs.Sketch.Capacity
import HeavyHitters.Proofs.Sketch.Drift

/-!
# When an update is refused

An update goes through four checks before it changes anything: the item and the count have to be 64-bit
integers, the count must not be negative, and it must leave the stream length in bounds. The first that
fails refuses the update, and there is no other way to fail: whatever can be reached, and whatever is
drawn, an item that is accepted finds a slot, a table that is full grows or is purged, and the purge
finds a median and makes room (`update_cases`).

## What is proved

* `accept_eq_error_iff`: what is refused, and the error that says so.
* `exists_refusal_iff`: the same, as one condition on the item and the count.
* `update_atomic`: an update fails exactly if it is refused, and changes nothing then.
-/

namespace HeavyHitters

/-! ### Refused arguments -/

/-- A scalar is the 64-bit integer `n` as an index. -/
def Scalar.IsWordOf (value : Scalar) (n : ℤ) : Prop := value.index? = some n ∧ IsWord n

/-- The argument `name` is not a 64-bit integer, and which error says so. -/
inductive Scalar.NotWord (name : String) (value : Scalar) : Error → Prop
  /-- It is not even an integer as an index. A truth value is none. -/
  | kind (h : value.index? = none) : NotWord name value (.notInteger name value)
  /-- It is out of range. -/
  | range {n : ℤ} (h : value.index? = some n) (hrange : ¬ IsWord n) : NotWord name value (.wordRange name n)

theorem Scalar.toWord_eq_error_iff {name : String} {value : Scalar} {e : Error} :
    value.toWord name = .error e ↔ value.NotWord name e := by
  unfold toWord
  constructor
  · intro h
    split at h
    · rename_i n hn
      split_ifs at h with hword
      cases h
      exact .range hn hword
    · rename_i hnone
      cases h
      exact .kind hnone
  · rintro (hnone | ⟨hn, hrange⟩)
    · rw [hnone]
    · simp only [hn, hrange, if_false]

/-- An argument is no 64-bit integer exactly if an error says so. -/
theorem Scalar.exists_notWord_iff {name : String} {value : Scalar} :
    (∃ e, value.NotWord name e) ↔ ∀ n, ¬ value.IsWordOf n := by
  simp only [← toWord_eq_error_iff]
  cases h : value.toWord name with
  | ok n =>
    simp only [reduceCtorEq, exists_false, false_iff]
    exact fun hnone => hnone n (toWord_eq_ok_iff.mp h)
  | error e =>
    refine iff_of_true ⟨e, rfl⟩ fun n hword => ?_
    rw [toWord_eq_ok_iff.mpr hword] at h
    cases h

namespace Sketch

variable {s : Sketch} {item count : Scalar} {e : Error}

/-! ### Refused updates -/

/-- An update of a sketch is refused, and which error says so. The checks are made in this order. -/
inductive Refusal (s : Sketch) (item count : Scalar) : Error → Prop
  /-- The item is not a 64-bit integer. -/
  | item {e : Error} (h : item.NotWord "item" e) : Refusal s item count e
  /-- The count is not. -/
  | count {i : ℤ} {e : Error} (hitem : item.IsWordOf i) (h : count.NotWord "count" e) : Refusal s item count e
  /-- The count is negative. -/
  | negative {i n : ℤ} (hitem : item.IsWordOf i) (hcount : count.IsWordOf n) (h : n < 0) :
      Refusal s item count .negativeCount
  /-- The count carries the stream length out of bounds. -/
  | overflow {i n : ℤ} (hitem : item.IsWordOf i) (hcount : count.IsWordOf n) (hpos : 0 < n)
      (h : maxWord < s.streamLength + n) : Refusal s item count .streamOverflow

/-- **What is refused**, and the error that says so. -/
theorem accept_eq_error_iff : s.accept item count = .error e ↔ Refusal s item count e := by
  constructor
  · intro h
    rcases bind_eq_error.mp h with hitem | ⟨i, hitem, hrest⟩
    · exact .item (Scalar.toWord_eq_error_iff.mp hitem)
    rcases bind_eq_error.mp hrest with hcount | ⟨n, hcount, -⟩
    · exact .count (Scalar.toWord_eq_ok_iff.mp hitem) (Scalar.toWord_eq_error_iff.mp hcount)
    rw [accept_of_words hitem hcount] at h
    have hi := Scalar.toWord_eq_ok_iff.mp hitem
    have hn := Scalar.toWord_eq_ok_iff.mp hcount
    split_ifs at h with hneg hover
    · cases h
      exact .negative hi hn hneg
    · cases h
      exact .overflow hi hn hover.1 hover.2
  · intro h
    cases h with
    | item h => exact bind_eq_error.mpr (.inl (Scalar.toWord_eq_error_iff.mpr h))
    | count hi h =>
      exact bind_eq_error.mpr
        (.inr ⟨_, Scalar.toWord_eq_ok_iff.mpr hi, bind_eq_error.mpr (.inl (Scalar.toWord_eq_error_iff.mpr h))⟩)
    | negative hi hn hneg =>
      rw [accept_of_words (Scalar.toWord_eq_ok_iff.mpr hi) (Scalar.toWord_eq_ok_iff.mpr hn), if_pos hneg]
    | overflow hi hn hpos hover =>
      rw [accept_of_words (Scalar.toWord_eq_ok_iff.mpr hi) (Scalar.toWord_eq_ok_iff.mpr hn),
        if_neg (by omega), if_pos ⟨hpos, hover⟩]

/-- Every refusal of an update is a complaint about a value. -/
theorem Refusal.kind_eq (h : Refusal s item count e) : e.kind = .value := by
  cases h with
  | item h => cases h <;> rfl
  | count _ h => cases h <;> rfl
  | negative => rfl
  | overflow => rfl

/-- **The condition under which some error refuses an update.** -/
theorem exists_refusal_iff :
    (∃ e, Refusal s item count e) ↔
      (∀ i, ¬ item.IsWordOf i) ∨ (∀ n, ¬ count.IsWordOf n) ∨
        ∃ n, count.index? = some n ∧ (n < 0 ∨ 0 < n ∧ maxWord < s.streamLength + n) := by
  constructor
  · rintro ⟨e, h⟩
    cases h with
    | item h => exact .inl (Scalar.exists_notWord_iff.mp ⟨e, h⟩)
    | count _ h => exact .inr (.inl (Scalar.exists_notWord_iff.mp ⟨e, h⟩))
    | negative _ hn hneg => exact .inr (.inr ⟨_, hn.1, .inl hneg⟩)
    | overflow _ hn hpos hover => exact .inr (.inr ⟨_, hn.1, .inr ⟨hpos, hover⟩⟩)
  · intro h
    by_contra hnone
    -- what no error refuses is accepted
    cases haccept : s.accept item count with
    | error e => exact hnone ⟨e, accept_eq_error_iff.mp haccept⟩
    | ok a =>
      obtain ⟨i, n⟩ := a
      obtain ⟨hi, hn, hword, hword', hnonneg, hbound⟩ := accept_eq_ok_iff.mp haccept
      rcases h with hitem | hcount | ⟨n', hn', hneg | ⟨hpos, hover⟩⟩
      · exact hitem i ⟨hi, hword⟩
      · exact hcount n ⟨hn, hword'⟩
      · obtain rfl : n = n' := Option.some.inj (hn.symm.trans hn')
        omega
      · obtain rfl : n = n' := Option.some.inj (hn.symm.trans hn')
        have := hbound hpos
        omega

/-! ### Updates -/

/-- **An update fails exactly if it is refused, and changes nothing then.** This is so in every state that
can be reached, for whatever is offered as item and count, and whatever a purge draws. An update that does
not fail adds the count to the stream length and to the counter of the item, and then all counters lose
what the offset gains, as far as they have it; nothing changes if the count is zero. -/
theorem update_atomic (h : Reachable s) (item count : Scalar) (src : DrawSource) :
    let o := s.update src item count
    (o.failure ≠ none ↔
      (∀ i, ¬ item.IsWordOf i) ∨ (∀ n, ¬ count.IsWordOf n) ∨
        ∃ n, count.index? = some n ∧ (n < 0 ∨ 0 < n ∧ maxWord < s.streamLength + n)) ∧
    (∀ e, o.failure = some e → Refusal s item count e ∧ e.kind = .value ∧ o = .fail s e) ∧
    (o.failure = none →
      ∃ i n, item.IsWordOf i ∧ count.IsWordOf n ∧ o.state.streamLength = s.streamLength + n ∧
        s.offset ≤ o.state.offset ∧
        (∀ x, o.state.table.count x =
          max 0 (s.table.count x + (if x = i then n else 0) - (o.state.offset - s.offset))) ∧
        (n = 0 → o = .ok s)) := by
  rw [← exists_refusal_iff]
  rcases update_cases src h.sound item count with
    ⟨e, herror, hfail⟩ | ⟨i, n, t, events, haccept, hok, step⟩
  · have hrefused := accept_eq_error_iff.mp herror
    rw [hfail]
    refine ⟨iff_of_true (by simp [Outcome.fail]) ⟨e, hrefused⟩, ?_, fun hnone => by cases hnone⟩
    rintro _ ⟨⟩
    exact ⟨hrefused, hrefused.kind_eq, rfl⟩
  · have haccepted : ¬ ∃ e, Refusal s item count e := by
      rintro ⟨e, hrefused⟩
      cases haccept.symm.trans (accept_eq_error_iff.mpr hrefused)
    obtain ⟨hi, hn, hword, hword', -, -⟩ := accept_eq_ok_iff.mp haccept
    have hdrift := step.drift h.sound
    have hcount := step.count_eq h.sound
    rw [hok]
    refine ⟨iff_of_false (by simp) haccepted, fun e he => (by cases he), fun _ =>
      ⟨i, n, ⟨hi, hword⟩, ⟨hn, hword'⟩, hdrift.streamLength_eq, hdrift.offset_le, hcount, ?_⟩⟩
    rintro rfl
    cases step with
    | idle => rfl
    | counted _ positive => exact absurd positive (lt_irrefl 0)

/-- A narrow sketch in which one item was counted until there is room for six more. -/
def brimming : Sketch := (narrow.update leastDraws (.int 1) (.int 9223372036854775801)).state

theorem reachable_brimming : Reachable brimming :=
  .call leastDraws (.update (.int 1) (.int 9223372036854775801)) (.ofSize ofSize_eq_narrow)
    fun _ hc => by cases hc

/-- A thing that is the item two as an index. -/
def second : Thing := ⟨"Item", "<Item 2>", "two", some 2⟩

/-- A truth value is no item, seven are one too many for the brimming sketch, six are not, and none change
nothing. -/
theorem update_atomic_brimming :
    Reachable brimming ∧
      brimming.update leastDraws (.bool true) (.int 1) = .fail brimming (.notInteger "item" (.bool true)) ∧
      brimming.update leastDraws (.int 2) (.int 7) = .fail brimming .streamOverflow ∧
      (brimming.update leastDraws (.thing second) (.int 6)).failure = none ∧
      (brimming.update leastDraws (.thing second) (.int 6)).state.table.count 2 = 6 ∧
      (brimming.update leastDraws (.thing second) (.int 6)).state.streamLength = maxWord ∧
      brimming.update leastDraws (.int 2) (.int 0) = .ok brimming := by
  obtain ⟨-, htruth, -⟩ := update_atomic reachable_brimming (.bool true) (.int 1) leastDraws
  obtain ⟨-, hseven, -⟩ := update_atomic reachable_brimming (.int 2) (.int 7) leastDraws
  obtain ⟨hsix, -⟩ := update_atomic reachable_brimming (.thing second) (.int 6) leastDraws
  obtain ⟨-, -, hzero⟩ := update_atomic reachable_brimming (.int 2) (.int 0) leastDraws
  obtain ⟨_, n, -, hn, -, -, -, hsame⟩ := hzero (by decide +kernel)
  cases hn.1
  have hfits : ¬ ((∀ i, ¬ (Scalar.thing second).IsWordOf i) ∨ (∀ n, ¬ (Scalar.int 6).IsWordOf n) ∨
      ∃ n, (Scalar.int 6).index? = some n ∧ (n < 0 ∨ 0 < n ∧ maxWord < brimming.streamLength + n)) := by
    rintro (hitem | hcount | ⟨n, hn, hneg | ⟨-, hover⟩⟩)
    · exact hitem 2 ⟨rfl, by decide⟩
    · exact hcount 6 ⟨rfl, by decide⟩
    · cases hn
      exact absurd hneg (by decide)
    · cases hn
      exact absurd hover (by decide +kernel)
  exact ⟨reachable_brimming, (htruth _ (by decide +kernel)).2.2, (hseven _ (by decide +kernel)).2.2,
    not_not.mp (mt hsix.mp hfits), by decide +kernel, by decide +kernel, hsame rfl⟩

end Sketch

end HeavyHitters
