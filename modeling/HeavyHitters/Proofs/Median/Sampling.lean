import HeavyHitters.Median.Reservoir
import Mathlib.Algebra.BigOperators.Fin
import Mathlib.Combinatorics.Enumerative.DoubleCounting
import Mathlib.Data.Fintype.BigOperators
import Mathlib.Data.List.GetD
import Mathlib.Data.List.Perm.Subperm
import Mathlib.Data.Nat.Factorial.BigOperators
import Mathlib.Order.Interval.Finset.Fin

/-!
# Samples are uniform

A reservoir holds values of the population, each position at most once, whatever is drawn. Which positions
these are depends on the draws alone, not on the values (`chosen`).

No choice of positions is preferred. To see this all draws are counted. When the reservoir is full a draw
is made for each value that goes by, so the draws of one sample are a tuple (`Draws`), and every set of
positions of the right size is chosen by equally many tuples. This is shown value by value. A set without
the newest position was there before, and is kept by the draws behind the reservoir; a set with it comes
from one of the sets that have another position instead, and from each of them by one draw. Both times the
number of ways is the number of values that have gone by since the reservoir was full.

## What is proved

* `sampleFrom_subperm`: a reservoir holds values of the population, none of them twice.
* `sampleFrom_eq_chosen`: the values of a sample are those at the chosen positions.
* `Draws.card_places_eq`: every set of positions is chosen by the same number of tuples.
* `reservoir_uniform`: all this for the sample that is asked for.
-/

namespace HeavyHitters.Median

open Finset Nat

variable {α β : Type} (src : DrawSource)

/-! ### Samples -/

/-- A value replaces another. -/
private theorem setIfInBounds_subperm (xs : Array α) (j : ℕ) (v : α) :
    List.Subperm (xs.setIfInBounds j v).toList (v :: xs.toList) := by
  rw [Array.toList_setIfInBounds]
  by_cases hj : j < xs.toList.length
  · refine (List.set_perm_cons_eraseIdx hj v).subperm.trans ?_
    exact (List.subperm_cons v).mpr (List.eraseIdx_sublist _ _).subperm
  · rw [List.set_eq_of_length_le (not_lt.mp hj)]
    exact List.Subperm.cons_self

/-- **A sample takes each value at most once**, whatever positions are drawn. -/
theorem sampleFrom_subperm (size : ℕ) (values : List α) (seen : ℕ) (sample : Array α) (g : src.State) :
    List.Subperm (sampleFrom src size values seen sample g).1.toList (sample.toList ++ values) := by
  induction values generalizing seen sample g with
  | nil =>
    rw [sampleFrom, List.append_nil]
  | cons v vs ih =>
    have hmiddle : List.Perm (v :: sample.toList ++ vs) (sample.toList ++ v :: vs) :=
      List.perm_middle.symm
    rw [sampleFrom]
    split
    · refine (ih (seen + 1) (sample.push v) g).trans (List.Perm.subperm ?_)
      simp
    · refine (ih (seen + 1) _ _).trans ?_
      refine List.Subperm.trans ?_ hmiddle.subperm
      exact (List.subperm_append_right vs).mpr (setIfInBounds_subperm sample _ v)

/-- What does not fill the reservoir is all in it, and nothing is drawn. -/
theorem sampleFrom_of_length_le {size seen : ℕ} {values : List α} (sample : Array α) (g : src.State)
    (h : seen + values.length ≤ size) :
    sampleFrom src size values seen sample g = ((sample.toList ++ values).toArray, g) := by
  induction values generalizing seen sample with
  | nil => simp [sampleFrom]
  | cons v vs ih =>
    rw [List.length_cons] at h
    rw [sampleFrom, if_pos (by omega), ih _ (by omega)]
    simp

/-- Sampling goes on from where it has got to. -/
theorem sampleFrom_append (size : ℕ) (values values' : List α) (seen : ℕ) (sample : Array α)
    (g : src.State) :
    sampleFrom src size (values ++ values') seen sample g =
      sampleFrom src size values' (seen + values.length)
        (sampleFrom src size values seen sample g).1 (sampleFrom src size values seen sample g).2 := by
  induction values generalizing seen sample g with
  | nil => rfl
  | cons v vs ih =>
    have hseen : seen + (v :: vs).length = seen + 1 + vs.length := by
      rw [List.length_cons]
      omega
    rw [List.cons_append, sampleFrom, sampleFrom, hseen]
    split <;> exact ih _ _ _

/-- Samples do not depend on what the values are. -/
theorem sampleFrom_map (f : α → β) (size : ℕ) (values : List α) (seen : ℕ) (sample : Array α)
    (g : src.State) :
    sampleFrom src size (values.map f) seen (sample.map f) g =
      ((sampleFrom src size values seen sample g).1.map f, (sampleFrom src size values seen sample g).2) := by
  induction values generalizing seen sample g with
  | nil => rfl
  | cons v vs ih =>
    rw [List.map_cons, sampleFrom, sampleFrom]
    split
    · rw [← Array.map_push, ih]
    · generalize src.draw g (seen + 1) = drawn
      obtain ⟨j, g'⟩ := drawn
      dsimp only
      rw [← Array.map_setIfInBounds, ih]

/-! ### Positions -/

/-- The positions that a sample of at most `size` of `n` values has them from. -/
def chosen (size n : ℕ) (g : src.State) : List ℕ :=
  (sampleFrom src size (List.range n) 0 #[] g).1.toList

/-- **The values of a sample are those at the chosen positions**, and as much is drawn for them as for the
positions. -/
theorem sampleFrom_eq_chosen (size : ℕ) (values : List α) (g : src.State) :
    (sampleFrom src size values 0 #[] g).1.toList.map some =
        (chosen src size values.length g).map (values[·]?) ∧
      (sampleFrom src size values 0 #[] g).2 =
        (sampleFrom src size (List.range values.length) 0 #[] g).2 := by
  have hvalues : values.map some = (List.range values.length).map (values[·]?) := by
    refine List.ext_getElem (by simp) fun i hi _ => ?_
    rw [List.length_map] at hi
    simp [hi]
  have hleft := sampleFrom_map src some size values 0 #[] g
  have hright := sampleFrom_map src (values[·]?) size (List.range values.length) 0 #[] g
  rw [Array.map_empty] at hleft hright
  rw [← hvalues, hleft, Prod.mk.injEq] at hright
  refine ⟨?_, hright.2⟩
  rw [chosen, ← Array.toList_map, ← Array.toList_map, hright.1]

/-- No position is chosen twice. -/
theorem chosen_nodup (size n : ℕ) (g : src.State) : (chosen src size n g).Nodup := by
  have hsub := sampleFrom_subperm src size (List.range n) 0 #[] g
  obtain ⟨places, hperm, hsublist⟩ := hsub
  exact hperm.nodup_iff.mp (hsublist.nodup List.nodup_range)

/-! ### Draws -/

/-- The draws for `more` values that go by when a reservoir of `size` values is full: the one for the
value at position `size + i` is not greater than that position. -/
abbrev Draws (size more : ℕ) : Type := (i : Fin more) → Fin (size + i + 1)

namespace Draws

variable {size more : ℕ}

/-- The draws with their bounds, in the order of the values. -/
def script (draws : Draws size more) : List ((bound : ℕ) × Fin bound) :=
  List.ofFn fun i => ⟨size + i + 1, draws i⟩

/-- All draws but the last. -/
def init (draws : Draws size (more + 1)) : Draws size more := fun i => draws i.castSucc

/-- The last draw. -/
def last (draws : Draws size (more + 1)) : Fin (size + more + 1) := draws (Fin.last more)

/-- The positions in the reservoir after the draws. Each draw puts the position of its own value where
it points to, if that is in the reservoir. -/
def places : {more : ℕ} → Draws size more → List ℕ
  | 0, _ => List.range size
  | more + 1, draws => draws.init.places.set draws.last (size + more)

/-- A tuple is its last draw and the others. -/
def splitLast (size more : ℕ) : Fin (size + more + 1) × Draws size more ≃ Draws size (more + 1) :=
  Fin.snocEquiv fun i : Fin (more + 1) => Fin (size + i + 1)

theorem last_splitLast (p : Fin (size + more + 1) × Draws size more) : (splitLast size more p).last = p.1 :=
  Fin.snoc_last (α := fun i : Fin (more + 1) => Fin (size + i + 1)) p.1 p.2

theorem init_splitLast (p : Fin (size + more + 1) × Draws size more) : (splitLast size more p).init = p.2 :=
  funext fun i => Fin.snoc_castSucc (α := fun i : Fin (more + 1) => Fin (size + i + 1)) p.1 p.2 i

theorem script_succ (draws : Draws size (more + 1)) :
    draws.script = draws.init.script ++ [⟨size + more + 1, draws.last⟩] := by
  rw [script, List.ofFn_succ', List.concat_eq_append]
  rfl

theorem length_places (draws : Draws size more) : draws.places.length = size := by
  induction more with
  | zero => exact List.length_range
  | succ more ih => rw [places, List.length_set, ih]

/-- **A source that answers the draws fills the reservoir with their positions**, and each of them is used
up at its own bound. -/
theorem sampleFrom_script (draws : Draws size more) (rest : List ((bound : ℕ) × Fin bound)) :
    sampleFrom .script size (List.range (size + more)) 0 #[] (draws.script ++ rest) =
      (draws.places.toArray, rest) := by
  induction more generalizing rest with
  | zero =>
    rw [sampleFrom_of_length_le .script #[] _ (by simp)]
    rfl
  | succ more ih =>
    have hseen : 0 + (List.range (size + more)).length = size + more := by
      rw [List.length_range, Nat.zero_add]
    rw [← Nat.add_assoc, List.range_succ, sampleFrom_append, script_succ, List.append_assoc, ih, hseen,
      sampleFrom, if_neg (by omega), List.singleton_append, DrawSource.draw_script]
    simp only [sampleFrom, List.setIfInBounds_toArray, places]

theorem chosen_script (draws : Draws size more) :
    chosen .script size (size + more) draws.script = draws.places := by
  have hrun := draws.sampleFrom_script []
  rw [List.append_nil] at hrun
  rw [chosen, hrun]

theorem places_nodup (draws : Draws size more) : draws.places.Nodup := by
  rw [← chosen_script]
  exact chosen_nodup _ _ _ _

theorem lt_of_mem_places (draws : Draws size more) {p : ℕ} (hp : p ∈ draws.places) : p < size + more := by
  have hsub := sampleFrom_subperm .script size (List.range (size + more)) 0 #[] draws.script
  rw [← chosen_script] at hp
  exact List.mem_range.mp (hsub.subset hp)

/-- There are as many tuples as the last values can be arranged in. -/
theorem card_eq (size more : ℕ) : Fintype.card (Draws size more) = (size + more)! / size ! := by
  have hascending : Fintype.card (Draws size more) = (size + 1).ascFactorial more := by
    rw [Fintype.card_pi, Nat.ascFactorial_eq_prod_range, ← Fin.prod_univ_eq_prod_range]
    refine Finset.prod_congr rfl fun i _ => ?_
    rw [Fintype.card_fin]
    omega
  rw [hascending, ← Nat.factorial_mul_ascFactorial, Nat.mul_div_cancel_left _ (Nat.factorial_pos size)]

/-! ### Counting the draws -/

/-- The positions after a draw into the reservoir. -/
private theorem toFinset_set {ps : List ℕ} (hnodup : ps.Nodup) {j : ℕ} (hj : j < ps.length) (n : ℕ) :
    (ps.set j n).toFinset = insert n (ps.toFinset.erase ps[j]) := by
  have hperm := List.set_perm_cons_eraseIdx hj n
  rw [List.toFinset_eq_of_perm _ _ hperm, List.toFinset_cons, ← hnodup.erase_getElem]
  congr 1
  ext p
  rw [List.mem_toFinset, hnodup.mem_erase_iff, Finset.mem_erase, List.mem_toFinset]

/-- A set without the newest position is left by the draws behind the reservoir, if it was there before. -/
private theorem card_keeping {ps : List ℕ} {n : ℕ} {target : Finset ℕ} (hlength : ps.length ≤ n)
    (hn : n ∉ target) :
    #{j : Fin (n + 1) | (ps.set j n).toFinset = target} =
      if ps.toFinset = target then n + 1 - ps.length else 0 := by
  have hset : ∀ j : Fin (n + 1), (ps.set j n).toFinset = target ↔ ps.toFinset = target ∧ ps.length ≤ j := by
    intro j
    by_cases hj : (j : ℕ) < ps.length
    · refine iff_of_false (fun heq => hn ?_) fun h => absurd hj (not_lt.mpr h.2)
      rw [← heq, List.mem_toFinset]
      exact List.mem_set hj n
    · rw [List.set_eq_of_length_le (not_lt.mp hj)]
      exact (and_iff_left (not_lt.mp hj)).symm
  simp only [hset]
  split_ifs with htarget
  · have hbehind : ({j : Fin (n + 1) | ps.toFinset = target ∧ ps.length ≤ j} : Finset _) =
        Finset.Ici ⟨ps.length, Nat.lt_succ_of_le hlength⟩ := by
      ext j
      simp [htarget, Fin.le_def]
    rw [hbehind, Fin.card_Ici]
  · exact Finset.card_eq_zero.mpr (Finset.filter_eq_empty_iff.mpr fun j _ h => htarget h.1)

/-- A set with the newest position comes from those that have another one instead, from each by the draw
that points to that. -/
private theorem card_replacing {ps : List ℕ} {n : ℕ} {target : Finset ℕ} (hnodup : ps.Nodup)
    (hlt : ∀ p ∈ ps, p < n) (hlength : ps.length ≤ n) (hn : n ∈ target) :
    #{j : Fin (n + 1) | (ps.set j n).toFinset = target} =
      #{p ∈ range n \ target | ps.toFinset = insert p (target.erase n)} := by
  have hfresh : n ∉ ps.toFinset := fun h => lt_irrefl n (hlt n (List.mem_toFinset.mp h))
  -- the draw points into the reservoir, and what was there is the position that is missing
  have hdrawn : ∀ j : Fin (n + 1), (ps.set j n).toFinset = target →
      ∃ hj : (j : ℕ) < ps.length, target.erase n = ps.toFinset.erase ps[(j : ℕ)] := by
    intro j heq
    by_cases hj : (j : ℕ) < ps.length
    · refine ⟨hj, ?_⟩
      rw [← heq, toFinset_set hnodup hj, Finset.erase_insert]
      exact fun h => hfresh (Finset.mem_of_mem_erase h)
    · rw [List.set_eq_of_length_le (not_lt.mp hj)] at heq
      exact absurd (heq ▸ hn) hfresh
  refine Finset.card_bij (fun j _ => ps.getD j 0) ?_ ?_ ?_
  · intro j hj
    obtain ⟨hj, herase⟩ := hdrawn j (Finset.mem_filter.mp hj).2
    have hmem : ps[(j : ℕ)] ∈ ps.toFinset := List.mem_toFinset.mpr (List.getElem_mem hj)
    have hmissing : ps[(j : ℕ)] ∉ target := by
      intro h
      have hne : ps[(j : ℕ)] ≠ n := fun heq => hfresh (heq ▸ hmem)
      have herased := Finset.mem_erase.mpr ⟨hne, h⟩
      rw [herase] at herased
      exact Finset.notMem_erase _ _ herased
    rw [List.getD_eq_getElem _ _ hj, Finset.mem_filter, Finset.mem_sdiff, Finset.mem_range, herase]
    exact ⟨⟨hlt _ (List.getElem_mem hj), hmissing⟩, (Finset.insert_erase hmem).symm⟩
  · intro j hj j' hj' heq
    obtain ⟨hj, -⟩ := hdrawn j (Finset.mem_filter.mp hj).2
    obtain ⟨hj', -⟩ := hdrawn j' (Finset.mem_filter.mp hj').2
    rw [List.getD_eq_getElem _ _ hj, List.getD_eq_getElem _ _ hj', hnodup.getElem_inj_iff] at heq
    exact Fin.ext heq
  · intro p hp
    obtain ⟨hmissing, heq⟩ := Finset.mem_filter.mp hp
    have hnot : p ∉ target.erase n := fun h => (Finset.mem_sdiff.mp hmissing).2 (Finset.mem_of_mem_erase h)
    have hmem : p ∈ ps := List.mem_toFinset.mp (heq ▸ Finset.mem_insert_self p _)
    obtain ⟨j, hj, rfl⟩ := List.mem_iff_getElem.mp hmem
    refine ⟨⟨j, by omega⟩, ?_, List.getD_eq_getElem _ _ hj⟩
    rw [Finset.mem_filter, toFinset_set hnodup hj, heq, Finset.erase_insert hnot, Finset.insert_erase hn]
    exact ⟨Finset.mem_univ _, rfl⟩

/-- The tuples of one draw more are counted by that draw. -/
private theorem card_places_succ (target : Finset ℕ) :
    #{draws : Draws size (more + 1) | draws.places.toFinset = target} =
      ∑ draws : Draws size more,
        #{j : Fin (size + more + 1) | (draws.places.set j (size + more)).toFinset = target} := by
  rw [Finset.card_filter, ← (splitLast size more).sum_comp, Fintype.sum_prod_type_right]
  refine Finset.sum_congr rfl fun draws _ => ?_
  rw [Finset.card_filter]
  refine Finset.sum_congr rfl fun j _ => ?_
  rw [places, init_splitLast, last_splitLast]

/-- The positions that are missing from a set with the newest one. -/
private theorem card_missing {n : ℕ} {target : Finset ℕ} (hsub : target ⊆ range (n + 1)) (hn : n ∈ target) :
    #(range n \ target) = n + 1 - (#target) := by
  have hsame : range n \ target = range (n + 1) \ target := by
    rw [Finset.range_add_one, Finset.insert_sdiff_of_mem _ hn]
  rw [hsame, Finset.card_sdiff_of_subset hsub, Finset.card_range]

/-- Another position in place of the newest. -/
private theorem exchanged {n p : ℕ} {target : Finset ℕ} (hsub : target ⊆ range (n + 1)) (hn : n ∈ target)
    (hp : p ∈ range n \ target) :
    insert p (target.erase n) ⊆ range n ∧ #(insert p (target.erase n)) = (#target) := by
  obtain ⟨hp, hmissing⟩ := Finset.mem_sdiff.mp hp
  refine ⟨Finset.insert_subset hp fun q hq => ?_, ?_⟩
  · obtain ⟨hne, hq⟩ := Finset.mem_erase.mp hq
    have hlt := Finset.mem_range.mp (hsub hq)
    exact Finset.mem_range.mpr (by omega)
  · rw [Finset.card_insert_of_notMem fun h => hmissing (Finset.mem_of_mem_erase h),
      Finset.card_erase_add_one hn]

/-- **Every set of positions of the right size is chosen by the same number of tuples.** -/
theorem card_places_eq {target : Finset ℕ} (hsub : target ⊆ range (size + more)) (hcard : (#target) = size) :
    #{draws : Draws size more | draws.places.toFinset = target} = more ! := by
  induction more generalizing target with
  | zero =>
    have htarget : target = range size :=
      Finset.eq_of_subset_of_card_le hsub (by rw [Finset.card_range, hcard])
    have hall : ∀ draws : Draws size 0, draws.places.toFinset = target := fun draws => by
      rw [places, List.toFinset_range, htarget]
    rw [Finset.filter_true_of_mem fun draws _ => hall draws, Finset.card_univ, card_eq, Nat.add_zero,
      Nat.div_self (Nat.factorial_pos size), Nat.factorial_zero]
  | succ more ih =>
    have hle : ∀ draws : Draws size more, draws.places.length ≤ size + more := by
      intro draws
      rw [draws.length_places]
      exact Nat.le_add_right _ _
    have hroom : size + more + 1 - size = more + 1 := by omega
    rw [← Nat.add_assoc] at hsub
    rw [card_places_succ]
    by_cases hn : size + more ∈ target
    · -- any of the missing positions may have been there instead of the newest
      have hmissing : #(range (size + more) \ target) = more + 1 := by
        rw [card_missing hsub hn, hcard, hroom]
      have hbefore : ∀ p ∈ range (size + more) \ target,
          #{draws : Draws size more | draws.places.toFinset = insert p (target.erase (size + more))} =
            more ! := by
        intro p hp
        obtain ⟨hsub', hcard'⟩ := exchanged hsub hn hp
        exact ih hsub' (hcard'.trans hcard)
      calc ∑ draws : Draws size more,
            #{j : Fin (size + more + 1) | (draws.places.set j (size + more)).toFinset = target}
          = ∑ draws : Draws size more, #{p ∈ range (size + more) \ target |
              draws.places.toFinset = insert p (target.erase (size + more))} :=
            Finset.sum_congr rfl fun draws _ =>
              card_replacing draws.places_nodup (fun _ => draws.lt_of_mem_places) (hle draws) hn
        _ = ∑ p ∈ range (size + more) \ target, #{draws : Draws size more |
              draws.places.toFinset = insert p (target.erase (size + more))} :=
            Finset.sum_card_bipartiteAbove_eq_sum_card_bipartiteBelow _
        _ = ∑ _p ∈ range (size + more) \ target, more ! := Finset.sum_congr rfl hbefore
        _ = (more + 1)! := by
          rw [Finset.sum_const, hmissing, smul_eq_mul, Nat.factorial_succ]
    · -- the set was there before, and the draw points behind the reservoir
      have hbefore : #{draws : Draws size more | draws.places.toFinset = target} = more ! := by
        refine ih (fun p hp => ?_) hcard
        have hlt := Finset.mem_range.mp (hsub hp)
        have hne : p ≠ size + more := fun heq => hn (heq ▸ hp)
        exact Finset.mem_range.mpr (by omega)
      calc ∑ draws : Draws size more,
            #{j : Fin (size + more + 1) | (draws.places.set j (size + more)).toFinset = target}
          = ∑ draws : Draws size more, if draws.places.toFinset = target then more + 1 else 0 :=
            Finset.sum_congr rfl fun draws _ => by
              rw [card_keeping (hle draws) hn, draws.length_places, hroom]
        _ = more ! * (more + 1) := by
          rw [← Finset.sum_filter, Finset.sum_const, hbefore, smul_eq_mul]
        _ = (more + 1)! := by
          rw [Nat.mul_comm, Nat.factorial_succ]

end Draws

/-! ### The sample that is asked for -/

/-- **A sample is uniform.** Whatever is drawn, it has as many values as asked for, or all if there are not
so many; they are the values at different positions, and these depend on the draws alone. If there are not
more values than asked for the sample is all of them, and nothing is drawn. Otherwise a number is drawn for
each value that goes by when the reservoir is full, up to the position of that value, and no others; and of
all tuples of draws equally many choose any one set of positions. -/
theorem reservoir_uniform {size : ℕ} (hsize : 0 < size) (values : List α) :
    (∀ (src : DrawSource) (g : src.State), ∃ sample g',
        reservoir src values (.int size) g = .ok (sample, g') ∧
          sample.size = min size values.length ∧
          sample.toList.map some = (chosen src size values.length g).map (values[·]?) ∧
          (chosen src size values.length g).Nodup ∧
          (values.length ≤ size → sample.toList = values ∧ g' = g)) ∧
      (size ≤ values.length →
        Fintype.card (Draws size (values.length - size)) = values.length ! / size ! ∧
          (∀ draws : Draws size (values.length - size), ∃ sample,
            reservoir .script values (.int size) draws.script = .ok (sample, [])) ∧
          ∀ target ⊆ range values.length, (#target) = size →
            #{draws : Draws size (values.length - size) |
              (chosen .script size values.length draws.script).toFinset = target} =
                (values.length - size)!) := by
  have hsample : ∀ (src : DrawSource) (g : src.State), reservoir src values (.int size) g =
      .ok (sampleFrom src size values 0 #[] g) := by
    intro src g
    rw [reservoir_int, if_neg (by omega), Int.toNat_natCast]
  refine ⟨fun src g => ?_, fun hle => ?_⟩
  · obtain ⟨hplaces, -⟩ := sampleFrom_eq_chosen src size values g
    have hcount := size_sampleFrom src size values 0 #[] g (by simp)
    rw [Nat.zero_add, Nat.min_comm] at hcount
    refine ⟨_, _, hsample src g, hcount, hplaces, chosen_nodup src size _ g, fun hfew => ?_⟩
    rw [sampleFrom_of_length_le src #[] g (by omega)]
    exact ⟨rfl, rfl⟩
  · obtain ⟨more, hmore⟩ := Nat.exists_eq_add_of_le hle
    have hrest : values.length - size = more := by omega
    rw [hrest, hmore]
    refine ⟨Draws.card_eq size more, fun draws => ?_, fun target hsub hcard => ?_⟩
    · obtain ⟨-, hleft⟩ := sampleFrom_eq_chosen .script size values draws.script
      have hrun := draws.sampleFrom_script []
      rw [List.append_nil] at hrun
      rw [hmore, hrun] at hleft
      exact ⟨_, (hsample .script draws.script).trans (congrArg _ (Prod.ext rfl hleft))⟩
    · simp only [Draws.chosen_script]
      exact Draws.card_places_eq hsub hcard

/-- Two of four values are sampled by twelve pairs of draws, and the first and the last of them by two of
these pairs: the draws may replace either of the values that the reservoir had. -/
theorem reservoir_uniform_pairs :
    0 < 2 ∧ 2 ≤ [7, 7, 8, 9].length ∧ Fintype.card (Draws 2 2) = 12 ∧
      reservoir .script [7, 7, 8, 9] (.int 2) [⟨3, 2⟩, ⟨4, 1⟩] = .ok (#[7, 9], []) ∧
      chosen .script 2 4 [⟨3, 2⟩, ⟨4, 1⟩] = [0, 3] ∧
      #{draws : Draws 2 2 | (chosen .script 2 4 draws.script).toFinset = {0, 3}} = 2 := by
  have hsize : 0 < 2 := by decide
  have hlength : 2 ≤ [7, 7, 8, 9].length := by decide
  obtain ⟨-, huniform⟩ := reservoir_uniform hsize [7, 7, 8, 9]
  obtain ⟨hcard, -, hsets⟩ := huniform hlength
  exact ⟨hsize, hlength, hcard, rfl, rfl, hsets {0, 3} (by decide) rfl⟩

end HeavyHitters.Median
