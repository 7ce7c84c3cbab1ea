import HeavyHitters.Row
import Mathlib.Data.List.Sort

/-!
# Lists in which equal elements stand alike

A sort by a key is stable if elements of equal key keep their order. Two lists are `Alike` if, for every
key, the elements of that key are the same in both and stand in the same order. Every step of a stable sort
turns a list into one that is alike, and among all these one only is ascending. So it need not be said how a
list is sorted, as long as the result is ascending and alike.

## What is proved

* `Ascending.head_le`, `Ascending.le_getLast`: an ascending list goes from its least element to its greatest.
* `Alike.append`, `Alike.mem_iff`: alike parts make alike lists, which have the same elements.
* `alike_swap`, `alike_reverse`: elements of different keys may change places.
* `Alike.eq`: ascending lists that are alike are equal.
* `ascending_ascend`, `alike_ascend`: the stable sort of a list is ascending and alike.
-/

namespace HeavyHitters

variable {α : Type} {key : α → ℤ} {xs ys zs : List α}

/-- The elements of equal key are the same, and in the same order. -/
def Alike (key : α → ℤ) (xs ys : List α) : Prop :=
  ∀ k, xs.filter (key · = k) = ys.filter (key · = k)

/-- No element is less than one before it. -/
def Ascending (key : α → ℤ) (xs : List α) : Prop := xs.Pairwise fun x y => key x ≤ key y

namespace Ascending

/-- The first element is the least. -/
theorem head_le {x y : α} (h : Ascending key (x :: xs)) (hy : y ∈ x :: xs) : key x ≤ key y := by
  rcases List.mem_cons.mp hy with rfl | hmem
  · exact le_rfl
  · exact (List.pairwise_cons.mp h).1 y hmem

/-- The last element is the greatest. -/
theorem le_getLast {x y : α} (h : Ascending key xs) (hx : xs.getLast? = some x) (hy : y ∈ xs) :
    key y ≤ key x := by
  obtain ⟨zs, rfl⟩ := List.getLast?_eq_some_iff.mp hx
  rcases List.mem_append.mp hy with hmem | hmem
  · exact (List.pairwise_append.mp h).2.2 y hmem x List.mem_cons_self
  · rw [List.mem_singleton.mp hmem]

/-- Turned around, the list is ascending by the opposite keys. -/
theorem reverse (h : Ascending key xs) : Ascending (fun x => -key x) xs.reverse :=
  List.pairwise_reverse.mpr (h.imp fun h => Int.neg_le_neg h)

end Ascending

namespace Alike

theorem refl (xs : List α) : Alike key xs xs := fun _ => rfl

theorem symm (h : Alike key xs ys) : Alike key ys xs := fun k => (h k).symm

theorem trans (h : Alike key xs ys) (h' : Alike key ys zs) : Alike key xs zs :=
  fun k => (h k).trans (h' k)

theorem append {xs' ys' : List α} (h : Alike key xs ys) (h' : Alike key xs' ys') :
    Alike key (xs ++ xs') (ys ++ ys') := by
  intro k
  rw [List.filter_append, List.filter_append, h k, h' k]

theorem append_left (zs : List α) (h : Alike key xs ys) : Alike key (zs ++ xs) (zs ++ ys) :=
  (refl zs).append h

theorem append_right (h : Alike key xs ys) (zs : List α) : Alike key (xs ++ zs) (ys ++ zs) :=
  h.append (refl zs)

/-- Lists that are alike have the same elements. -/
theorem mem_iff (h : Alike key xs ys) {x : α} : x ∈ xs ↔ x ∈ ys := by
  have hmem : ∀ zs : List α, x ∈ zs ↔ x ∈ zs.filter (key · = key x) := fun zs => by simp
  rw [hmem xs, hmem ys, h]

/-- Nothing changes if the order is turned around in both. -/
theorem reverse (h : Alike key xs ys) : Alike key xs.reverse ys.reverse := by
  intro k
  rw [List.filter_reverse, List.filter_reverse, h k]

/-- The opposite keys are equal in the same cases. -/
theorem neg (h : Alike key xs ys) : Alike (fun x => -key x) xs ys := by
  intro k
  have hsame : ∀ zs : List α, zs.filter (-key · = k) = zs.filter (key · = -k) := fun zs =>
    List.filter_congr fun x _ => by rw [decide_eq_decide]; omega
  rw [hsame xs, hsame ys, h]

/-- The first elements of alike lists are the same if their keys are. -/
private theorem of_cons {x y : α} (h : Alike key (x :: xs) (y :: ys)) (hkey : key y = key x) :
    x = y ∧ Alike key xs ys := by
  have hfirst := h (key x)
  simp only [List.filter_cons, hkey, decide_true, if_true, List.cons.injEq] at hfirst
  obtain ⟨rfl, -⟩ := hfirst
  refine ⟨rfl, fun k => ?_⟩
  have hk := h k
  simp only [List.filter_cons] at hk
  split_ifs at hk with heq
  · exact (List.cons.inj hk).2
  · exact hk

/-- **Ascending lists that are alike are equal.** -/
theorem eq (h : Alike key xs ys) (hxs : Ascending key xs) (hys : Ascending key ys) : xs = ys := by
  induction xs generalizing ys with
  | nil =>
    symm
    exact List.eq_nil_iff_forall_not_mem.mpr fun y hy => List.not_mem_nil (h.mem_iff.mpr hy)
  | cons x xs ih =>
    cases ys with
    | nil => exact absurd (h.mem_iff.mp List.mem_cons_self) List.not_mem_nil
    | cons y ys =>
      -- both are the least elements
      have hle : key y ≤ key x := hys.head_le (h.mem_iff.mp List.mem_cons_self)
      have hge : key x ≤ key y := hxs.head_le (h.mem_iff.mpr List.mem_cons_self)
      obtain ⟨rfl, hrest⟩ := h.of_cons (le_antisymm hle hge)
      rw [ih hrest hxs.of_cons hys.of_cons]

end Alike

/-- Elements of different keys may change places. -/
theorem alike_swap (h : ∀ x ∈ xs, ∀ y ∈ ys, key x ≠ key y) : Alike key (xs ++ ys) (ys ++ xs) := by
  intro k
  rw [List.filter_append, List.filter_append]
  by_cases hk : ∃ x ∈ xs, key x = k
  · obtain ⟨x, hx, rfl⟩ := hk
    have hnone : ys.filter (key · = key x) = [] :=
      List.filter_eq_nil_iff.mpr fun y hy => by simpa using (h x hx y hy).symm
    rw [hnone, List.append_nil, List.nil_append]
  · have hnone : xs.filter (key · = k) = [] :=
      List.filter_eq_nil_iff.mpr fun x hx => by simpa using fun heq => hk ⟨x, hx, heq⟩
    rw [hnone, List.append_nil, List.nil_append]

/-- A list of different keys may be turned around. -/
theorem alike_reverse (h : xs.Pairwise fun x y => key x ≠ key y) : Alike key xs.reverse xs := by
  induction xs with
  | nil => exact .refl []
  | cons x xs ih =>
    obtain ⟨hx, hxs⟩ := List.pairwise_cons.mp h
    rw [List.reverse_cons]
    refine ((ih hxs).append_right [x]).trans ?_
    change Alike key (xs ++ [x]) ([x] ++ xs)
    refine alike_swap fun y hy z hz => ?_
    rw [List.mem_singleton.mp hz]
    exact (hx y hy).symm

/-- The stable sort by a key. -/
def ascend (key : α → ℤ) (xs : List α) : List α := xs.mergeSort fun x y => key x ≤ key y

theorem ascending_ascend (key : α → ℤ) (xs : List α) : Ascending key (ascend key xs) := by
  have hsorted := @List.pairwise_mergeSort α (fun x y => decide (key x ≤ key y))
    (by simpa using fun x y z => @le_trans ℤ _ (key x) (key y) (key z))
    (by simpa using fun x y => le_total (key x) (key y)) xs
  simpa [Ascending, ascend] using hsorted

theorem alike_ascend (key : α → ℤ) (xs : List α) : Alike key (ascend key xs) xs := by
  intro k
  have hsame : (xs.filter (key · = k)).Pairwise fun x y => decide (key x ≤ key y) = true := by
    refine List.pairwise_of_forall_mem_list fun x hx y hy => ?_
    have hx' : key x = k := by simpa using (List.mem_filter.mp hx).2
    have hy' : key y = k := by simpa using (List.mem_filter.mp hy).2
    simp [hx', hy']
  have hkept : (xs.filter (key · = k)).Sublist (ascend key xs) :=
    List.sublist_mergeSort (by simpa using fun x y z => @le_trans ℤ _ (key x) (key y) (key z))
      (by simpa using fun x y => le_total (key x) (key y)) hsame List.filter_sublist
  have hsublist := hkept.filter (key · = k)
  simp only [List.filter_filter, Bool.and_self] at hsublist
  exact (hsublist.eq_of_length ((List.mergeSort_perm xs _).filter _).length_eq.symm).symm

/-- Rows by descending estimate are rows by the opposite of it. -/
theorem Row.descending_eq (rows : List (Row ℤ)) : descending rows = ascend (fun r => -r.estimate) rows := by
  simp only [descending, ascend, Int.neg_le_neg_iff]

end HeavyHitters
