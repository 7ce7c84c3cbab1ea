import HeavyHitters.Proofs.Sorting.Merging
import HeavyHitters.Row.Order

/-!
# The sort is the stable sort

If a comparison never fails, and goes by a key, it does not matter which comparison comes first: the sort
succeeds, and its result is the one ascending list that is alike. Every part of the sort is shown to leave
lists that are alike: a run that is turned around is strictly descending, an element is inserted behind those
that are equal to it, and only neighbouring runs are merged. So all that has to be said of the stack of runs
is that each of them is ascending, and what they hold together with the rest.

The rows of an answer are rows of integers, which are compared by their estimates. Put in descending order
with such comparisons, they stand as `Row.descending` has them.

## What is proved

* `exists_nextRun`: a run is ascending, and it takes something from the rest.
* `exists_closeDeeper`, `exists_pushRun`, `exists_closeAll`: what becomes of the runs on the stack.
* `sortBy_eq`: a sort by comparisons that go by a key is the stable sort by that key.
* `Row.sortedDown_eq`: so rows of integers are sorted as they are in an answer.
-/

namespace HeavyHitters

variable {α : Type} {key : α → ℤ} {less : α → α → Except Error Bool} {P : α → Prop}

/-! ### Runs -/

/-- A run goes on as long as it goes on in the same direction. -/
theorem exists_takeRun (hless : GoesBy less key P) (descending : Bool) {last : α} {xs : List α}
    (hlast : P last) (hall : ∀ x ∈ xs, P x) :
    ∃ run rest, takeRun less descending last xs = .ok (run, rest) ∧ run ++ rest = xs ∧
      List.IsChain (fun x y => decide (key y < key x) = descending) (last :: run) := by
  induction xs generalizing last with
  | nil => exact ⟨[], [], rfl, rfl, .singleton last⟩
  | cons x xs ih =>
    obtain ⟨hx, hxs⟩ := List.forall_mem_cons.mp hall
    rw [takeRun, hless x last hx hlast]
    simp only [bind, Except.bind]
    split_ifs with hgoes
    · obtain ⟨run, rest, hrun, hparts, hchain⟩ := ih hx hxs
      exact ⟨x :: run, rest, by rw [hrun]; rfl, by rw [List.cons_append, hparts], .cons_cons hgoes hchain⟩
    · exact ⟨[], x :: xs, rfl, rfl, .singleton last⟩

/-- An element is inserted behind those that are equal to it. -/
theorem exists_insertSorted (hless : GoesBy less key P) {sorted : List α} (hsorted : Ascending key sorted)
    (hall : ∀ y ∈ sorted, P y) {x : α} (hx : P x) :
    ∃ ys, insertSorted less sorted x = .ok ys ∧ Ascending key ys ∧ Alike key ys (sorted ++ [x]) := by
  have hmono : sorted.Pairwise fun y y' =>
      (!decide (key x < key y')) = true → (!decide (key x < key y)) = true := by
    refine hsorted.imp fun {y y'} hle hpass => ?_
    simp only [Bool.not_eq_true', decide_eq_false_iff_not] at hpass ⊢
    omega
  obtain ⟨i, hdivides⟩ := exists_divides hmono
  have hbefore : ∀ y ∈ sorted,
      (do return !(← less x y) : Except Error Bool) = .ok (!decide (key x < key y)) := by
    intro y hy
    rw [hless x y hx (hall y hy)]
    rfl
  have hboundary := boundary_eq .front hbefore hdivides (Nat.zero_le i) hdivides.le_length le_rfl
    (Nat.sub_zero _).le
  have hlow : ∀ y ∈ sorted.take i, key y ≤ key x := fun y hy => by simpa using hdivides.take y hy
  have hhigh : ∀ y ∈ sorted.drop i, key x < key y := fun y hy => by simpa using hdivides.drop y hy
  have hparts : sorted.take i ++ sorted.drop i = sorted := List.take_append_drop i sorted
  refine ⟨sorted.take i ++ x :: sorted.drop i, ?_, ?_, ?_⟩
  · simp only [insertSorted, hboundary]
    rfl
  · obtain ⟨htake, hdrop, hacross⟩ := List.pairwise_append.mp (hparts.symm ▸ hsorted : Ascending key _)
    refine List.pairwise_append.mpr ⟨htake, List.pairwise_cons.mpr ⟨fun y hy => (hhigh y hy).le, hdrop⟩, ?_⟩
    exact fun y hy => List.forall_mem_cons.mpr ⟨hlow y hy, hacross y hy⟩
  · have hswap : Alike key ([x] ++ sorted.drop i) (sorted.drop i ++ [x]) :=
      alike_swap fun z hz y hy => by
        rw [List.mem_singleton.mp hz]
        exact (hhigh y hy).ne
    have hwhole := hswap.append_left (sorted.take i)
    rwa [← List.append_assoc (sorted.take i) (sorted.drop i), hparts] at hwhole

/-- So are several, one after the other. -/
theorem exists_foldlM_insertSorted (hless : GoesBy less key P) {sorted xs : List α}
    (hsorted : Ascending key sorted) (hall : ∀ x ∈ sorted ++ xs, P x) :
    ∃ ys, xs.foldlM (insertSorted less) sorted = .ok ys ∧ Ascending key ys ∧ Alike key ys (sorted ++ xs) := by
  induction xs generalizing sorted with
  | nil => exact ⟨sorted, rfl, hsorted, by simpa using Alike.refl sorted⟩
  | cons x xs ih =>
    obtain ⟨hall₁, hall₂⟩ := List.forall_mem_append.mp hall
    obtain ⟨hx, hxs⟩ := List.forall_mem_cons.mp hall₂
    obtain ⟨ys, hinsert, hascending, halike⟩ := exists_insertSorted hless hsorted hall₁ hx
    have hall' : ∀ z ∈ ys ++ xs, P z := by
      refine List.forall_mem_append.mpr ⟨fun z hz => ?_, hxs⟩
      rcases List.mem_append.mp (halike.mem_iff.mp hz) with hz | hz
      · exact hall₁ z hz
      · exact List.mem_singleton.mp hz ▸ hx
    obtain ⟨zs, hfold, hascending', halike'⟩ := ih hascending hall'
    refine ⟨zs, by rw [List.foldlM_cons, hinsert]; exact hfold, hascending', halike'.trans ?_⟩
    rw [List.append_cons]
    exact halike.append_right xs

/-- A run that is descending is turned around. As it is strictly descending, no equal elements change
places. -/
theorem ascending_run {descending : Bool} {run : List α}
    (h : run.IsChain fun x y => decide (key y < key x) = descending) :
    Ascending key (if descending then run.reverse else run) ∧
      Alike key (if descending then run.reverse else run) run := by
  cases descending with
  | true =>
    have : IsTrans α fun x y => decide (key y < key x) = true :=
      ⟨fun x y z hxy hyz => by simp only [decide_eq_true_eq] at *; omega⟩
    have hpairwise := List.isChain_iff_pairwise.mp h
    simp only [decide_eq_true_eq] at hpairwise
    exact ⟨List.pairwise_reverse.mpr (hpairwise.imp le_of_lt), alike_reverse (hpairwise.imp ne_of_gt)⟩
  | false =>
    have : IsTrans α fun x y => decide (key y < key x) = false :=
      ⟨fun x y z hxy hyz => by simp only [decide_eq_false_iff_not] at *; omega⟩
    have hpairwise := List.isChain_iff_pairwise.mp h
    simp only [decide_eq_false_iff_not, not_lt] at hpairwise
    exact ⟨hpairwise, .refl run⟩

/-- **The first run** of a sequence is ascending, and it takes something from the rest. -/
theorem exists_nextRun (hless : GoesBy less key P) (least : ℕ) {xs : List α} (hall : ∀ x ∈ xs, P x) :
    ∃ run rest, nextRun less least xs = .ok (run, rest) ∧ Ascending key run ∧ Alike key (run ++ rest) xs ∧
      (xs ≠ [] → rest.length < xs.length) := by
  match xs with
  | [] => exact ⟨[], [], rfl, .nil, .refl [], fun h => absurd rfl h⟩
  | [x] => exact ⟨[x], [], rfl, List.pairwise_singleton _ x, .refl [x], fun _ => Nat.zero_lt_one⟩
  | x :: y :: ys =>
    obtain ⟨hx, hxs⟩ := List.forall_mem_cons.mp hall
    obtain ⟨hy, hys⟩ := List.forall_mem_cons.mp hxs
    obtain ⟨run, rest, htake, hparts, hchain⟩ := exists_takeRun hless (decide (key y < key x)) hy hys
    obtain ⟨hascending, halike⟩ := ascending_run (.cons_cons (l := run) rfl hchain)
    set whole := if decide (key y < key x) = true then (x :: y :: run).reverse else x :: y :: run with hwhole
    set missing := least - whole.length
    have hsplit : rest.take missing ++ rest.drop missing = rest := List.take_append_drop missing rest
    have halike' : Alike key (whole ++ rest.take missing ++ rest.drop missing) (x :: y :: ys) := by
      rw [List.append_assoc, hsplit, ← hparts]
      exact halike.append_right rest
    have hall' : ∀ z ∈ whole ++ rest.take missing, P z := fun z hz =>
      hall z (halike'.mem_iff.mp (List.mem_append_left _ hz))
    obtain ⟨items, hinsert, hitems, halike''⟩ := exists_foldlM_insertSorted hless hascending hall'
    refine ⟨items, rest.drop missing, ?_, hitems, (halike''.append_right _).trans halike', fun _ => ?_⟩
    · simp only [nextRun, hless y x hy hx, htake, bind, Except.bind]
      rw [← hwhole, hinsert]
      rfl
    · have hlength := congrArg List.length hparts
      simp only [List.length_append, List.length_cons, List.length_drop] at hlength ⊢
      omega

/-! ### The stack of runs -/

/-- What the runs on a stack hold, in the order of the sequence. -/
def contents (stack : List (PendingRun α)) : List α := (stack.reverse.map (·.items)).flatten

@[simp] theorem contents_nil : contents ([] : List (PendingRun α)) = [] := rfl

@[simp] theorem contents_cons (run : PendingRun α) (stack : List (PendingRun α)) :
    contents (run :: stack) = contents stack ++ run.items := by
  simp [contents]

/-- All runs on a stack are ascending. -/
def Waiting (key : α → ℤ) (stack : List (PendingRun α)) : Prop := ∀ run ∈ stack, Ascending key run.items

/-- **Runs are merged** as long as their boundaries lie deep enough. -/
theorem exists_closeDeeper (hless : GoesBy less key P) (depth : ℕ) {run : PendingRun α}
    {stack : List (PendingRun α)} (hrun : Ascending key run.items) (hstack : Waiting key stack)
    (hall : ∀ x ∈ contents stack ++ run.items, P x) (patience : ℕ) :
    ∃ run' stack' patience', closeDeeper less depth run patience stack = .ok (run', stack', patience') ∧
      Waiting key (run' :: stack') ∧ Alike key (contents (run' :: stack')) (contents (run :: stack)) := by
  induction stack generalizing run patience with
  | nil => exact ⟨run, [], patience, rfl, by simpa [Waiting] using hrun, .refl _⟩
  | cons below stack ih =>
    obtain ⟨hbelow, hstack'⟩ := List.forall_mem_cons.mp hstack
    rw [closeDeeper]
    split_ifs with hdepth
    · rw [contents_cons, List.append_assoc] at hall
      obtain ⟨hall₁, hall₂⟩ := List.forall_mem_append.mp hall
      obtain ⟨items, patience', hmerge, hitems, halike⟩ := exists_mergeRuns hless hall₂ hbelow hrun patience
      have hall' : ∀ x ∈ contents stack ++ items, P x :=
        List.forall_mem_append.mpr ⟨hall₁, fun x hx => hall₂ x (halike.mem_iff.mp hx)⟩
      obtain ⟨run', stack', patience'', hclose, hwaiting, halike'⟩ :=
        @ih { below with items } hitems hstack' hall' patience'
      refine ⟨run', stack', patience'', by simp only [hmerge, bind, Except.bind, hclose], hwaiting,
        halike'.trans ?_⟩
      rw [contents_cons, contents_cons, contents_cons, List.append_assoc]
      exact halike.append_left _
    · exact ⟨run, below :: stack, patience, rfl, List.forall_mem_cons.mpr ⟨hrun, hstack⟩, .refl _⟩

/-- **A run is pushed** on the stack. -/
theorem exists_pushRun (hless : GoesBy less key P) (n : ℕ) {items : List α} {stack : List (PendingRun α)}
    (hitems : Ascending key items) (hstack : Waiting key stack) (hall : ∀ x ∈ contents stack, P x)
    (patience : ℕ) :
    ∃ stack' patience', pushRun less n items patience stack = .ok (stack', patience') ∧
      Waiting key stack' ∧ Alike key (contents stack') (contents stack ++ items) := by
  cases stack with
  | nil => exact ⟨_, patience, rfl, by simpa [Waiting] using hitems, by simpa using Alike.refl items⟩
  | cons top stack =>
    obtain ⟨htop, hstack'⟩ := List.forall_mem_cons.mp hstack
    rw [contents_cons] at hall
    obtain ⟨run, stack', patience', hclose, hwaiting, halike⟩ :=
      exists_closeDeeper hless (top.depthBefore n items.length) htop hstack' hall patience
    obtain ⟨hrun, hwaiting'⟩ := List.forall_mem_cons.mp hwaiting
    refine ⟨_, patience', by simp only [pushRun, hclose, bind, Except.bind]; rfl, ?_, ?_⟩
    · exact List.forall_mem_cons.mpr ⟨hitems, List.forall_mem_cons.mpr ⟨hrun, hwaiting'⟩⟩
    · rw [contents_cons, contents_cons]
      rw [contents_cons] at halike
      exact halike.append_right items

/-- **All runs are merged** at the end. -/
theorem exists_closeAll (hless : GoesBy less key P) {top second : List α} {stack : List (PendingRun α)}
    (htop : Ascending key top) (hsecond : Ascending key second) (hstack : Waiting key stack)
    (hall : ∀ x ∈ contents stack ++ (second ++ top), P x) (patience : ℕ) :
    ∃ xs, closeAll less top second patience stack = .ok xs ∧ Ascending key xs ∧
      Alike key xs (contents stack ++ (second ++ top)) := by
  induction stack generalizing top second patience with
  | nil =>
    rw [contents_nil, List.nil_append] at hall ⊢
    obtain ⟨xs, patience', hmerge, hxs, halike⟩ := exists_mergeRuns hless hall hsecond htop patience
    exact ⟨xs, by rw [closeAll, hmerge]; rfl, hxs, halike⟩
  | cons third stack ih =>
    obtain ⟨hthird, hstack'⟩ := List.forall_mem_cons.mp hstack
    rw [contents_cons, List.append_assoc] at hall ⊢
    obtain ⟨hall₁, hall₂⟩ := List.forall_mem_append.mp hall
    rw [closeAll]
    split_ifs with hshort
    · rw [← List.append_assoc] at hall₂
      obtain ⟨hall₃, hall₄⟩ := List.forall_mem_append.mp hall₂
      obtain ⟨items, patience', hmerge, hitems, halike⟩ :=
        exists_mergeRuns hless hall₃ hthird hsecond patience
      have halike' := halike.append_right top
      obtain ⟨xs, hclose, hxs, halike''⟩ := ih htop hitems hstack'
        (List.forall_mem_append.mpr ⟨hall₁, fun x hx => hall₂ x (halike'.mem_iff.mp hx)⟩) patience'
      refine ⟨xs, by simp only [hmerge, bind, Except.bind, hclose], hxs, halike''.trans ?_⟩
      rw [← List.append_assoc third.items]
      exact halike'.append_left _
    · obtain ⟨hall₃, hall₄⟩ := List.forall_mem_append.mp hall₂
      obtain ⟨items, patience', hmerge, hitems, halike⟩ :=
        exists_mergeRuns hless hall₄ hsecond htop patience
      have halike' := halike.append_left third.items
      obtain ⟨xs, hclose, hxs, halike''⟩ := ih hitems hthird hstack'
        (List.forall_mem_append.mpr ⟨hall₁, fun x hx => hall₂ x (halike'.mem_iff.mp hx)⟩) patience'
      refine ⟨xs, by simp only [hmerge, bind, Except.bind, hclose], hxs, halike''.trans ?_⟩
      exact halike'.append_left _

/-! ### The whole sort -/

/-- A stack that is closed at the end, when nothing is left. -/
private theorem exists_sortFrom_nil (hless : GoesBy less key P) (n rounds : ℕ)
    {stack : List (PendingRun α)} (hstack : Waiting key stack) (hall : ∀ x ∈ contents stack, P x)
    (patience : ℕ) :
    ∃ ys, sortFrom less n rounds patience stack [] = .ok ys ∧ Ascending key ys ∧
      Alike key ys (contents stack) := by
  match stack with
  | [] => exact ⟨[], by cases rounds <;> rfl, .nil, .refl []⟩
  | [top] => exact ⟨top.items, by cases rounds <;> rfl, hstack top List.mem_cons_self,
      by simpa using Alike.refl top.items⟩
  | top :: second :: stack =>
    obtain ⟨htop, hstack'⟩ := List.forall_mem_cons.mp hstack
    obtain ⟨hsecond, hstack''⟩ := List.forall_mem_cons.mp hstack'
    rw [contents_cons, contents_cons, List.append_assoc] at hall ⊢
    obtain ⟨ys, hclose, hys, halike⟩ := exists_closeAll hless htop hsecond hstack'' hall patience
    exact ⟨ys, by cases rounds <;> exact hclose, hys, halike⟩

theorem exists_sortFrom (hless : GoesBy less key P) (n : ℕ) {rounds : ℕ} {stack : List (PendingRun α)}
    {xs : List α} (hrounds : xs.length ≤ rounds) (hstack : Waiting key stack)
    (hall : ∀ x ∈ contents stack ++ xs, P x) (patience : ℕ) :
    ∃ ys, sortFrom less n rounds patience stack xs = .ok ys ∧ Ascending key ys ∧
      Alike key ys (contents stack ++ xs) := by
  induction rounds generalizing stack xs patience with
  | zero =>
    obtain rfl : xs = [] := List.length_eq_zero_iff.mp (Nat.le_zero.mp hrounds)
    rw [List.append_nil] at hall ⊢
    exact exists_sortFrom_nil hless n 0 hstack hall patience
  | succ rounds ih =>
    cases xs with
    | nil =>
      rw [List.append_nil] at hall ⊢
      exact exists_sortFrom_nil hless n (rounds + 1) hstack hall patience
    | cons x xs =>
      obtain ⟨hall₁, hall₂⟩ := List.forall_mem_append.mp hall
      obtain ⟨items, rest, hnext, hitems, halike, hshorter⟩ := exists_nextRun hless (leastRun n) hall₂
      obtain ⟨stack', patience', hpush, hstack', halike'⟩ :=
        exists_pushRun hless n hitems hstack hall₁ patience
      have hwhole : Alike key (contents stack' ++ rest) (contents stack ++ x :: xs) := by
        refine (halike'.append_right rest).trans ?_
        rw [List.append_assoc]
        exact halike.append_left _
      have hlength : rest.length ≤ rounds := by
        have hlt := hshorter (List.cons_ne_nil x xs)
        omega
      obtain ⟨ys, hsort, hys, halike''⟩ := ih hlength hstack'
        (fun z hz => hall z (hwhole.mem_iff.mp hz)) patience'
      exact ⟨ys, by simp only [sortFrom, hnext, hpush, bind, Except.bind, hsort], hys, halike''.trans hwhole⟩

/-- **The sort is the stable sort** if the comparison goes by a key. -/
theorem sortBy_eq (hless : GoesBy less key P) {xs : List α} (hall : ∀ x ∈ xs, P x) :
    sortBy less xs = .ok (ascend key xs) := by
  have hnone : Waiting key ([] : List (PendingRun α)) := fun run hrun => absurd hrun List.not_mem_nil
  obtain ⟨ys, hsort, hys, halike⟩ := exists_sortFrom hless xs.length le_rfl hnone hall longStretch
  rw [sortBy, hsort, (halike.trans (alike_ascend key xs).symm).eq hys (ascending_ascend key xs)]

/-! ### Rows -/

namespace Row

/-- The estimate of a row, if it is an integer. -/
def level (r : Row Scalar) : ℤ := r.estimate.index?.getD 0

/-- Rows of integers are compared by their estimates. -/
theorem isBelow_goesBy : GoesBy (fun a b : Row Scalar => a.estimate.isBelow b.estimate) level
    fun r => ∃ q : Row ℤ, q.toScalars = r := by
  rintro _ _ ⟨a, rfl⟩ ⟨b, rfl⟩
  exact Scalar.isBelow_int a.estimate b.estimate

/-- **Rows of integers are put in descending order** by comparing them: no comparison is refused, and rows of
equal estimate stay in their order. -/
theorem sortedDown_eq (rows : List (Row ℤ)) :
    sortedDown (rows.map toScalars) = .ok ((descending rows).map toScalars) := by
  have hall : ∀ r ∈ (rows.map toScalars).reverse, ∃ q : Row ℤ, q.toScalars = r := by
    intro r hr
    obtain ⟨q, -, hq⟩ := List.mem_map.mp (List.mem_reverse.mp hr)
    exact ⟨q, hq⟩
  have hdown : (ascend level (rows.map toScalars).reverse).reverse = (descending rows).map toScalars := by
    have hmap : (descending rows).map toScalars = ascend (fun r => -level r) (rows.map toScalars) := by
      rw [descending_eq]
      exact List.map_mergeSort fun a _ b _ => rfl
    rw [hmap]
    have hback := (alike_ascend level (rows.map toScalars).reverse).neg.reverse
    rw [List.reverse_reverse] at hback
    exact (hback.trans (alike_ascend _ _).symm).eq (ascending_ascend level _).reverse (ascending_ascend _ _)
  rw [sortedDown, sorted, sortBy_eq isBelow_goesBy hall, ← hdown]
  rfl

/-- Of rows with equal estimates the first stays first. -/
example : sortedDown ([⟨1, 3, 3, 1⟩, ⟨2, 5, 5, 3⟩, ⟨3, 3, 3, 1⟩, ⟨4, 5, 5, 3⟩].map toScalars) =
    .ok ([⟨2, 5, 5, 3⟩, ⟨4, 5, 5, 3⟩, ⟨1, 3, 3, 1⟩, ⟨3, 3, 3, 1⟩].map toScalars) := by
  decide +kernel

end Row

end HeavyHitters
