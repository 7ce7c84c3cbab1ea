import HeavyHitters.Proofs.Results
import HeavyHitters.Proofs.Sorting.Alike
import HeavyHitters.Sorting.Merge

/-!
# Merging runs

A comparison that never fails, and goes by a key, makes every merge a stable one. A merge from the front
and a merge from the back are told as one: seen from the back the order of the elements is turned around, and
so is that of the keys, and it is the later run that comes first among equal elements. So in either case the
shorter run is the first of two, and of these it is known at each step that what has been merged goes before
what is left (`Halfway`). At the end one run is left at most, or one element of the first run, which goes
behind all others.

## What is proved

* `exists_gallop`: a gallop finds how many elements of an ascending list pass a test.
* `Halfway.moveFirst`, `Halfway.moveSecond`: what may be taken from which run.
* `Merging.Sound.exists_takeNext`, `Merging.Sound.exists_stretchEarlier`,
  `Merging.Sound.exists_stretchLater`: that is what is taken.
* `Merging.Sound.exists_settle`, `exists_mergeFrom`, `exists_mergeRuns`: so two runs become one.
-/

namespace HeavyHitters

variable {α : Type} {key : α → ℤ}

/-! ### Galloping -/

section Gallop

variable {test : α → Except Error Bool} {p : α → Bool} {xs : List α} {n : ℕ}

/-- The first `n` elements of a list pass a test, and the others do not. -/
structure Divides (p : α → Bool) (xs : List α) (n : ℕ) : Prop where
  /-- There are as many elements. -/
  le_length : n ≤ xs.length
  /-- These pass. -/
  take : ∀ x ∈ xs.take n, p x = true
  /-- Those behind them do not. -/
  drop : ∀ x ∈ xs.drop n, p x = false

theorem Divides.iff (h : Divides p xs n) {i : ℕ} {x : α} (hx : xs[i]? = some x) : p x = true ↔ i < n := by
  constructor
  · intro hpass
    by_contra hle
    have hmem : x ∈ xs.drop n := by
      refine List.mem_iff_getElem?.mpr ⟨i - n, ?_⟩
      rw [List.getElem?_drop, Nat.add_sub_cancel' (not_lt.mp hle), hx]
    rw [h.drop x hmem] at hpass
    cases hpass
  · intro hlt
    refine h.take x (List.mem_iff_getElem?.mpr ⟨i, ?_⟩)
    rw [List.getElem?_take_of_lt hlt, hx]

/-- A test is passed by the first elements of a list if it is passed by all before one that passes. -/
theorem exists_divides (h : xs.Pairwise fun x y => p y = true → p x = true) : ∃ n, Divides p xs n := by
  induction xs with
  | nil => exact ⟨0, le_refl 0, fun x hx => absurd hx (by simp), fun x hx => absurd hx (by simp)⟩
  | cons x xs ih =>
    obtain ⟨hx, hxs⟩ := List.pairwise_cons.mp h
    cases hpass : p x with
    | true =>
      obtain ⟨n, hle, htake, hdrop⟩ := ih hxs
      refine ⟨n + 1, by simpa using hle, ?_, by simpa using hdrop⟩
      rw [List.take_succ_cons]
      exact List.forall_mem_cons.mpr ⟨hpass, htake⟩
    | false =>
      refine ⟨0, Nat.zero_le _, fun y hy => absurd hy (by simp), ?_⟩
      refine List.forall_mem_cons.mpr ⟨hpass, fun y hy => ?_⟩
      by_contra hy'
      rw [hx y hy (by simpa using hy')] at hpass
      cases hpass

theorem Side.middle_mem (side : Side) {lo hi : ℕ} (h : lo < hi) :
    lo ≤ side.middle lo hi ∧ side.middle lo hi < hi := by
  cases side with
  | front =>
    simp only [Side.middle]
    omega
  | back =>
    simp only [Side.middle]
    omega

theorem boundary_eq (side : Side) (htest : ∀ x ∈ xs, test x = .ok (p x)) (h : Divides p xs n)
    {rounds lo hi : ℕ} (hlo : lo ≤ n) (hhi : n ≤ hi) (hlength : hi ≤ xs.length) (hrounds : hi - lo ≤ rounds) :
    boundary test side xs rounds lo hi = .ok n := by
  induction rounds generalizing lo hi with
  | zero =>
    rw [boundary, Except.ok.injEq]
    omega
  | succ rounds ih =>
    rw [boundary]
    split_ifs with hend
    · rw [Except.ok.injEq]
      omega
    · obtain ⟨hle, hlt⟩ := side.middle_mem (not_le.mp hend)
      obtain ⟨x, hx⟩ : ∃ x, xs[side.middle lo hi]? = some x :=
        ⟨_, List.getElem?_eq_getElem (hlt.trans_le hlength)⟩
      have hiff := h.iff hx
      simp only [hx, htest x (List.mem_of_getElem? hx), bind, Except.bind]
      split_ifs with hpass
      · exact ih (hiff.mp hpass) hhi hlength (by omega)
      · have hn : n ≤ side.middle lo hi := not_lt.mp (mt hiff.mpr hpass)
        exact ih hlo hn (by omega) (by omega)

theorem exists_bracket (htest : ∀ x ∈ xs, test x = .ok (p x)) (h : Divides p xs n) (rounds next : ℕ)
    {lo : ℕ} (hlo : lo ≤ n) :
    ∃ lo' hi', bracket test xs rounds lo next = .ok (lo', hi') ∧ lo' ≤ n ∧ n ≤ hi' ∧ hi' ≤ xs.length := by
  induction rounds generalizing lo next with
  | zero => exact ⟨lo, xs.length, rfl, hlo, h.le_length, le_rfl⟩
  | succ rounds ih =>
    rw [bracket]
    cases hx : xs[next]? with
    | none => exact ⟨lo, xs.length, rfl, hlo, h.le_length, le_rfl⟩
    | some x =>
      have hiff := h.iff hx
      simp only [htest x (List.mem_of_getElem? hx), bind, Except.bind]
      split_ifs with hpass
      · exact ih _ (hiff.mp hpass)
      · have hnext : next < xs.length := (List.getElem?_eq_some_iff.mp hx).1
        exact ⟨lo, next, rfl, hlo, not_lt.mp (mt hiff.mpr hpass), hnext.le⟩

/-- **A gallop finds how many elements pass**, if all before one that passes do. -/
theorem exists_gallop (side : Side) (htest : ∀ x ∈ xs, test x = .ok (p x))
    (h : xs.Pairwise fun x y => p y = true → p x = true) :
    ∃ n, gallop test side xs = .ok n ∧ Divides p xs n := by
  obtain ⟨n, hn⟩ := exists_divides h
  obtain ⟨lo, hi, hbracket, hlo, hhi, hlength⟩ :=
    exists_bracket htest hn (xs.length + 1) 0 (Nat.zero_le n)
  refine ⟨n, ?_, hn⟩
  rw [gallop, hbracket]
  exact boundary_eq side htest hn hlo hhi hlength le_rfl

end Gallop

/-! ### Halfway through a merge -/

section Halfway

variable {k : α → ℤ} {all done first second : List α}

/-- Of all the elements some are done, in ascending order, and what is left of two ascending lists goes behind
them. The first list ends with an element that goes behind the whole second one. -/
structure Halfway (k : α → ℤ) (all done first second : List α) : Prop where
  /-- Nothing is lost, and no equal elements have changed places. -/
  alike : Alike k (done ++ first ++ second) all
  /-- The first list goes on where the done elements end. -/
  ascending_first : Ascending k (done ++ first)
  /-- The second list does so, too. -/
  ascending_second : Ascending k (done ++ second)
  /-- The last element of the first list goes behind the second list. -/
  last : ∀ x ∈ first.getLast?, ∀ y ∈ second, k y < k x

namespace Halfway

/-- Elements of the first list may be done if nothing in the second list is less. -/
theorem moveFirst (h : Halfway k all done first second) (n : ℕ)
    (hle : ∀ x ∈ first.take n, ∀ y ∈ second, k x ≤ k y) :
    Halfway k all (done ++ first.take n) (first.drop n) second where
  alike := by
    rw [List.append_assoc done, List.take_append_drop]
    exact h.alike
  ascending_first := by
    rw [List.append_assoc, List.take_append_drop]
    exact h.ascending_first
  ascending_second := by
    obtain ⟨hdone, hsecond, hbefore⟩ := List.pairwise_append.mp h.ascending_second
    rw [Ascending, List.append_assoc, List.pairwise_append]
    have hfirst := (List.pairwise_append.mp h.ascending_first).2
    have htake : (first.take n).Pairwise fun x y => k x ≤ k y := hfirst.1.sublist (List.take_sublist n first)
    refine ⟨hdone, List.pairwise_append.mpr ⟨htake, hsecond, hle⟩, fun x hx y hy => ?_⟩
    rcases List.mem_append.mp hy with hy | hy
    · exact hfirst.2 x hx y (List.mem_of_mem_take hy)
    · exact hbefore x hx y hy
  last x hx := by
    rw [List.getLast?_drop] at hx
    split_ifs at hx
    · cases hx
    · exact h.last x hx

/-- Elements of the second list may be done if they are less than the whole first list. -/
theorem moveSecond (h : Halfway k all done first second) (n : ℕ)
    (hlt : ∀ y ∈ second.take n, ∀ x ∈ first, k y < k x) :
    Halfway k all (done ++ second.take n) first (second.drop n) where
  alike := by
    have hswap : Alike k (second.take n ++ first) (first ++ second.take n) :=
      alike_swap fun y hy x hx => (hlt y hy x hx).ne
    have hall := (hswap.append_right (second.drop n)).append_left done
    rw [List.append_assoc first, List.take_append_drop, ← List.append_assoc, ← List.append_assoc,
      ← List.append_assoc] at hall
    exact hall.trans h.alike
  ascending_first := by
    obtain ⟨hdone, hfirst, hbefore⟩ := List.pairwise_append.mp h.ascending_first
    rw [Ascending, List.append_assoc, List.pairwise_append]
    have hsecond := (List.pairwise_append.mp h.ascending_second).2
    have htake : (second.take n).Pairwise fun x y => k x ≤ k y :=
      hsecond.1.sublist (List.take_sublist n second)
    refine ⟨hdone, List.pairwise_append.mpr ⟨htake, hfirst, fun y hy x hx => (hlt y hy x hx).le⟩,
      fun x hx y hy => ?_⟩
    rcases List.mem_append.mp hy with hy | hy
    · exact hsecond.2 x hx y (List.mem_of_mem_take hy)
    · exact hbefore x hx y hy
  ascending_second := by
    rw [List.append_assoc, List.take_append_drop]
    exact h.ascending_second
  last x hx y hy := h.last x hx y (List.mem_of_mem_drop hy)

/-- When the second list is used up, or one element of the first is left at most, the second list goes before
the first. -/
theorem settled (h : Halfway k all done first second) (hend : second = [] ∨ first.tail = []) :
    Ascending k (done ++ second ++ first) ∧ Alike k (done ++ second ++ first) all := by
  have hlt : ∀ y ∈ second, ∀ x ∈ first, k y < k x := by
    intro y hy x hx
    rcases hend with rfl | htail
    · cases hy
    · refine h.last x ?_ y hy
      cases first with
      | nil => cases hx
      | cons z first =>
        obtain rfl : first = [] := htail
        rw [List.mem_singleton.mp hx]
        rfl
  have hmoved := h.moveSecond second.length (by rwa [List.take_length])
  rw [List.take_length, List.drop_length] at hmoved
  exact ⟨hmoved.ascending_first, by simpa using hmoved.alike⟩

end Halfway

end Halfway

/-! ### The steps of a merge -/

/-- The comparison goes by the keys of the elements in question, and does not fail on them. -/
def GoesBy (less : α → α → Except Error Bool) (key : α → ℤ) (P : α → Prop) : Prop :=
  ∀ x y, P x → P y → less x y = .ok (decide (key x < key y))

/-- The keys, as they are seen from a side. -/
def Side.rank (side : Side) (key : α → ℤ) (x : α) : ℤ :=
  match side with
  | .front => key x
  | .back => -key x

/-- Whether an element of the earlier run goes first, seen from a side. -/
def Side.prefers (side : Side) (key : α → ℤ) (x y : α) : Bool :=
  match side with
  | .front => !decide (key y < key x)
  | .back => decide (key y < key x)

/-- A lesser element of the earlier run goes first also, and before a greater one of the later run. -/
theorem Side.prefers_mono {side : Side} {x x' y y' : α} (h : side.prefers key x y = true)
    (hx : side.rank key x' ≤ side.rank key x) (hy : side.rank key y ≤ side.rank key y') :
    side.prefers key x' y' = true := by
  cases side with
  | front =>
    simp only [Side.prefers, Side.rank, Bool.not_eq_true', decide_eq_false_iff_not] at *
    omega
  | back =>
    simp only [Side.prefers, Side.rank, decide_eq_true_eq] at *
    omega

/-- And if it does not go first, neither does a greater one, or before a lesser one of the later run. -/
theorem Side.prefers_mono' {side : Side} {x x' y y' : α} (h : side.prefers key x y = false)
    (hx : side.rank key x ≤ side.rank key x') (hy : side.rank key y' ≤ side.rank key y) :
    side.prefers key x' y' = false := by
  by_contra hno
  rw [Bool.not_eq_false] at hno
  rw [Side.prefers_mono hno hx hy] at h
  cases h

namespace Merging

variable {side : Side} {all : List α} {m : Merging α} {less : α → α → Except Error Bool} {P : α → Prop}

/-- A merge of all the elements is halfway, seen from a side. -/
def Sound (key : α → ℤ) (side : Side) (all : List α) (m : Merging α) : Prop :=
  Halfway (side.rank key) all m.merged.reverse (m.shorter side) (m.longer side)

/-- How many elements are left. -/
def left (m : Merging α) : ℕ := m.earlier.length + m.later.length

theorem earlierFirst_eq (hless : GoesBy less key P) {x y : α} (hx : P x) (hy : P y) :
    earlierFirst less side x y = .ok (side.prefers key x y) := by
  rw [earlierFirst, hless y x hy hx]
  cases side <;> rfl

theorem laterFirst_eq (hless : GoesBy less key P) {x y : α} (hx : P x) (hy : P y) :
    laterFirst less side x y = .ok (!side.prefers key x y) := by
  rw [laterFirst, earlierFirst_eq hless hx hy]
  rfl

namespace Sound

theorem ascending (h : m.Sound key side all) :
    Ascending (side.rank key) m.earlier ∧ Ascending (side.rank key) m.later := by
  have hfirst := (List.pairwise_append.mp h.ascending_first).2.1
  have hsecond := (List.pairwise_append.mp h.ascending_second).2.1
  cases side with
  | front => exact ⟨hfirst, hsecond⟩
  | back => exact ⟨hsecond, hfirst⟩

theorem mem (h : m.Sound key side all) :
    (∀ x ∈ m.earlier, x ∈ all) ∧ ∀ y ∈ m.later, y ∈ all := by
  have hmem : ∀ x, x ∈ m.shorter side ∨ x ∈ m.longer side → x ∈ all := by
    intro x hx
    refine h.alike.mem_iff.mp ?_
    rw [List.append_assoc]
    exact List.mem_append_right _ (List.mem_append.mpr hx)
  cases side with
  | front => exact ⟨fun x hx => hmem x (.inl hx), fun y hy => hmem y (.inr hy)⟩
  | back => exact ⟨fun x hx => hmem x (.inr hx), fun y hy => hmem y (.inl hy)⟩

/-- Elements of the earlier run are taken if they go first. -/
theorem takeEarlier (h : m.Sound key side all) (n : ℕ)
    (hfirst : ∀ x ∈ m.earlier.take n, ∀ y ∈ m.later, side.prefers key x y = true) :
    (m.takeEarlier n).Sound key side all := by
  have hmerged : (m.takeEarlier n).merged.reverse = m.merged.reverse ++ m.earlier.take n := by
    simp [Merging.takeEarlier]
  cases side with
  | front =>
    rw [Sound, hmerged]
    refine h.moveFirst n fun x hx y hy => ?_
    have hgoes := hfirst x hx y hy
    simpa [Side.prefers, Side.rank] using hgoes
  | back =>
    rw [Sound, hmerged]
    refine h.moveSecond n fun x hx y hy => ?_
    have hgoes := hfirst x hx y hy
    simpa [Side.prefers, Side.rank] using hgoes

/-- Elements of the later run are taken if they go first. -/
theorem takeLater (h : m.Sound key side all) (n : ℕ)
    (hfirst : ∀ y ∈ m.later.take n, ∀ x ∈ m.earlier, side.prefers key x y = false) :
    (m.takeLater n).Sound key side all := by
  have hmerged : (m.takeLater n).merged.reverse = m.merged.reverse ++ m.later.take n := by
    simp [Merging.takeLater]
  cases side with
  | front =>
    rw [Sound, hmerged]
    refine h.moveSecond n fun y hy x hx => ?_
    have hgoes := hfirst y hy x hx
    simpa [Side.prefers, Side.rank] using hgoes
  | back =>
    rw [Sound, hmerged]
    refine h.moveFirst n fun y hy x hx => ?_
    have hgoes := hfirst y hy x hx
    simpa [Side.prefers, Side.rank] using hgoes

end Sound

/-- As long as a merge is not settled, something is left of both runs. -/
theorem exists_cons_of_not_settled (h : m.isSettled side = false) :
    (∃ x xs, m.earlier = x :: xs) ∧ ∃ y ys, m.later = y :: ys := by
  rw [isSettled, Bool.or_eq_false_iff, List.isEmpty_eq_false_iff, List.isEmpty_eq_false_iff] at h
  obtain ⟨hlonger, hshorter⟩ := h
  have hshorter' : m.shorter side ≠ [] := fun hnil => hshorter (by rw [hnil]; rfl)
  cases side with
  | front => exact ⟨List.exists_cons_of_ne_nil hshorter', List.exists_cons_of_ne_nil hlonger⟩
  | back => exact ⟨List.exists_cons_of_ne_nil hlonger, List.exists_cons_of_ne_nil hshorter'⟩

namespace Sound

/-- **The next single element** is one that goes first. -/
theorem exists_takeNext (h : m.Sound key side all) (hless : GoesBy less key P) (hall : ∀ x ∈ all, P x)
    (hopen : m.isSettled side = false) :
    ∃ m' isEarlier, m.takeNext less side = .ok (m', isEarlier) ∧ m'.Sound key side all ∧
      m'.left < m.left := by
  obtain ⟨⟨x, xs, hx⟩, y, ys, hy⟩ := exists_cons_of_not_settled hopen
  obtain ⟨hearlier, hlater⟩ := h.ascending
  obtain ⟨hmemx, hmemy⟩ := h.mem
  rw [hx] at hearlier
  rw [hy] at hlater
  have hgoes : earlierFirst less side x y = .ok (side.prefers key x y) :=
    earlierFirst_eq hless (hall x (hmemx x (by simp [hx]))) (hall y (hmemy y (by simp [hy])))
  have hnext : m.takeNext less side =
      (do if side.prefers key x y then return (m.takeEarlier 1, true) else return (m.takeLater 1, false)) := by
    simp only [takeNext, hx, hy, hgoes]
    rfl
  cases hprefers : side.prefers key x y with
  | true =>
    refine ⟨m.takeEarlier 1, true, by rw [hnext, hprefers]; rfl, h.takeEarlier 1 ?_, ?_⟩
    · intro x' hx' y' hy'
      rw [hx] at hx'
      rw [List.mem_singleton.mp hx']
      exact Side.prefers_mono hprefers le_rfl (hlater.head_le (hy ▸ hy'))
    · simp [left, Merging.takeEarlier, hx]
  | false =>
    refine ⟨m.takeLater 1, false, by rw [hnext, hprefers]; rfl, h.takeLater 1 ?_, ?_⟩
    · intro y' hy' x' hx'
      rw [hy] at hy'
      rw [List.mem_singleton.mp hy']
      exact Side.prefers_mono' hprefers (hearlier.head_le (hx ▸ hx')) le_rfl
    · simp [left, Merging.takeLater, hy]

/-- A stretch ends with an element of the other run, unless it has settled the merge. -/
private theorem stretched {stretch : Except Error (Merging α × ℕ)} {first second : Merging α} {k : ℕ}
    (hstretch : stretch = .ok (if first.isSettled side then first else second, k))
    (hfirst : first.Sound key side all) (hsecond : second.Sound key side all)
    (hleft : second.left < m.left) :
    ∃ m' k, stretch = .ok (m', k) ∧ m'.Sound key side all ∧
      (m'.isSettled side = false → m'.left < m.left) := by
  cases hend : first.isSettled side with
  | true =>
    refine ⟨first, k, by rw [hstretch, hend]; rfl, hfirst, fun hopen => ?_⟩
    rw [hend] at hopen
    cases hopen
  | false => exact ⟨second, k, by rw [hstretch, hend]; rfl, hsecond, fun _ => hleft⟩

/-- **A stretch of the earlier run**, and the next element of the later one. -/
theorem exists_stretchEarlier (h : m.Sound key side all) (hless : GoesBy less key P) (hall : ∀ x ∈ all, P x)
    (hopen : m.isSettled side = false) :
    ∃ m' k, m.stretchEarlier less side = .ok (m', k) ∧ m'.Sound key side all ∧
      (m'.isSettled side = false → m'.left < m.left) := by
  obtain ⟨-, y, ys, hy⟩ := exists_cons_of_not_settled hopen
  obtain ⟨hearlier, hlater⟩ := h.ascending
  obtain ⟨hmemx, hmemy⟩ := h.mem
  have htest : ∀ x ∈ m.earlier, earlierFirst less side x y = .ok (side.prefers key x y) :=
    fun x hx => earlierFirst_eq hless (hall x (hmemx x hx)) (hall y (hmemy y (by simp [hy])))
  have hmono : m.earlier.Pairwise fun x x' =>
      side.prefers key x' y = true → side.prefers key x y = true :=
    hearlier.imp fun hle hpass => Side.prefers_mono hpass hle le_rfl
  obtain ⟨k, hgallop, -, htake, hdrop⟩ := exists_gallop side htest hmono
  have hyle : ∀ y' ∈ m.later, side.rank key y ≤ side.rank key y' := by
    rw [hy] at hlater ⊢
    exact fun y' => hlater.head_le
  have hfirst := h.takeEarlier k fun x hx y' hy' => Side.prefers_mono (htake x hx) le_rfl (hyle y' hy')
  have hsecond := hfirst.takeLater 1 fun y' hy' x hx => by
    simp only [Merging.takeEarlier, hy] at hy' hx
    rw [List.mem_singleton.mp hy']
    exact hdrop x hx
  have hstretch : m.stretchEarlier less side =
      .ok (if (m.takeEarlier k).isSettled side then m.takeEarlier k else (m.takeEarlier k).takeLater 1, k) := by
    simp only [stretchEarlier, hy, hgallop]
    rfl
  refine stretched hstretch hfirst hsecond ?_
  simp only [left, Merging.takeEarlier, Merging.takeLater, hy, List.length_drop, List.length_cons]
  omega

/-- **A stretch of the later run**, and the next element of the earlier one. -/
theorem exists_stretchLater (h : m.Sound key side all) (hless : GoesBy less key P) (hall : ∀ x ∈ all, P x)
    (hopen : m.isSettled side = false) :
    ∃ m' k, m.stretchLater less side = .ok (m', k) ∧ m'.Sound key side all ∧
      (m'.isSettled side = false → m'.left < m.left) := by
  obtain ⟨⟨x, xs, hx⟩, -⟩ := exists_cons_of_not_settled hopen
  obtain ⟨hearlier, hlater⟩ := h.ascending
  obtain ⟨hmemx, hmemy⟩ := h.mem
  have htest : ∀ y ∈ m.later, laterFirst less side x y = .ok (!side.prefers key x y) :=
    fun y hy => laterFirst_eq hless (hall x (hmemx x (by simp [hx]))) (hall y (hmemy y hy))
  have hmono : m.later.Pairwise fun y y' =>
      (!side.prefers key x y') = true → (!side.prefers key x y) = true := by
    refine hlater.imp fun {y y'} hle hpass => ?_
    rw [Bool.not_eq_true'] at hpass ⊢
    exact Side.prefers_mono' hpass le_rfl hle
  obtain ⟨k, hgallop, -, htake, hdrop⟩ := exists_gallop side htest hmono
  have hxle : ∀ x' ∈ m.earlier, side.rank key x ≤ side.rank key x' := by
    rw [hx] at hearlier ⊢
    exact fun x' => hearlier.head_le
  have hfirst : (m.takeLater k).Sound key side all := by
    refine h.takeLater k fun y hy x' hx' => ?_
    have hnot := htake y hy
    rw [Bool.not_eq_true'] at hnot
    exact Side.prefers_mono' hnot (hxle x' hx') le_rfl
  have hsecond := hfirst.takeEarlier 1 fun x' hx' y hy => by
    simp only [Merging.takeLater, hx] at hx' hy
    rw [List.mem_singleton.mp hx']
    simpa using hdrop y hy
  have hstretch : m.stretchLater less side =
      .ok (if (m.takeLater k).isSettled side then m.takeLater k else (m.takeLater k).takeEarlier 1, k) := by
    simp only [stretchLater, hx, hgallop]
    rfl
  refine stretched hstretch hfirst hsecond ?_
  simp only [left, Merging.takeEarlier, Merging.takeLater, hx, List.length_drop, List.length_cons]
  omega

/-! ### Whole merges -/

/-- **A merge is settled** after as many rounds as there are elements. -/
theorem exists_settle (h : m.Sound key side all) (hless : GoesBy less key P) (hall : ∀ x ∈ all, P x)
    {rounds : ℕ} (hrounds : m.left ≤ rounds) (pace : Pace) :
    ∃ m', settle less side rounds pace m = .ok m' ∧ m'.Sound key side all ∧ m'.isSettled side = true := by
  induction rounds generalizing m pace with
  | zero =>
    refine ⟨m, rfl, h, ?_⟩
    by_contra hopen
    obtain ⟨⟨x, xs, hx⟩, -⟩ := exists_cons_of_not_settled (Bool.not_eq_true _ ▸ hopen)
    simp [left, hx] at hrounds
  | succ rounds ih =>
    cases hend : m.isSettled side with
    | true => exact ⟨m, by rw [settle.eq_def]; simp only [hend, if_true], h, hend⟩
    | false =>
      cases pace with
      | single i j =>
        obtain ⟨m', isEarlier, hnext, hsound, hleft⟩ := h.exists_takeNext hless hall hend
        simp only [settle, hend, Bool.false_eq_true, if_false, hnext, bind, Except.bind]
        exact ih hsound (by omega) _
      | stretches =>
        obtain ⟨m₁, k, hstretch, hsound, hleft⟩ := h.exists_stretchEarlier hless hall hend
        simp only [settle, hend, Bool.false_eq_true, if_false, hstretch, bind, Except.bind]
        cases hend₁ : m₁.isSettled side with
        | true => exact ⟨m₁, rfl, hsound, hend₁⟩
        | false =>
          obtain ⟨m₂, l, hstretch', hsound', hleft'⟩ := hsound.exists_stretchLater hless hall hend₁
          simp only [hstretch', Bool.false_eq_true, if_false]
          have hless₁ := hleft hend₁
          cases hend₂ : m₂.isSettled side with
          | true => exact ⟨m₂, rfl, hsound', hend₂⟩
          | false =>
            have hless₂ := hleft' hend₂
            simp only [Bool.false_eq_true, if_false]
            split_ifs
            · exact ih (m := { m₂ with patience := max 1 (m₂.patience - 1) }) hsound'
                (by simp only [left] at *; omega) _
            · exact ih (m := { m₂ with patience := m₂.patience + 1 }) hsound'
                (by simp only [left] at *; omega) _

end Sound

end Merging

/-! ### Two runs -/

section Runs

variable {less : α → α → Except Error Bool} {P : α → Prop} {earlier later : List α}

/-- The elements of a merge that is settled are in order, and none is lost. -/
private theorem Merging.Sound.settled {side : Side} {all : List α} {m : Merging α}
    (h : m.Sound key side all) (hend : m.isSettled side = true) :
    Ascending (side.rank key) (m.merged.reverse ++ m.longer side ++ m.shorter side) ∧
      Alike (side.rank key) (m.merged.reverse ++ m.longer side ++ m.shorter side) all := by
  rw [Merging.isSettled, Bool.or_eq_true, List.isEmpty_iff, List.isEmpty_iff] at hend
  exact Halfway.settled h hend

private theorem mem_head?_of_mem_take_one {xs : List α} {x : α} (h : x ∈ xs.take 1) : x ∈ xs.head? := by
  cases xs with
  | nil => cases h
  | cons y xs => exact congrArg some (List.mem_singleton.mp h).symm

/-- A merge from the front starts with the first element of the later run. -/
private theorem exists_mergeFrom_front (hless : GoesBy less key P) (hall : ∀ x ∈ earlier ++ later, P x)
    (hearlier : Ascending key earlier) (hlater : Ascending key later)
    (hhead : ∀ y ∈ later.head?, ∀ x ∈ earlier, key y < key x)
    (hlast : ∀ x ∈ earlier.getLast?, ∀ y ∈ later, key y < key x) (patience : ℕ) :
    ∃ xs patience', mergeFrom less .front patience earlier later = .ok (xs, patience') ∧
      Ascending key xs ∧ Alike key xs (earlier ++ later) := by
  have hwhole : (Merging.mk [] earlier later patience).Sound key .front (earlier ++ later) :=
    ⟨.refl _, hearlier, hlater, hlast⟩
  have hstart := hwhole.takeLater 1 fun y hy x hx => by
    simpa [Side.prefers] using hhead y (mem_head?_of_mem_take_one hy) x hx
  have hrounds : ((Merging.mk [] earlier later patience).takeLater 1).left ≤
      earlier.length + later.length := by
    simp only [Merging.left, Merging.takeLater, List.length_drop]
    omega
  obtain ⟨m, hsettle, hsound, hend⟩ := hstart.exists_settle hless hall hrounds (.single 0 0)
  obtain ⟨hascending, halike⟩ := hsound.settled hend
  exact ⟨_, _, by simp only [mergeFrom, hsettle]; rfl, hascending, halike⟩

/-- A merge from the back is one of the runs turned around, and starts with the last element of the earlier
run. -/
private theorem exists_mergeFrom_back (hless : GoesBy less key P) (hall : ∀ x ∈ earlier ++ later, P x)
    (hearlier : Ascending key earlier) (hlater : Ascending key later)
    (hhead : ∀ y ∈ later.head?, ∀ x ∈ earlier, key y < key x)
    (hlast : ∀ x ∈ earlier.getLast?, ∀ y ∈ later, key y < key x) (patience : ℕ) :
    ∃ xs patience', mergeFrom less .back patience earlier later = .ok (xs, patience') ∧
      Ascending key xs ∧ Alike key xs (earlier ++ later) := by
  have hwhole : (Merging.mk [] earlier.reverse later.reverse patience).Sound key .back
      (later.reverse ++ earlier.reverse) := by
    refine ⟨.refl _, hlater.reverse, hearlier.reverse, fun y hy x hx => ?_⟩
    have hlt := hhead y (by simpa [Merging.shorter] using hy) x (by simpa [Merging.longer] using hx)
    exact Int.neg_lt_neg hlt
  have hstart := hwhole.takeEarlier 1 fun x hx y hy => by
    have hmem : x ∈ earlier.getLast? := by
      rw [← List.head?_reverse]
      exact mem_head?_of_mem_take_one hx
    simpa [Side.prefers] using hlast x hmem y (by simpa using hy)
  have hrounds : ((Merging.mk [] earlier.reverse later.reverse patience).takeEarlier 1).left ≤
      earlier.length + later.length := by
    simp only [Merging.left, Merging.takeEarlier, List.length_drop, List.length_reverse]
    omega
  have hall' : ∀ x ∈ later.reverse ++ earlier.reverse, P x := by
    intro x hx
    refine hall x ?_
    rw [← List.reverse_append] at hx
    exact List.mem_reverse.mp hx
  obtain ⟨m, hsettle, hsound, hend⟩ := hstart.exists_settle hless hall' hrounds (.single 0 0)
  obtain ⟨hascending, halike⟩ := hsound.settled hend
  refine ⟨_, _, by simp only [mergeFrom, hsettle]; rfl, ?_, ?_⟩
  · have hback := hascending.reverse
    simp only [Side.rank, Int.neg_neg] at hback
    exact hback
  · have hback := halike.neg.reverse
    simp only [Side.rank, Int.neg_neg, List.reverse_append, List.reverse_reverse] at hback
    simpa [Merging.toList] using hback

/-- **Two runs become one**, from either side, if nothing at their ends is in place. -/
theorem exists_mergeFrom (hless : GoesBy less key P) (hall : ∀ x ∈ earlier ++ later, P x)
    (hearlier : Ascending key earlier) (hlater : Ascending key later)
    (hhead : ∀ y ∈ later.head?, ∀ x ∈ earlier, key y < key x)
    (hlast : ∀ x ∈ earlier.getLast?, ∀ y ∈ later, key y < key x) (side : Side) (patience : ℕ) :
    ∃ xs patience', mergeFrom less side patience earlier later = .ok (xs, patience') ∧
      Ascending key xs ∧ Alike key xs (earlier ++ later) := by
  cases side with
  | front => exact exists_mergeFrom_front hless hall hearlier hlater hhead hlast patience
  | back => exact exists_mergeFrom_back hless hall hearlier hlater hhead hlast patience

/-- What is merged in the middle of two runs is in order between what stays at their ends. -/
private theorem ascending_framed {low high middle : List α} (hearlier : Ascending key (low ++ earlier))
    (hlater : Ascending key (later ++ high)) (hmiddle : Ascending key middle)
    (halike : Alike key middle (earlier ++ later)) (hlow : ∀ x ∈ low, ∀ y ∈ later ++ high, key x ≤ key y)
    (hhigh : ∀ x ∈ earlier, ∀ y ∈ high, key x ≤ key y) :
    Ascending key (low ++ middle ++ high) ∧
      Alike key (low ++ middle ++ high) (low ++ earlier ++ (later ++ high)) := by
  obtain ⟨hlows, -, hlow'⟩ := List.pairwise_append.mp hearlier
  obtain ⟨-, hhighs, hhigh'⟩ := List.pairwise_append.mp hlater
  have hmem : ∀ z ∈ middle, z ∈ earlier ∨ z ∈ later := fun z hz => List.mem_append.mp (halike.mem_iff.mp hz)
  constructor
  · refine List.pairwise_append.mpr ⟨List.pairwise_append.mpr ⟨hlows, hmiddle, ?_⟩, hhighs, ?_⟩
    · intro x hx z hz
      rcases hmem z hz with hz | hz
      · exact hlow' x hx z hz
      · exact hlow x hx z (List.mem_append_left _ hz)
    · intro z hz y hy
      rcases List.mem_append.mp hz with hz | hz
      · exact hlow z hz y (List.mem_append_right _ hy)
      · rcases hmem z hz with hz | hz
        · exact hhigh z hz y hy
        · exact hhigh' z hz y hy
  · have hall := (halike.append_left low).append_right high
    simpa only [List.append_assoc] using hall

/-- The first elements of the earlier run that are in place. -/
private theorem exists_low (hless : GoesBy less key P) (hall : ∀ x ∈ earlier, P x)
    (hearlier : Ascending key earlier) {y : α} (hy : P y) :
    ∃ k, gallop (fun x => Merging.earlierFirst less .front x y) .front earlier = .ok k ∧
      (∀ x ∈ earlier.take k, key x ≤ key y) ∧ ∀ x ∈ earlier.drop k, key y < key x := by
  have hmono : earlier.Pairwise fun x x' =>
      Side.front.prefers key x' y = true → Side.front.prefers key x y = true := by
    refine hearlier.imp fun {x x'} hle hpass => ?_
    simp only [Side.prefers, Bool.not_eq_true', decide_eq_false_iff_not] at hpass ⊢
    omega
  obtain ⟨k, hgallop, -, htake, hdrop⟩ := exists_gallop .front
    (fun x hx => Merging.earlierFirst_eq hless (hall x hx) hy) hmono
  refine ⟨k, hgallop, fun x hx => ?_, fun x hx => ?_⟩
  · simpa [Side.prefers] using htake x hx
  · simpa [Side.prefers] using hdrop x hx

/-- The last elements of the later run that are in place. -/
private theorem exists_high (hless : GoesBy less key P) (hall : ∀ y ∈ later, P y)
    (hlater : Ascending key later) {x : α} (hx : P x) :
    ∃ l, gallop (fun y => Merging.laterFirst less .back x y) .back later.reverse = .ok l ∧
      (∀ y ∈ later.take (later.length - l), key y < key x) ∧
        ∀ y ∈ later.drop (later.length - l), key x ≤ key y := by
  have hmono : later.reverse.Pairwise fun y y' =>
      (!Side.back.prefers key x y') = true → (!Side.back.prefers key x y) = true := by
    refine List.pairwise_reverse.mpr (hlater.imp fun {y y'} hle hpass => ?_)
    simp only [Side.prefers, Bool.not_eq_true', decide_eq_false_iff_not] at hpass ⊢
    omega
  obtain ⟨l, hgallop, -, htake, hdrop⟩ := exists_gallop .back
    (fun y hy => Merging.laterFirst_eq hless hx (hall y (List.mem_reverse.mp hy))) hmono
  refine ⟨l, hgallop, fun y hy => ?_, fun y hy => ?_⟩
  · have hgoes := hdrop y (by rwa [List.drop_reverse, List.mem_reverse])
    simpa [Side.prefers] using hgoes
  · have hgoes := htake y (by rwa [List.take_reverse, List.mem_reverse])
    simpa [Side.prefers] using hgoes

/-- **Two neighbouring runs become one.** -/
theorem exists_mergeRuns (hless : GoesBy less key P) (hall : ∀ x ∈ earlier ++ later, P x)
    (hearlier : Ascending key earlier) (hlater : Ascending key later) (patience : ℕ) :
    ∃ xs patience', mergeRuns less patience earlier later = .ok (xs, patience') ∧
      Ascending key xs ∧ Alike key xs (earlier ++ later) := by
  obtain ⟨hall₁, hall₂⟩ := List.forall_mem_append.mp hall
  cases hlist : later with
  | nil => exact ⟨earlier, patience, rfl, hearlier, by simpa using Alike.refl earlier⟩
  | cons y ys =>
    have hleast : ∀ y' ∈ later, key y ≤ key y' := by
      rw [hlist] at hlater ⊢
      exact fun y' => hlater.head_le
    obtain ⟨k, hgallop, htake, hdrop⟩ := exists_low hless hall₁ hearlier (hall₂ y (by simp [hlist]))
    have hparts : earlier.take k ++ earlier.drop k = earlier := List.take_append_drop k earlier
    simp only [mergeRuns, hgallop, bind, Except.bind]
    rw [← hlist]
    cases hlast : (earlier.drop k).getLast? with
    | none =>
      have hwhole : earlier.take k = earlier := by
        rw [List.getLast?_eq_none_iff.mp hlast, List.append_nil] at hparts
        exact hparts
      refine ⟨_, _, rfl, List.pairwise_append.mpr ⟨hearlier, hlater, fun x hx y' hy' => ?_⟩, .refl _⟩
      exact (htake x (by rwa [hwhole])).trans (hleast y' hy')
    | some x =>
      obtain ⟨l, hgallop', hbelow, habove⟩ := exists_high hless hall₂ hlater
        (hall₁ x (List.mem_of_mem_drop (List.mem_of_getLast? hlast)))
      simp only [hgallop']
      set stay := later.length - l
      have hparts' : later.take stay ++ later.drop stay = later := List.take_append_drop stay later
      have hrest : Ascending key (earlier.drop k) := hearlier.sublist (List.drop_sublist k earlier)
      have hhead : ∀ y' ∈ (later.take stay).head?, ∀ z ∈ earlier.drop k, key y' < key z := by
        intro y' hy' z hz
        rw [hlist, List.head?_take] at hy'
        split_ifs at hy'
        · cases hy'
        · exact Option.some.inj hy' ▸ hdrop z hz
      obtain ⟨middle, patience', hmerge, hmiddle, halike⟩ := exists_mergeFrom hless
        (List.forall_mem_append.mpr
          ⟨fun z hz => hall₁ z (List.mem_of_mem_drop hz), fun z hz => hall₂ z (List.mem_of_mem_take hz)⟩)
        hrest (hlater.sublist (List.take_sublist stay later)) hhead
        (fun z hz y' hy' => Option.some.inj (hlast.symm.trans hz) ▸ hbelow y' hy')
        (if earlier.length - k ≤ stay then .front else .back) patience
      obtain ⟨hascending, halike'⟩ := ascending_framed (hparts.symm ▸ hearlier) (hparts'.symm ▸ hlater)
        hmiddle halike (fun z hz y' hy' => (htake z hz).trans (hleast y' (hparts' ▸ hy')))
        (fun z hz y' hy' => (hrest.le_getLast hlast hz).trans (habove y' hy'))
      rw [hparts, hparts'] at halike'
      exact ⟨_, patience', by rw [hmerge]; rfl, hascending, halike'⟩

end Runs

end HeavyHitters
