import HeavyHitters.Proofs.Sketch.Copies
import HeavyHitters.Proofs.Sketch.Frequent
import Mathlib.Data.Set.Card
import Mathlib.Order.Bounds.Basic

/-!
# Exactness

As long as a sketch has room at its greatest length for a counter of each item that was counted, it is
exact. It has not been purged, so its counters are the true counts, and its table has grown only as far
as they made it grow, which is to the least length that has room for them. It does not matter in which
order the items came, or that they were counted in several sketches first, if these were exact when they
were folded in. The sketches that are meant are `Fed`: made new, updated, and with others folded in.

## What is proved

* `Genuine.finite_items`: only finitely many items are counted.
* `Exact.run`, `Fed.exact`: a run keeps a sketch exact, and so does everything that a sketch is fed.
* `Exact.isLeast_length`: the table of an exact sketch has the least length that has room.
* `exact_while_few`: what a sketch answers while it has few items.
-/

namespace HeavyHitters

/-! ### The items of a history -/

namespace History

/-- The items that were counted at least once. -/
def items (h : History) : Set ℤ := {x | 0 < h.count x}

theorem mem_items_iff {h : History} {x : ℤ} : x ∈ h.items ↔ 0 < h.count x := Iff.rfl

theorem items_congr {h h' : History} (hcounts : ∀ x, h'.count x = h.count x) : h'.items = h.items := by
  ext x
  rw [mem_items_iff, mem_items_iff, hcounts]

/-- An item that was counted in the end either was so before, or in the run. -/
theorem items_tallied_subset (h : History) (es : Entries) :
    (h.tallied es).items ⊆ h.items ∪ es.keys.toFinset := by
  intro x hx
  by_cases hmem : x ∈ es.keys
  · exact .inr (List.mem_toFinset.mpr hmem)
  · rw [mem_items_iff, count_tallied, Entries.tally_of_not_mem hmem, add_zero] at hx
    exact .inl hx

theorem finite_items_tallied {h : History} (hfinite : h.items.Finite) (es : Entries) :
    (h.tallied es).items.Finite :=
  (hfinite.union es.keys.toFinset.finite_toSet).subset (h.items_tallied_subset es)

theorem finite_items_merge {h h' : History} (hfinite : h.items.Finite) (hfinite' : h'.items.Finite)
    (lgMax : ℕ) : (h.merge lgMax h').items.Finite := by
  refine (hfinite.union hfinite').subset ?_
  intro x hx
  have hsum : 0 < h.count x + h'.count x := hx
  by_cases hpos : 0 < h.count x
  · exact .inl hpos
  · exact .inr (mem_items_iff.mpr (by omega))

theorem finite_items_none : none.items.Finite := by
  have hnone : none.items = ∅ := Set.eq_empty_of_forall_notMem fun _ hx =>
    lt_irrefl (0 : ℤ) (mem_items_iff.mp hx)
  rw [hnone]
  exact Set.finite_empty

end History

namespace Sketch

variable {lgMax lgStart : ℕ} {s t other : Sketch} {hist hist' : History} {items : Finset ℤ}
  {events : List Event}

/-- **Only finitely many items are counted** in a genuine sketch. -/
theorem Genuine.finite_items (h : Genuine s hist) : hist.items.Finite := by
  induction h with
  | ofSize => exact History.finite_items_none
  | ofLog2 => exact History.finite_items_none
  | update _ item count _ _ ih =>
    rw [History.update_eq]
    exact History.finite_items_tallied ih _
  | extend _ items _ _ ih =>
    rw [History.extend_eq]
    exact History.finite_items_tallied ih _
  | merge _ _ _ _ ih ih' => exact History.finite_items_merge ih ih' _
  | reset => exact History.finite_items_none
  | viaRecord _ _ _ _ ih => exact ih
  | viaBytes _ _ _ _ ih => exact ih
  | viaLine _ _ _ _ ih => exact ih

/-! ### Feeding a sketch -/

/-- A new sketch of the greatest length `2 ^ lgMax` that starts with `2 ^ lgStart` slots. -/
inductive Created (lgMax lgStart : ℕ) : Sketch → Prop
  /-- It is made of a greatest length, and starts with the least. -/
  | ofSize {seed : Scalar} {s : Sketch} (hstart : lgStart = lgMinLength)
      (h : ofSize (.int (powerOfTwo lgMax : ℕ)) seed = .ok s) : Created lgMax lgStart s
  /-- It is made of the logarithms of both lengths. -/
  | ofLog2 {seed : Scalar} {s : Sketch} (hstart : lgMinLength ≤ lgStart)
      (h : ofLog2 (.int lgMax) (.int lgStart) seed = .ok s) : Created lgMax lgStart s

/-- What becomes of a new sketch by successful updates and merges, with its history. The sketches that
are folded in are genuine, and were exact at that time. Every call draws from a source of its own. -/
inductive Fed (lgMax lgStart : ℕ) : Sketch → History → Prop
  /-- The new sketch. -/
  | new {s : Sketch} (h : Created lgMax lgStart s) : Fed lgMax lgStart s .none
  /-- An item is counted. -/
  | update {s : Sketch} {hist : History} (src : DrawSource) (item count : ℤ) (hs : Fed lgMax lgStart s hist)
      (hok : (s.update src (.int item) (.int count)).failure = none) :
      Fed lgMax lgStart (s.update src (.int item) (.int count)).state (hist.update item count)
  /-- Items are counted once each. -/
  | extend {s : Sketch} {hist : History} (src : DrawSource) (items : List ℤ) (hs : Fed lgMax lgStart s hist)
      (hok : (s.extend src (items.map .int)).failure = none) :
      Fed lgMax lgStart (s.extend src (items.map .int)).state (hist.extend items)
  /-- A sketch without error is folded in. -/
  | merge {s other : Sketch} {hist hist' : History} (src : DrawSource) (hs : Fed lgMax lgStart s hist)
      (hother : Genuine other hist') (herror : other.maximumError = 0)
      (hok : (s.merge src other).failure = none) :
      Fed lgMax lgStart (s.merge src other).state (hist.merge other.lgMax hist')

theorem Fed.genuine (h : Fed lgMax lgStart s hist) : Genuine s hist := by
  induction h with
  | new h =>
    cases h with
    | ofSize _ h => exact .ofSize h
    | ofLog2 _ h => exact .ofLog2 h
  | update src item count _ hok ih => exact .update src item count ih hok
  | extend src items _ hok ih => exact .extend src items ih hok
  | merge src _ hother _ hok ih => exact .merge src ih hother hok

/-! ### Exact sketches -/

/-- Nothing was lost since the sketch was new. -/
structure Exact (lgMax lgStart : ℕ) (s : Sketch) : Prop where
  /-- It has the greatest length that it was made with. -/
  lgMax_eq : s.lgMax = lgMax
  /-- Nothing was subtracted. -/
  offset_eq : s.offset = 0
  /-- The table has grown from the starting length no further than it had to. -/
  snug : Snug lgStart s

theorem Created.exact (h : Created lgMax lgStart s) : Exact lgMax lgStart s := by
  have hlengths : s.Fresh ∧ s.lgMax = lgMax ∧ s.table.lgLength = lgStart := by
    cases h with
    | ofSize hstart h =>
      obtain ⟨hfresh, hlength⟩ := ofSize_fresh h
      obtain ⟨lg, -, h⟩ := bind_eq_ok.mp h
      rw [Scalar.int.injEq, Int.ofNat_inj] at hlength
      refine ⟨hfresh, ?_, hstart ▸ lgLength_of_ofLog2 le_rfl h⟩
      rw [← log2_powerOfTwo s.lgMax, ← hlength, log2_powerOfTwo]
    | ofLog2 hstart h =>
      obtain ⟨hfresh, m, hm, hlgMax⟩ := ofLog2_fresh h
      cases hm
      exact ⟨hfresh, hlgMax, lgLength_of_ofLog2 hstart h⟩
  obtain ⟨hfresh, hlgMax, rfl⟩ := hlengths
  exact ⟨hlgMax, hfresh.offset_eq, .self s⟩

/-- Where nothing was subtracted, the counters are the true counts. -/
theorem Accounted.count_eq (h : Accounted s hist) (hoffset : s.offset = 0) (x : ℤ) :
    s.table.count x = hist.count x := by
  have := h.lower x
  have := h.upper x
  omega

/-- An item that was counted before a run still is. -/
private theorem Run.tallied_pos {es : Entries} {x : ℤ} (hr : Run s es t events) (hx : 0 < hist.count x) :
    0 < (hist.tallied es).count x :=
  add_pos_of_pos_of_nonneg hx (hr.tally_nonneg x)

/-- **A run keeps a sketch exact** if there are few enough items in the end. -/
theorem Exact.run {es : Entries} (h : Exact lgMax lgStart s) (haccounted : Accounted s hist)
    (run : Run s es t events) (hitems : ∀ x, 0 < (hist.tallied es).count x → x ∈ items)
    (hfew : items.card ≤ loadLimit (powerOfTwo lgMax)) : Exact lgMax lgStart t := by
  have hcounted : ∀ x, 0 < s.table.count x + es.tally x → x ∈ items := by
    intro x hx
    rw [haccounted.count_eq h.offset_eq] at hx
    exact hitems x hx
  have hroom : items.card ≤ s.maxCapacity := by
    rwa [maxCapacity, h.lgMax_eq]
  have hlossless := run.lossless haccounted.sound hcounted hroom
  have hlgMax := (run.drift haccounted.sound).lgMax_eq
  exact ⟨hlgMax.trans h.lgMax_eq, hlossless.offset_eq.trans h.offset_eq, hlossless.snug lgStart h.snug⟩

/-- **All that a sketch is fed keeps it exact** if there are few enough items in the end. -/
theorem Fed.exact (h : Fed lgMax lgStart s hist) (hitems : ∀ x, 0 < hist.count x → x ∈ items)
    (hfew : items.card ≤ loadLimit (powerOfTwo lgMax)) : Exact lgMax lgStart s := by
  induction h with
  | new h => exact h.exact
  | update src item count hs hok ih =>
    have haccounted := hs.genuine.accounted
    obtain ⟨t, events, heq, run⟩ := exists_run_of_update haccounted.sound hok
    rw [History.update_eq] at hitems
    rw [heq]
    exact (ih fun x hx => hitems x (run.tallied_pos hx)).run haccounted run hitems hfew
  | extend src xs hs hok ih =>
    have haccounted := hs.genuine.accounted
    obtain ⟨t, events, heq, run⟩ := exists_run_of_extend haccounted.sound hok
    rw [History.extend_eq] at hitems
    rw [heq]
    exact (ih fun x hx => hitems x (run.tallied_pos hx)).run haccounted run hitems hfew
  | @merge s other hist hist' src hs hother herror hok ih =>
    have haccounted := hs.genuine.accounted
    -- the counters of the other sketch are what was counted in it
    have hcount := hother.accounted.count_eq herror
    have hbefore : ∀ x, 0 < hist.count x → x ∈ items := by
      intro x hx
      have hnonneg := hother.accounted.sound.count_nonneg x
      rw [hcount] at hnonneg
      exact hitems x (add_pos_of_pos_of_nonneg hx hnonneg)
    rcases merge_cases haccounted.sound hok with ⟨-, heq⟩ | ⟨-, -, u, events, run, heq⟩
    · rw [heq]
      exact ih hbefore
    · have hafter : ∀ x, 0 < (hist.tallied other.counters).count x → x ∈ items := by
        intro x hx
        rw [History.count_tallied, hother.accounted.sound.tally_eq, hcount] at hx
        exact hitems x hx
      have hexact := (ih hbefore).run haccounted run hafter hfew
      have hoffset : u.offset + other.offset = 0 := by
        rw [hexact.offset_eq, zero_add]
        exact herror
      rw [heq]
      exact ⟨hexact.lgMax_eq, hoffset, hexact.snug.le_lgLength, hexact.snug.overfull⟩

/-! ### What an exact sketch answers -/

/-- Where nothing was subtracted, every item that was counted has a counter. -/
theorem Accounted.ncard_items (h : Accounted s hist) (hoffset : s.offset = 0) :
    hist.items.ncard = s.active := by
  have hitems : hist.items = s.counters.keys.toFinset := by
    ext x
    rw [Finset.mem_coe, List.mem_toFinset, h.sound.mem_keys_iff, h.count_eq hoffset]
    rfl
  calc hist.items.ncard = s.counters.keys.toFinset.card := by rw [hitems, Set.ncard_coe_finset]
    _ = s.counters.keys.length := List.toFinset_card_of_nodup h.sound.holds.distinct
    _ = s.counters.length := List.length_map _
    _ = s.active := h.sound.holds.active_eq.symm

/-- **The table of an exact sketch has the least length that has room** for the items that were
counted. -/
theorem Exact.isLeast_length (h : Exact lgMax lgStart s) (haccounted : Accounted s hist) :
    IsLeast {n | ∃ lg, lgStart ≤ lg ∧ n = powerOfTwo lg ∧ 4 * hist.items.ncard ≤ 3 * n} s.table.length := by
  rw [haccounted.ncard_items h.offset_eq, Table.length_eq]
  constructor
  · have hactive := haccounted.sound.active_le
    rw [haccounted.sound.capacity_eq_loadLimit, loadLimit] at hactive
    exact ⟨s.table.lgLength, h.snug.le_lgLength, rfl, by omega⟩
  · rintro n ⟨lg, hstart, rfl, hroom⟩
    apply powerOfTwo_mono
    by_contra hle
    have hover := h.snug.overfull lg hstart (not_le.mp hle)
    rw [loadLimit] at hover
    omega

/-- Sketches with the same counters and the same offset list the same frequent items. -/
theorem frequent_perm (hoffset : t.offset = s.offset) (hperm : t.counters.Perm s.counters) (g : Guarantee)
    (threshold : Option ℤ) : (t.frequent g threshold).Perm (s.frequent g threshold) := by
  have hrow : (fun e : ℤ × ℤ => t.row e.1 e.2) = fun e => s.row e.1 e.2 := by
    funext e
    rw [row, row, hoffset]
  have hrows : t.rows.Perm s.rows := by
    rw [rows, hrow]
    exact hperm.map _
  rw [frequent, frequent, maximumError, hoffset]
  exact (Row.descending_perm _).trans ((hrows.filter _).trans (Row.descending_perm _).symm)

private theorem Fed.exact_of_few (h : Fed lgMax lgStart s hist)
    (hfew : 4 * hist.items.ncard ≤ 3 * powerOfTwo lgMax) : Exact lgMax lgStart s := by
  have hfinite := h.genuine.finite_items
  refine h.exact (fun x hx => hfinite.mem_toFinset.mpr hx) ?_
  rw [← Set.ncard_eq_toFinset_card _ hfinite, loadLimit]
  omega

/-- Two exact sketches in which the same was counted cannot be told apart. -/
private theorem Exact.sameAnswers (h : Exact lgMax lgStart s) (h' : Exact lgMax lgStart t)
    (haccounted : Accounted s hist) (haccounted' : Accounted t hist')
    (hcounts : ∀ x, hist'.count x = hist.count x) :
    SameAnswers s t ∧ t.table.length = s.table.length ∧ t.counters.Perm s.counters := by
  have hcount : ∀ x, t.table.count x = s.table.count x := by
    intro x
    rw [haccounted'.count_eq h'.offset_eq, haccounted.count_eq h.offset_eq, hcounts]
  have hperm := haccounted'.sound.counters_perm haccounted.sound.toShaped hcount
  have hlength : t.table.length = s.table.length := by
    have hleast := h'.isLeast_length haccounted'
    rw [History.items_congr hcounts] at hleast
    exact hleast.unique (h.isLeast_length haccounted)
  have hstreamLength : t.streamLength = s.streamLength := by
    rw [← haccounted'.kept h'.offset_eq, ← haccounted.kept h.offset_eq]
    exact Entries.total_perm hperm
  have hcapacity : t.capacity = s.capacity := by
    rw [haccounted'.sound.capacity_eq, haccounted.sound.capacity_eq, Table.capacity, Table.capacity, hlength]
  exact ⟨.of_counts haccounted.sound.toShaped haccounted'.sound.toShaped hcount
    (h'.offset_eq.trans h.offset_eq.symm) hstreamLength (haccounted'.truths_eq.trans haccounted.truths_eq.symm)
    (h'.lgMax_eq.trans h.lgMax_eq.symm) fun _ => hcapacity, hlength, hperm⟩

/-- **A sketch is exact while it has few items**: as long as three quarters of its greatest length are
enough for them. Then it has no error, and answers the true count of every item; it exports each item
that was counted once, with its true count; and the length of its table is the least power of two, from
the starting length on, three quarters of which are enough. So the answers depend on the true counts
alone: any other such sketch gives the same, in whatever order and in however many parts it was fed. -/
theorem exact_while_few (h : Fed lgMax lgStart s hist)
    (hfew : 4 * hist.items.ncard ≤ 3 * powerOfTwo lgMax) :
    hist.items.Finite ∧ s.maximumError = 0 ∧
      (∀ x, IsWord x → s.estimate (.int x) = .ok (hist.count x) ∧
        s.lowerBound (.int x) = .ok (hist.count x) ∧ s.upperBound (.int x) = .ok (hist.count x)) ∧
      (s.toSnapshot.entries.map Prod.fst).Nodup ∧
      (∀ x n, (x, n) ∈ s.toSnapshot.entries ↔ 0 < hist.count x ∧ n = hist.count x) ∧
      IsLeast {n | ∃ lg, lgStart ≤ lg ∧ n = powerOfTwo lg ∧ 4 * hist.items.ncard ≤ 3 * n} s.table.length ∧
      ∀ s' hist', Fed lgMax lgStart s' hist' → (∀ x, hist'.count x = hist.count x) →
        SameAnswers s s' ∧ s'.table.length = s.table.length ∧
          s'.toSnapshot.entries.Perm s.toSnapshot.entries ∧
          ∀ g threshold, (s'.frequent g threshold).Perm (s.frequent g threshold) := by
  have haccounted := h.genuine.accounted
  have hexact := h.exact_of_few hfew
  have hcount := haccounted.count_eq hexact.offset_eq
  refine ⟨h.genuine.finite_items, hexact.offset_eq, ?_, haccounted.sound.holds.distinct, ?_,
    hexact.isLeast_length haccounted, ?_⟩
  · intro x hx
    refine ⟨?_, ?_, ?_⟩
    · have hnonneg := haccounted.sound.count_nonneg x
      rw [estimate_eq hx, hexact.offset_eq, ← hcount]
      split_ifs <;> congr 1 <;> omega
    · rw [lowerBound_eq hx, hcount]
    · rw [upperBound_eq hx, hcount, hexact.offset_eq, add_zero]
  · intro x n
    rw [← hcount, haccounted.sound.holds.count_eq]
    refine (Entries.mem_iff_count haccounted.sound.positive haccounted.sound.holds.distinct).trans ?_
    exact ⟨fun ⟨hpos, hn⟩ => ⟨hn ▸ hpos, hn⟩, fun ⟨hpos, hn⟩ => ⟨hn ▸ hpos, hn⟩⟩
  · intro s' hist' h' hcounts
    rw [← History.items_congr hcounts] at hfew
    have hexact' := h'.exact_of_few hfew
    obtain ⟨hsame, hlength, hperm⟩ := hexact.sameAnswers hexact' haccounted h'.genuine.accounted hcounts
    have hoffset : s'.offset = s.offset := hexact'.offset_eq.trans hexact.offset_eq.symm
    exact ⟨hsame, hlength, hperm, frequent_perm hoffset hperm⟩

/-- Part of a stream, in a narrow sketch. -/
def front : Sketch := (narrow.extend leastDraws ([1, 2, 3].map .int)).state

/-- The rest of it, in another one. -/
def rear : Sketch := (narrow.extend leastDraws ([3, 4, 5, 6].map .int)).state

/-- Both parts together. -/
def joined : Sketch := (front.merge leastDraws rear).state

/-- The same stream as a whole, the other way round. -/
def whole : Sketch := (narrow.extend leastDraws ([6, 5, 4, 3, 3, 2, 1].map .int)).state

/-- Six items are just as many as eight slots have room for, in two parts or as a whole. -/
theorem exact_while_few_joined :
    ∃ hist, Fed 3 3 joined hist ∧ hist.items.ncard = 6 ∧ 4 * hist.items.ncard ≤ 3 * powerOfTwo 3 ∧
      hist.count 3 = 2 ∧ joined.maximumError = 0 ∧ joined.estimate (.int 3) = .ok 2 ∧
      joined.table.length = 8 ∧ SameAnswers joined whole := by
  have hnew : Fed 3 3 narrow .none := .new (.ofSize rfl ofSize_eq_narrow)
  have hrear : Genuine rear (History.none.extend [3, 4, 5, 6]) :=
    .extend leastDraws [3, 4, 5, 6] (.ofSize ofSize_eq_narrow) (by decide +kernel)
  have hfront : Fed 3 3 front (History.none.extend [1, 2, 3]) :=
    .extend leastDraws [1, 2, 3] hnew (by decide +kernel)
  have hwhole : Fed 3 3 whole (History.none.extend [6, 5, 4, 3, 3, 2, 1]) :=
    .extend leastDraws [6, 5, 4, 3, 3, 2, 1] hnew (by decide +kernel)
  have hjoined := Fed.merge leastDraws hfront hrear (by decide +kernel) (by decide +kernel)
  have hoffset : joined.offset = 0 := by decide +kernel
  have hactive : joined.active = 6 := by decide +kernel
  have hncard := (hjoined.genuine.accounted.ncard_items hoffset).trans hactive
  have hfew : 4 * 6 ≤ 3 * powerOfTwo 3 := by decide
  rw [← hncard] at hfew
  obtain ⟨-, herror, hanswers, -, -, -, hsame⟩ := exact_while_few hjoined hfew
  have hperm : ([6, 5, 4, 3, 3, 2, 1] : List ℤ).Perm ([1, 2, 3] ++ [3, 4, 5, 6]) := by decide
  have hcounts : ∀ x, (History.none.extend [6, 5, 4, 3, 3, 2, 1]).count x =
      ((History.none.extend [1, 2, 3]).merge rear.lgMax (History.none.extend [3, 4, 5, 6])).count x := by
    intro x
    have hcount := hperm.count_eq x
    rw [List.count_append] at hcount
    simp only [History.extend, History.merge, History.none]
    omega
  exact ⟨_, hjoined, hncard, hfew, by decide +kernel, herror, (hanswers 3 (by decide)).1, by decide +kernel,
    (hsame whole _ hwhole hcounts).1⟩

end Sketch

end HeavyHitters
