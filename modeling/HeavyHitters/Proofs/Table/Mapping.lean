import HeavyHitters.Proofs.Median.Sampling
import HeavyHitters.Proofs.Table.Cells
import HeavyHitters.Table.Insert
import HeavyHitters.Table.Purge

/-!
# Tables that count with other amounts

Amounts are added, turned into their opposites, compared and found to be spent, and nothing else is done with
them. So if a function keeps all this (`Amount.Hom`), a table whose amounts have been replaced by their images
goes on as before: whatever it is asked for, it answers the image of what it would have answered, fails where
it would have failed, and becomes the image of what it would have become.

## What is proved

* `Median.approximate_map`: the median of the images is the image of the median, with the same draws.
* `Table.put_map`, `Table.rehash_map`, `Table.purge_map`: the same of the requests to a table.
-/

namespace HeavyHitters

variable {ν μ : Type} [Amount ν] [Amount μ] {f : ν → μ}

/-- A function that keeps what is done with amounts. -/
structure Amount.Hom (f : ν → μ) : Prop where
  /-- Nothing stays nothing, -/
  zero : f Amount.zero = Amount.zero
  /-- sums stay sums, -/
  plus : ∀ a b, Amount.plus (f a) (f b) = (Amount.plus a b).map f
  /-- opposites stay opposites, -/
  opposite : ∀ a, Amount.opposite (f a) = (Amount.opposite a).map f
  /-- the order stays, -/
  isLess : ∀ a b, Amount.isLess (f a) (f b) = Amount.isLess a b
  /-- and the same amounts are spent. -/
  isSpent : ∀ a, Amount.isSpent (f a) = Amount.isSpent a

/-! ### Medians -/

namespace Median

omit [Amount ν] [Amount μ] in
private theorem swapIfInBounds_map (f : ν → μ) (xs : Array ν) (i j : ℕ) :
    (xs.map f).swapIfInBounds i j = (xs.swapIfInBounds i j).map f := by
  simp only [Array.swapIfInBounds, Array.size_map]
  split_ifs
  · simp [Array.swap_def, Array.map_set]
  · rfl
  · rfl

theorem partition_map (hf : Amount.Hom f) (pivot : ν) (xs : Array ν) (lt i n : ℕ) :
    partition (f pivot) (xs.map f) lt i n = Prod.map id (Array.map f) (partition pivot xs lt i n) := by
  induction n generalizing xs lt i with
  | zero => rfl
  | succ n ih =>
    have hv : (xs.map f).getD i (f pivot) = f (xs.getD i pivot) := by
      simp [Array.getD_eq_getD_getElem?]
    simp only [partition, hv, hf.isLess, swapIfInBounds_map, ih]
    cases Amount.isLess (xs.getD i pivot) pivot with
    | error e => rfl
    | ok below =>
      cases below with
      | true => rfl
      | false =>
        cases Amount.isLess pivot (xs.getD i pivot) with
        | error e => rfl
        | ok above => cases above <;> rfl

/-- The image of what a round of the search leads to. -/
def Progress.map (f : ν → μ) : Progress ν → Progress μ
  | .ended found => .ended (found.map f)
  | .within lo hi => .within lo hi

variable (src : DrawSource)

omit [Amount ν] [Amount μ] in
theorem elementAt_map (f : ν → μ) (xs : Array ν) (i : ℕ) :
    elementAt (xs.map f) i = (elementAt xs i).map f := by
  rw [elementAt, elementAt, Array.getElem?_map]
  cases xs[i]? <;> rfl

theorem narrowOnce_map (hf : Amount.Hom f) (low high : ℕ) (xs : Array ν) (lo hi : ℕ) (g : src.State) :
    narrowOnce src low high (xs.map f) lo hi g =
      Prod.map (Progress.map f) (Prod.map (Array.map f) id) (narrowOnce src low high xs lo hi g) := by
  unfold narrowOnce
  rw [elementAt_map]
  split
  · rfl
  · generalize src.draw g (hi - lo) = drawn
    obtain ⟨j, g'⟩ := drawn
    dsimp only
    rw [Array.getElem?_map]
    cases xs[lo + j]? with
    | none => rfl
    | some pivot =>
      simp only [Option.map_some, partition_map hf]
      rcases partition pivot xs lo lo (hi - lo) with ⟨e | ⟨lt, ge⟩, ys⟩
      · rfl
      · simp only [Prod.map, id]
        split_ifs <;> rfl

theorem narrow_map (hf : Amount.Hom f) (low high rounds : ℕ) (xs : Array ν) (lo hi : ℕ) (g : src.State) :
    narrow src low high rounds (xs.map f) lo hi g =
      Prod.map (Except.map f) (Prod.map (Array.map f) id) (narrow src low high rounds xs lo hi g) := by
  induction rounds generalizing xs lo hi g with
  | zero => simp only [narrow, elementAt_map, Prod.map, id]
  | succ rounds ih =>
    rw [narrow, narrow, narrowOnce_map src hf]
    rcases narrowOnce src low high xs lo hi g with ⟨found | ⟨lo', hi'⟩, ys, g'⟩
    · rfl
    · exact ih ys lo' hi' g'

theorem select_map (hf : Amount.Hom f) (values : Array ν) (rank : Scalar) (g : src.State) :
    select src (values.map f) rank g =
      Prod.map (Except.map (Prod.map f (Array.map f))) id (select src values rank g) := by
  unfold select selectInPlace
  rw [Array.size_map]
  cases positionsOf values.size rank with
  | error e => rfl
  | ok positions =>
    obtain ⟨low, high⟩ := positions
    dsimp only
    rw [narrow_map src hf]
    rcases narrow src low high values.size values 0 values.size g with ⟨e | v, ys, g'⟩ <;> rfl

/-- **The median of the images is the image of the median**, with the same draws. -/
theorem approximate_map (hf : Amount.Hom f) (values : List ν) (size : Scalar) (g : src.State) :
    approximate src (values.map f) size g = Prod.map (Except.map f) id (approximate src values size g) := by
  unfold approximate reservoir
  rw [List.length_map]
  cases reservoirSize values.length size with
  | error e => rfl
  | ok places =>
    have hsample := sampleFrom_map src f places values 0 #[] g
    rw [Array.map_empty] at hsample
    simp only [bind, Except.bind, pure, Except.pure, hsample]
    generalize sampleFrom src places values 0 #[] g = sampled
    obtain ⟨sample, g'⟩ := sampled
    dsimp only
    have hempty : (sample.map f).isEmpty = sample.isEmpty := by simp only [Array.isEmpty, Array.size_map]
    rw [hempty, Array.size_map, select_map src hf]
    cases sample.isEmpty with
    | true => rfl
    | false => rcases select src sample (.int (sample.size / 2 : ℕ)) g' with ⟨e | found, g''⟩ <;> rfl

end Median

/-! ### Tables -/

section Structure

omit [Amount ν] [Amount μ]

/-- The cell with the image of its count. -/
def Cell.map (f : ν → μ) (c : Cell ν) : Cell μ := ⟨c.item, f c.count, c.probes⟩

/-- The slot with the image of its count. -/
def Slot.map (f : ν → μ) : Slot ν → Slot μ
  | .taken c => .taken (c.map f)
  | .vacant item count => .vacant item (f count)

/-- The table with the images of its counts. -/
def Table.map (f : ν → μ) (t : Table ν) : Table μ where
  lgLength := t.lgLength
  slots := t.slots.map (Slot.map f)
  size_slots := by rw [Array.size_map, t.size_slots]
  active := t.active

/-- The outcome with the image of its state. -/
def Outcome.map {σ τ : Type} (f : σ → τ) (o : Outcome σ) : Outcome τ := ⟨f o.state, o.events, o.failure⟩

theorem Slot.cell?_map (f : ν → μ) (s : Slot ν) : (s.map f).cell? = s.cell?.map (Cell.map f) := by
  cases s <;> rfl

theorem Slot.hold_map (f : ν → μ) (s : Slot ν) (c : Option (Cell ν)) :
    (s.hold c).map f = (s.map f).hold (c.map (Cell.map f)) := by
  cases c with
  | none => cases s <;> rfl
  | some c => rfl

end Structure

namespace Table

variable {t : Table ν}

section Slots

omit [Amount ν] [Amount μ]

@[simp] theorem length_map (f : ν → μ) (t : Table ν) : (t.map f).length = t.length := Array.size_map

@[simp] theorem active_map (f : ν → μ) (t : Table ν) : (t.map f).active = t.active := rfl

@[simp] theorem lgLength_map (f : ν → μ) (t : Table ν) : (t.map f).lgLength = t.lgLength := rfl

theorem slotAt_map (f : ν → μ) (t : Table ν) (i : ℕ) : (t.map f).slotAt i = (t.slotAt i).map f :=
  (Array.getElem_map (Slot.map f) ((t.map f).mod_length_lt i)).trans (by simp only [slotAt, length_map])

@[simp] theorem cellAt_map (f : ν → μ) (t : Table ν) (i : ℕ) :
    (t.map f).cellAt i = (t.cellAt i).map (Cell.map f) := by
  rw [cellAt, slotAt_map, Slot.cell?_map, cellAt]

theorem setCell_map (f : ν → μ) (t : Table ν) (i : ℕ) (c : Option (Cell ν)) :
    (t.setCell i c).map f = (t.map f).setCell i (c.map (Cell.map f)) := by
  refine eq_of_slotAt_eq (by simp) rfl fun j _ => ?_
  simp only [slotAt_map, slotAt_setCell, length_map]
  split_ifs
  · exact Slot.hold_map f _ c
  · rfl

theorem entries_map (f : ν → μ) (t : Table ν) : (t.map f).entries = t.entries.map (Prod.map id f) := by
  have hcells : (t.map f).cells = t.cells.map (Cell.map f) := by
    simp only [cells_eq_filterMap, length_map, List.map_filterMap, cellAt_map]
  simp only [entries, hcells, List.map_map]
  rfl

theorem counts_map (f : ν → μ) (t : Table ν) : (t.map f).counts = t.counts.map f := by
  simp only [counts_eq, entries_map, List.map_map]
  rfl

@[simp] theorem distance?_map (f : ν → μ) (t : Table ν) (item : ℤ) :
    (t.map f).distance? item = t.distance? item := by
  have hends : ∀ i, (t.map f).endsAt item i = t.endsAt item i := by
    intro i
    rw [endsAt, endsAt, cellAt_map]
    cases t.cellAt i <;> rfl
  simp only [distance?, home, length_map, hends]

@[simp] theorem place_map (f : ν → μ) (t : Table ν) (item : ℤ) : (t.map f).place item = t.place item := by
  rw [place, place, distance?_map]
  cases t.distance? item with
  | none => simp only [length_map, active_map]
  | some d =>
    have hcell : ((t.map f).cellAt ((t.map f).home item + d)).isNone =
        (t.cellAt (t.home item + d)).isNone := by
      rw [cellAt_map, Option.isNone_map, home, length_map, home]
    dsimp only
    rw [hcell, length_map, active_map]

theorem find?_map (f : ν → μ) (t : Table ν) (item : ℤ) :
    (t.map f).find? item = (t.find? item).map (Cell.map f) := by
  rw [find?, find?, distance?_map]
  cases t.distance? item with
  | none => rfl
  | some d => simp only [Option.bind_some, home, length_map, cellAt_map]

theorem contains_map (f : ν → μ) (t : Table ν) (item : ℤ) : (t.map f).contains item = t.contains item := by
  rw [contains, contains, find?_map, Option.isSome_map]

theorem store_map (f : ν → μ) (t : Table ν) (i : ℕ) (c : Cell ν) :
    (t.store i c).map f = (t.map f).store i (c.map f) := by
  have hset := setCell_map f t i (some c)
  simp only [store, cellAt_map, Option.isSome_map]
  split_ifs
  · exact hset
  · rw [← Option.map_some, ← hset]
    rfl

end Slots

/-! ### Requests -/

theorem ofLog2_map (hf : Amount.Hom f) (lg : ℕ) : (ofLog2 lg : Table ν).map f = ofLog2 lg := by
  refine eq_of_slotAt_eq (by simp) rfl fun i _ => ?_
  rw [slotAt_map, slotAt_ofLog2, slotAt_ofLog2, Slot.unused, Slot.map, hf.zero]
  rfl

theorem plan_map (hf : Amount.Hom f) (t : Table ν) (item : ℤ) (count : ν) :
    (t.map f).plan item (f count) = (t.plan item count).map (Prod.map id (Cell.map f)) := by
  rw [plan, plan, place_map]
  cases t.place item with
  | error e => rfl
  | ok d =>
    simp only [bind, Except.bind, cellWith, home, length_map, cellAt_map]
    cases t.cellAt ((mix item).toNat % t.length + d) with
    | none => rfl
    | some c =>
      simp only [Option.map_some, Cell.map, hf.plus]
      cases Amount.plus c.count count <;> rfl

/-- **A put** of the image. -/
theorem put_map (hf : Amount.Hom f) (t : Table ν) (item : ℤ) (count : ν) :
    (t.map f).put item (f count) = (t.put item count).map (Table.map f) := by
  rw [put, put, plan_map hf]
  rcases t.plan item count with e | ⟨i, c⟩
  · rfl
  · exact congrArg Except.ok (store_map f t i c).symm

/-- **A rebuilding** of the image. -/
theorem rehash_map (hf : Amount.Hom f) (t : Table ν) (lg : ℕ) :
    (t.map f).rehash lg = (t.rehash lg).map (Table.map f) := by
  have hfold : ∀ (es : List (ℤ × ν)) (u : Table ν),
      (es.map (Prod.map id f)).foldlM (fun (u : Table μ) e => u.put e.1 e.2) (u.map f) =
        (es.foldlM (fun (u : Table ν) e => u.put e.1 e.2) u).map (Table.map f) := by
    intro es
    induction es with
    | nil => exact fun u => rfl
    | cons e es ih =>
      intro u
      rw [List.map_cons, List.foldlM_cons, List.foldlM_cons, Prod.map_fst, Prod.map_snd, id, put_map hf]
      cases u.put e.1 e.2 with
      | error e => rfl
      | ok w => exact ih w
  rw [rehash, rehash, entries_map, ← ofLog2_map hf, hfold]

section Removal

omit [Amount ν] [Amount μ]

theorem closeGap_map (f : ν → μ) (steps : ℕ) (t : Table ν) (hole d : ℕ) :
    (closeGap steps t hole d).map f = closeGap steps (t.map f) hole d := by
  induction steps generalizing t hole d with
  | zero => rfl
  | succ steps ih =>
    rw [closeGap, closeGap, cellAt_map]
    cases t.cellAt (hole + d) with
    | none => rfl
    | some c =>
      simp only [Option.map_some, Cell.map]
      split_ifs
      · rw [ih, setCell_map, setCell_map]
        rfl
      · exact ih t hole (d + 1)

theorem remove_map (f : ν → μ) (t : Table ν) (i : ℕ) : (t.remove i).map f = (t.map f).remove i := by
  have hset := setCell_map f t i none
  simp only [remove, closeGap_map, length_setCell, length_map, active_setCell, active_map]
  rw [Option.map_none] at hset
  rw [← hset]
  rfl

end Removal

/-- **A sweep** of the image removes the same cells. -/
theorem keepPositive_map (hf : Amount.Hom f) (t : Table ν) :
    t.keepPositive.map f = (t.map f).keepPositive := by
  have hsweep : ∀ (start n : ℕ) (t : Table ν), (sweep start n t).map f = sweep start n (t.map f) := by
    intro start n
    induction n with
    | zero => exact fun t => rfl
    | succ n ih =>
      intro t
      have hremove : (t.removeSpent (start + n)).map f = (t.map f).removeSpent (start + n) := by
        rw [removeSpent, removeSpent, cellAt_map]
        cases t.cellAt (start + n) with
        | none => rfl
        | some c =>
          simp only [Option.map_some, Cell.map, hf.isSpent]
          split_ifs
          · exact remove_map f t _
          · rfl
      rw [sweep, sweep, ih, hremove]
  simp only [keepPositive, hsweep, lastEmpty?, length_map, cellAt_map, Option.isNone_map]

section Adjustment

omit [Amount ν] [Amount μ]

theorem adjustFrom_map {change : ν → Except Error ν} {change' : μ → Except Error μ}
    (h : ∀ a, change' (f a) = (change a).map f) (n i : ℕ) (t : Table ν) :
    adjustFrom change' n i (t.map f) = (adjustFrom change n i t).map (Table.map f) := by
  induction n generalizing i t with
  | zero => rfl
  | succ n ih =>
    rw [adjustFrom, adjustFrom, cellAt_map]
    cases t.cellAt i with
    | none => exact ih (i + 1) t
    | some c =>
      simp only [Option.map_some, Cell.map, h]
      cases change c.count with
      | error e => rfl
      | ok count =>
        simp only [Except.map]
        rw [← ih, setCell_map]
        rfl

end Adjustment

theorem subtract_map (hf : Amount.Hom f) (t : Table ν) (amount : ν) :
    (t.map f).subtract (f amount) = (t.subtract amount).map (Table.map f) := by
  rw [subtract, subtract, hf.opposite]
  cases Amount.opposite amount with
  | error e => rfl
  | ok change =>
    simp only [Except.map, length_map]
    exact adjustFrom_map (fun a => hf.plus a change) t.length 0 t

/-- **A purge** of the image. -/
theorem purge_map (hf : Amount.Hom f) (src : DrawSource) (t : Table ν) (size : Scalar) (g : src.State) :
    (t.map f).purge src size g =
      Prod.map (Except.map f) (Prod.map (Table.map f) id) (t.purge src size g) := by
  unfold purge
  rw [active_map, counts_map]
  split_ifs
  · simp only [Prod.map, id, Except.map, hf.zero]
  · cases sampleBound t.active size with
    | error e => rfl
    | ok bound =>
      simp only [Median.approximate_map src hf]
      rcases Median.approximate src t.counts bound g with ⟨e | median, g'⟩
      · rfl
      · simp only [Prod.map, id, Except.map, subtract_map hf]
        rcases t.subtract median with ⟨u, events, failure⟩
        cases failure with
        | some e => rfl
        | none =>
          simp only [Outcome.map, keepPositive_map hf]

end Table

end HeavyHitters
