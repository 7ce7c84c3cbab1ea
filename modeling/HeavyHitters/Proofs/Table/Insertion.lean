import HeavyHitters.Proofs.Entries
import HeavyHitters.Proofs.Table.Layout
import HeavyHitters.Table.Insert

/-!
# Insertion and growth, seen in the entries

A table `Holds` some entries if it has a layout and these are its entries, in some order. What an
operation does to a table is told by what it does to the entries that the table holds. Here this is
done for the search, for putting a count, and for growing; removal and purges follow in modules of
their own.

## What is proved

* `Holds.count_eq`, `Holds.contains_iff`, `Holds.active_eq`: a table answers what its entries say.
* `Holds.put`, `Holds.put_full`: a count is added to the count of an item, unless the item is new
  and only one slot is empty.
* `Holds.rehash`: a longer table holds the same entries.
-/

namespace HeavyHitters.Table

variable {ν : Type} {t : Table ν}

/-! ### Changes that keep the layout -/

/-- A cell may stay where it is as long as no slot that was occupied is emptied. -/
theorem Placed.mono {u : Table ν} {gap : ℕ → Prop} {i : ℕ} {c : Cell ν} (h : t.Placed gap i c)
    (hl : u.length = t.length)
    (hslots : ∀ j, ¬ gap j → (t.cellAt j).isSome → (u.cellAt j).isSome) : u.Placed gap i c where
  pos := h.pos
  le_length := hl ▸ h.le_length
  home := by
    rw [home_congr hl, hl]
    exact h.home
  path := by
    rw [hl]
    exact fun e he hgap => hslots _ hgap (h.path e he hgap)

/-- A change of counts alone keeps the layout. -/
theorem Layout.map_count {u : Table ν} (h : Layout t) (f : Cell ν → ν) (hl : u.length = t.length)
    (ha : u.active = t.active)
    (hs : ∀ i, i < t.length → u.cellAt i = (t.cellAt i).map fun c => { c with count := f c }) :
    Layout u := by
  have hall : ∀ i, u.cellAt i = (t.cellAt i).map fun c => { c with count := f c } := by
    intro i
    have hmod : i % t.length ≡ i [MOD t.length] := Nat.mod_modEq _ _
    rw [← cellAt_congr hmod, ← hs _ (Nat.mod_lt _ t.length_pos)]
    exact cellAt_congr (hl ▸ hmod.symm)
  have hcells := cells_eq_map hl hs
  refine ⟨?_, ?_, fun {i c} hc => ?_, ?_⟩
  · rw [ha, h.active_eq, hcells, List.length_map]
  · rw [ha, hl]
    exact h.active_lt
  · rw [hall] at hc
    obtain ⟨d, hd, rfl⟩ := Option.map_eq_some_iff.mp hc
    refine Placed.mono ((h.placed hd).with_count _) hl fun j _ hj => ?_
    rw [hall, Option.isSome_map]
    exact hj
  · have hitems : u.items = t.items := by simp [items, hcells, Function.comp_def]
    rw [hitems]
    exact h.distinct

/-- A slot that was occupied still is when a cell is put somewhere. -/
private theorem isSome_setCell {i j : ℕ} {c : Cell ν} (h : (t.cellAt j).isSome) :
    ((t.setCell i (some c)).cellAt j).isSome := by
  by_cases hji : j ≡ i [MOD t.length]
  · rw [cellAt_setCell_self hji]
    rfl
  · rwa [cellAt_setCell_of_not_modEq hji]

/-- An item has no cell if the search for it ends at an empty slot. -/
private theorem Layout.not_mem_items (h : Layout t) {item : ℤ} {d : ℕ} (hend : Layout.Ends t item d)
    (hempty : t.cellAt (t.home item + d) = none) : item ∉ t.items := by
  rw [items, List.mem_map]
  rintro ⟨c, hc, rfl⟩
  obtain ⟨i, hi⟩ := mem_cells_iff.mp hc
  have hcell := h.cellAt_distance hi hend
  rw [hempty] at hcell
  cases hcell

/-- A cell can be found where the search for its item ends. -/
private theorem Layout.Ends.placed {item : ℤ} {d : ℕ} (n : ν) (hend : Layout.Ends t item d) :
    (t.setCell (t.home item + d) (some ⟨item, n, d + 1⟩)).Placed (fun _ => False) (t.home item + d)
      ⟨item, n, d + 1⟩ := by
  set i := t.home item + d with hi
  have hl := length_setCell t i (some ⟨item, n, d + 1⟩)
  refine ⟨Nat.succ_pos d, ?_, ?_, fun e he _ => ?_⟩
  · rw [hl]
    exact hend.lt_length
  · rw [home_congr hl, hl]
    exact Nat.ModEq.refl _
  · rw [hl]
    rcases Nat.eq_zero_or_pos e with rfl | hpos
    · rw [Nat.sub_zero, cellAt_setCell_self (by simp [Nat.ModEq])]
      rfl
    · -- the slots on the way were passed by the search
      have he' : e ≤ d := Nat.le_of_lt_succ he
      obtain ⟨b, hb, -⟩ := hend.passed (d - e) (by omega)
      have haddr : t.home item + (d - e) ≡ i + t.length - e [MOD t.length] := by
        have : i + t.length - e = t.home item + (d - e) + t.length := by omega
        rw [this]
        simp [Nat.ModEq]
      apply isSome_setCell
      rw [← cellAt_congr haddr, hb]
      rfl

/-- A new cell, where the search for its item ends. -/
theorem Layout.insert (h : Layout t) {item : ℤ} {d : ℕ} (n : ν) (hend : Layout.Ends t item d)
    (hempty : t.cellAt (t.home item + d) = none) (hroom : t.active + 1 < t.length) :
    Layout { t.setCell (t.home item + d) (some ⟨item, n, d + 1⟩) with active := t.active + 1 } := by
  set i := t.home item + d with hi
  set c : Cell ν := ⟨item, n, d + 1⟩ with hc
  set u : Table ν := { t.setCell i (some c) with active := t.active + 1 } with hu
  have hl : u.length = t.length := length_setCell t i (some c)
  have hcells : u.cells.Perm (c :: t.cells) := cells_setCell_some hempty
  refine ⟨?_, ?_, fun {j b} hb => ?_, ?_⟩
  · rw [hcells.length_eq, List.length_cons, ← h.active_eq]
  · rw [hl]
    exact hroom
  · have hu' : (t.setCell i (some c)).cellAt j = some b := hb
    by_cases hji : j ≡ i [MOD t.length]
    · rw [cellAt_setCell_self hji, Option.some.injEq] at hu'
      subst hu'
      have hplaced : u.Placed (fun _ => False) i c := (hend.placed n).mono rfl fun _ _ hk => hk
      exact hplaced.congr (hl ▸ hji.symm)
    · rw [cellAt_setCell_of_not_modEq hji] at hu'
      exact (h.placed hu').mono hl fun k _ hk => isSome_setCell hk
  · refine ((hcells.map Cell.item).nodup_iff (α := ℤ)).mpr ?_
    rw [List.map_cons, List.nodup_cons]
    exact ⟨h.not_mem_items hend hempty, h.distinct⟩

/-! ### What a table holds -/

/-- The table has a layout and `2 ^ lg` slots, and holds the entries `es`, in some order. -/
structure Holds (t : Table ℤ) (lg : ℕ) (es : Entries) : Prop where
  /-- Its cells can be found. -/
  layout : Layout t
  /-- It has as many slots. -/
  lgLength_eq : t.lgLength = lg
  /-- Its entries are these. -/
  perm : t.entries.Perm es

namespace Holds

variable {t : Table ℤ} {lg : ℕ} {es : Entries}

theorem length_eq (h : t.Holds lg es) : t.length = powerOfTwo lg := by
  rw [Table.length_eq, h.lgLength_eq]

theorem active_eq (h : t.Holds lg es) : t.active = es.length := by
  rw [h.layout.active_eq, ← length_entries, h.perm.length_eq]

theorem length_lt (h : t.Holds lg es) : es.length < powerOfTwo lg := by
  rw [← h.active_eq, ← h.length_eq]
  exact h.layout.active_lt

/-- Its items are those of the entries. -/
theorem keys_perm (h : t.Holds lg es) : (Entries.keys t.entries).Perm es.keys := h.perm.map Prod.fst

theorem distinct_entries (h : t.Holds lg es) : Entries.Distinct t.entries := by
  have := h.layout.distinct
  rwa [items_eq] at this

theorem distinct (h : t.Holds lg es) : es.Distinct := h.distinct_entries.perm h.perm

theorem congr {fs : Entries} (h : t.Holds lg es) (hp : es.Perm fs) : t.Holds lg fs :=
  ⟨h.layout, h.lgLength_eq, h.perm.trans hp⟩

/-- A table with a layout holds its own entries. -/
theorem self {t : Table ℤ} (h : Layout t) : t.Holds t.lgLength t.entries := ⟨h, rfl, .refl _⟩

theorem ofLog2 (lg : ℕ) : (Table.ofLog2 lg : Table ℤ).Holds lg [] :=
  ⟨Layout.ofLog2 lg, rfl, by simp [entries]⟩

/-- The cell that a search finds has the count of the entry. -/
theorem find?_map_count (h : t.Holds lg es) (item : ℤ) :
    (t.find? item).map (·.count) = es.get? item := by
  ext n
  rw [← Entries.get?_perm h.distinct_entries h.perm, Entries.get?_eq_some_iff h.distinct_entries,
    Option.map_eq_some_iff]
  simp only [h.layout.find?_eq_some_iff, entries, List.mem_map, Prod.mk.injEq]
  constructor
  · rintro ⟨c, ⟨hc, hitem⟩, hn⟩
    exact ⟨c, hc, hitem, hn⟩
  · rintro ⟨c, hc, hitem, hn⟩
    exact ⟨c, ⟨hc, hitem⟩, hn⟩

theorem count_eq (h : t.Holds lg es) (item : ℤ) : t.count item = es.count item := by
  rw [Entries.count, ← h.find?_map_count, Table.count]
  cases t.find? item <;> rfl

theorem contains_iff (h : t.Holds lg es) {item : ℤ} : t.contains item = true ↔ item ∈ es.keys := by
  rw [h.layout.contains_iff, items_eq]
  exact (h.perm.map Prod.fst).mem_iff

/-! ### Putting a count -/

/-- Where the search for an item ends, and what is there. -/
private theorem exists_place (h : t.Holds lg es) (item : ℤ) :
    ∃ d, t.distance? item = some d ∧ Layout.Ends t item d ∧
      (t.cellAt (t.home item + d)).isSome = decide (item ∈ es.keys) := by
  obtain ⟨d, hd, hend⟩ := h.layout.exists_distance item
  refine ⟨d, hd, hend, ?_⟩
  have hfind : t.contains item = (t.cellAt (t.home item + d)).isSome := by
    rw [contains, find?, hd, Option.bind_some]
  rw [← hfind, Bool.eq_iff_iff, decide_eq_true_eq]
  exact h.contains_iff

/-- A count is added to that of an item that has a cell. -/
private theorem put_old (h : t.Holds lg es) {item : ℤ} {d : ℕ} {c : Cell ℤ} (n : ℤ)
    (hc : t.cellAt (t.home item + d) = some c) (hitem : c.item = item) :
    Holds (t.setCell (t.home item + d) (some { c with count := c.count + n })) lg
      (Entries.add t.entries item n) := by
  -- the cell of the item is the only one that changes
  have hslots : ∀ i, i < t.length →
      (t.setCell (t.home item + d) (some { c with count := c.count + n })).cellAt i =
        (t.cellAt i).map fun b =>
          { b with count := if b.item = item then b.count + n else b.count } := by
    intro i _
    by_cases hi : i ≡ t.home item + d [MOD t.length]
    · rw [cellAt_setCell_self hi, cellAt_congr hi, hc]
      simp [hitem]
    · rw [cellAt_setCell_of_not_modEq hi]
      cases hb : t.cellAt i with
      | none => rfl
      | some b =>
        have hne : b.item ≠ item := fun hbi =>
          hi (h.layout.modEq_of_item_eq hb hc (hbi.trans hitem.symm))
        simp [hne]
  have hin : item ∈ Entries.keys t.entries := by
    have hcell := (entries_perm_cons hc).symm.subset List.mem_cons_self
    exact List.mem_map.mpr ⟨_, hcell, hitem⟩
  have hl := length_setCell t (t.home item + d) (some { c with count := c.count + n })
  refine ⟨h.layout.map_count _ hl rfl hslots, h.lgLength_eq, List.Perm.of_eq ?_⟩
  rw [Entries.add, if_pos hin, entries, cells_eq_map hl hslots, entries, List.map_map, List.map_map]
  refine List.map_congr_left fun b _ => ?_
  simp only [Function.comp_apply]
  split_ifs <;> rfl

/-- **A count is put**: it is added to the count of the item, and a new item is entered if that
leaves a slot empty. -/
theorem put (h : t.Holds lg es) (item n : ℤ)
    (hroom : item ∈ es.keys ∨ es.length + 1 < powerOfTwo lg) :
    ∃ u, t.put item n = .ok u ∧ u.Holds lg (es.add item n) := by
  obtain ⟨d, hd, hend, hsome⟩ := h.exists_place item
  have hadd := Entries.add_perm h.perm item n
  cases hc : t.cellAt (t.home item + d) with
  | some c =>
    have hplace : t.place item = .ok d := by simp [place, hd, hc]
    refine ⟨_, ?_, (h.put_old n hc (hend.here c hc)).congr hadd⟩
    simp [Table.put, plan_int, hplace, hc, store, Except.map, bind, Except.bind, pure, Except.pure]
  | none =>
    have hout : item ∉ es.keys := by simpa [hc] using hsome
    have hlt : t.active + 1 < t.length := by
      rw [h.active_eq, h.length_eq]
      exact hroom.resolve_left hout
    have hplace : t.place item = .ok d := by simp [place, hd, hc, Nat.not_le.mpr hlt]
    refine ⟨_, ?_, h.layout.insert n hend hc hlt, h.lgLength_eq, (entries_setCell_some hc).trans ?_⟩
    · simp [Table.put, plan_int, hplace, hc, store, Except.map, bind, Except.bind, pure, Except.pure]
    · rw [Entries.add, if_neg hout]
      exact h.perm.cons _

/-- The last empty slot is not given to a new item. -/
theorem put_full (h : t.Holds lg es) {item : ℤ} (n : ℤ) (hout : item ∉ es.keys)
    (hfull : powerOfTwo lg ≤ es.length + 1) :
    t.put item n = .error (.tableFull es.length (powerOfTwo lg)) := by
  obtain ⟨d, hd, -, hsome⟩ := h.exists_place item
  have hnone : t.cellAt (t.home item + d) = none := by simpa [hout] using hsome
  have hplace : t.place item = .error (.tableFull es.length (powerOfTwo lg)) := by
    simp [place, hd, hnone, h.active_eq, h.length_eq, hfull]
  simp [Table.put, plan_int, hplace, Except.map, bind, Except.bind]

/-! ### Growth -/

/-- Puts of new items, one after the other. -/
theorem foldlM_put (fs : Entries) (h : t.Holds lg es)
    (hdistinct : Entries.Distinct (fs ++ es)) (hroom : es.length + fs.length < powerOfTwo lg) :
    ∃ u, fs.foldlM (fun u e => u.put e.1 e.2) t = .ok u ∧ u.Holds lg (fs ++ es) := by
  induction fs generalizing t es with
  | nil => exact ⟨t, rfl, h⟩
  | cons f fs ih =>
    rw [List.length_cons] at hroom
    have hperm : List.Perm (f :: fs ++ es) (fs ++ f :: es) := List.perm_middle.symm
    have hd : Entries.Distinct (fs ++ f :: es) := hdistinct.perm hperm
    have hout : f.1 ∉ es.keys := by
      intro hmem
      obtain ⟨e, he, hitem⟩ := List.mem_map.mp hmem
      exact (List.nodup_cons.mp hdistinct).1
        (List.mem_map.mpr ⟨e, List.mem_append_right fs he, hitem⟩)
    obtain ⟨u, hu, hholds⟩ := h.put f.1 f.2 (Or.inr (by omega))
    rw [Entries.add, if_neg hout] at hholds
    obtain ⟨w, hw, hholds'⟩ := ih hholds hd (by rw [List.length_cons]; omega)
    refine ⟨w, ?_, hholds'.congr hperm.symm⟩
    rw [List.foldlM_cons, hu]
    exact hw

/-- **A longer table holds the same entries.** -/
theorem rehash (h : t.Holds lg es) {lg' : ℕ} (hlg : lg ≤ lg') :
    ∃ u, t.rehash lg' = .ok u ∧ u.Holds lg' es := by
  have hle := powerOfTwo_mono hlg
  have hlen := h.perm.length_eq
  have hlt := h.length_lt
  obtain ⟨u, hu, hholds⟩ := foldlM_put t.entries (Holds.ofLog2 lg')
    (by rw [List.append_nil]; exact h.distinct_entries) (by rw [List.length_nil]; omega)
  rw [List.append_nil] at hholds
  exact ⟨u, hu, hholds.congr h.perm⟩

/-- A table is resized to any greater power of two. -/
theorem resize (h : t.Holds lg es) {lg' : ℕ} (hlg : lg < lg') :
    ∃ u, t.resize (.int (powerOfTwo lg' : ℕ)) = .ok u ∧ u.Holds lg' es := by
  obtain ⟨u, hu, hholds⟩ := h.rehash hlg.le
  refine ⟨u, ?_, hholds⟩
  have hlog : (Scalar.int (powerOfTwo lg' : ℕ)).toLog2 "new_size" = .ok lg' :=
    Scalar.toLog2_eq_ok_iff.mpr rfl
  have hgt : ¬ lg' ≤ t.lgLength := by
    rw [h.lgLength_eq]
    omega
  simp only [Table.resize, hlog, bind, Except.bind, hgt, if_false]
  exact hu

end Holds

end HeavyHitters.Table
