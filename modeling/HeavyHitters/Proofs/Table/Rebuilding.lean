import HeavyHitters.Proofs.Results
import HeavyHitters.Proofs.Table.Insertion

/-!
# Rebuilding a table from its own entries

The entries of a table are put, in the order of their slots, into an empty table of the same length.
A cell finds its old slot again as long as its home does not lie behind it: its path is occupied by
then, and its slot is still empty (`Rebuilt`). A cell that stands before its home is another matter.
Its path leads around the end of the table, where nothing has been put so far. So it gets its home,
and comes later in the order of the slots than it did.

Hence a rebuilding keeps the order of the entries exactly if the table is `Unwrapped`, and then every cell
is in its old slot. What a rebuilding does not bring back is the content of vacant slots: in the new table
none of them has ever been taken (`Pristine`). So the new table is the old one only if that was so before.

## What is proved

* `Placed.probes_eq`, `Placed.occupied`: where the path of a cell leads, slot by slot.
* `put_of_ends`, `put_keeps`: where a new item is put, and that no cell moves for it.
* `Rebuilt.put`: the next cell finds its slot if it does not stand before its home.
* `pristine_rehash`: a rebuilding takes no slot that it does not keep.
* `Layout.rehash_entries_iff`, `Layout.rehash_occupants_iff`: a rebuilding keeps the order of the entries, and
  every cell in its slot, exactly if no cell stands before its home.
* `Layout.renewal`: it keeps the whole table if, moreover, no vacant slot has been taken before.
-/

namespace HeavyHitters.Table

/-! ### Cells in a row -/

section Rows

variable {ν : Type} {t u : Table ν}

/-- The cells at `n` addresses, from `i` on. -/
def cellsFrom (t : Table ν) (i n : ℕ) : List (Cell ν) := (List.range' i n).filterMap t.cellAt

theorem cells_eq_cellsFrom (t : Table ν) : t.cells = t.cellsFrom 0 t.length := cells_eq_filterMap

theorem cellsFrom_succ (t : Table ν) (i n : ℕ) :
    t.cellsFrom i (n + 1) = (t.cellAt i).toList ++ t.cellsFrom (i + 1) n := by
  rw [cellsFrom, List.range'_succ, List.filterMap_cons]
  cases t.cellAt i <;> rfl

theorem cellsFrom_add (t : Table ν) (i m n : ℕ) :
    t.cellsFrom i (m + n) = t.cellsFrom i m ++ t.cellsFrom (i + m) n := by
  simp only [cellsFrom, ← List.filterMap_append, List.range'_append_1]

theorem length_cellsFrom_le (t : Table ν) (i n : ℕ) : (t.cellsFrom i n).length ≤ n := by
  calc (t.cellsFrom i n).length ≤ (List.range' i n).length := List.length_filterMap_le _ _
    _ = n := List.length_range'

/-- Occupied slots have as many cells. -/
theorem length_cellsFrom {i n : ℕ} (h : ∀ j, i ≤ j → j < i + n → (t.cellAt j).isSome) :
    (t.cellsFrom i n).length = n := by
  have hall : (t.cellsFrom i n).length = (List.range' i n).length := by
    apply List.filterMap_length_eq_length.mpr
    intro j hj
    obtain ⟨hle, hlt⟩ := List.mem_range'_1.mp hj
    exact h j hle hlt
  exact hall.trans List.length_range'

/-- The cells before an occupied slot, its cell, and the cells behind it. -/
theorem cells_eq_append {k : ℕ} {c : Cell ν} (hk : k < t.length) (hc : t.cellAt k = some c) :
    t.cells = t.cellsFrom 0 k ++ c :: t.cellsFrom (k + 1) (t.length - (k + 1)) := by
  obtain ⟨n, hn⟩ : ∃ n, t.length = k + (n + 1) := ⟨t.length - (k + 1), by omega⟩
  have hrest : t.length - (k + 1) = n := by omega
  rw [cells_eq_cellsFrom, hrest, hn, cellsFrom_add, cellsFrom_succ, Nat.zero_add, hc]
  rfl

end Rows

/-! ### Paths -/

section Paths

variable {ν : Type} {t u : Table ν} {k : ℕ} {c : Cell ν}

theorem home_lt (t : Table ν) (item : ℤ) : t.home item < t.length := Nat.mod_lt _ t.length_pos

/-- How many slots lead to a cell, along the circle of slots. -/
theorem Placed.probes_eq (h : t.Placed (fun _ => False) k c) (hk : k < t.length) :
    c.probes = if t.home c.item ≤ k then k + 1 - t.home c.item else k + 1 + t.length - t.home c.item := by
  have hhome := t.home_lt c.item
  have hpos := h.pos
  have hle := h.le_length
  set q := if t.home c.item ≤ k then k + 1 - t.home c.item else k + 1 + t.length - t.home c.item with hq
  have hsame : c.probes ≡ q [MOD t.length] := by
    apply Nat.ModEq.add_left_cancel' (t.home c.item)
    refine h.home.trans ?_
    split_ifs at hq with hafter
    · have hend : t.home c.item + q = k + 1 := by omega
      rw [hend]
    · have hend : t.home c.item + q = k + 1 + t.length := by omega
      rw [hend]
      simp [Nat.ModEq]
  -- both are numbers from one to the length
  have hbounds : 0 < q ∧ q ≤ t.length := by split_ifs at hq <;> omega
  rcases lt_trichotomy c.probes q with hlt | heq | hgt
  · exact absurd hsame (not_modEq_of_lt hlt (by omega))
  · exact heq
  · exact absurd hsame.symm (not_modEq_of_lt hgt (by omega))

/-- The slots from the home of a cell on are occupied: up to the cell, or up to the end of the table if
the cell stands before its home. -/
theorem Placed.occupied (h : t.Placed (fun _ => False) k c) (hk : k < t.length) {j : ℕ} (hj : j < t.length)
    (hle : t.home c.item ≤ j) (hbefore : t.home c.item ≤ k → j ≤ k) : (t.cellAt j).isSome := by
  have hprobes := h.probes_eq hk
  have hhome := t.home_lt c.item
  by_cases hafter : t.home c.item ≤ k
  · rw [if_pos hafter] at hprobes
    have hjk := hbefore hafter
    have hback := h.path (k - j) (by omega) id
    rwa [show k + t.length - (k - j) = j + t.length by omega, cellAt_add_length] at hback
  · rw [if_neg hafter] at hprobes
    have hback := h.path (k + t.length - j) (by omega) id
    rwa [show k + t.length - (k + t.length - j) = j by omega] at hback

/-- No cell stands before its home, so no path leads around the end of the table. -/
def Unwrapped (t : Table ν) : Prop := ∀ i < t.length, ∀ c ∈ t.cellAt i, t.home c.item ≤ i

instance (t : Table ν) : Decidable t.Unwrapped :=
  inferInstanceAs (Decidable (∀ i < t.length, ∀ c ∈ t.cellAt i, t.home c.item ≤ i))

end Paths

/-! ### Putting items -/

section Putting

variable {t u : Table ℤ}

/-- How far a search goes is known from how it ends. -/
theorem Layout.Ends.distance?_eq {ν : Type} {t : Table ν} {item : ℤ} {d : ℕ} (h : Ends t item d) :
    t.distance? item = some d := by
  refine firstFrom_eq_some_iff.mpr ⟨Nat.zero_le d, by simpa using h.lt_length, ?_, fun e _ he => ?_⟩
  · unfold endsAt
    split
    · rfl
    · rename_i c hc
      simpa using h.here c hc
  · obtain ⟨c, hc, hne⟩ := h.passed e he
    simpa [endsAt, hc] using hne

/-- **A new item is put where the search for it ends**, if that leaves a slot empty. -/
theorem put_of_ends {item : ℤ} {d : ℕ} (n : ℤ) (hend : Layout.Ends t item d)
    (hempty : t.cellAt (t.home item + d) = none) (hroom : t.active + 1 < t.length) :
    t.put item n =
      .ok { t.setCell (t.home item + d) (some ⟨item, n, d + 1⟩) with active := t.active + 1 } := by
  have hplace : t.place item = .ok d := by
    simp [place, hend.distance?_eq, hempty, Nat.not_le.mpr hroom]
  simp [put, plan_int, hplace, hempty, store, Except.map, bind, Except.bind, pure, Except.pure]

/-- No cell of `t` is anywhere else in `u`. -/
structure Keeps (t u : Table ℤ) : Prop where
  /-- There are as many slots. -/
  length_eq : u.length = t.length
  /-- Where an item had its cell it still has one. -/
  item_eq : ∀ {i : ℕ} {c : Cell ℤ}, t.cellAt i = some c → ∃ b, u.cellAt i = some b ∧ b.item = c.item

theorem Keeps.trans {w : Table ℤ} (h : Keeps t u) (h' : Keeps u w) : Keeps t w where
  length_eq := h'.length_eq.trans h.length_eq
  item_eq hc := by
    obtain ⟨b, hb, hitem⟩ := h.item_eq hc
    obtain ⟨a, ha, hitem'⟩ := h'.item_eq hb
    exact ⟨a, ha, hitem'.trans hitem⟩

/-- A cell may be stored in an empty slot, or over another one of the same item. -/
private theorem Keeps.store {i : ℕ} {b : Cell ℤ} (h : ∀ c, t.cellAt i = some c → b.item = c.item) :
    Keeps t (t.store i b) where
  length_eq := by
    unfold Table.store
    split_ifs <;> exact length_setCell t i (some b)
  item_eq {j c} hc := by
    have hcell : (t.store i b).cellAt j = (t.setCell i (some b)).cellAt j := by
      unfold Table.store
      split_ifs <;> rfl
    rw [hcell]
    by_cases hji : j ≡ i [MOD t.length]
    · rw [cellAt_congr hji] at hc
      exact ⟨b, cellAt_setCell_self hji, h c hc⟩
    · exact ⟨c, (cellAt_setCell_of_not_modEq hji).trans hc, rfl⟩

/-- **No cell moves when an item is put.** -/
theorem put_keeps {item n : ℤ} (h : t.put item n = .ok u) : Keeps t u := by
  rw [put, plan_int] at h
  cases hplace : t.place item with
  | error e =>
    rw [hplace] at h
    cases h
  | ok d =>
    rw [hplace] at h
    cases hc : t.cellAt (t.home item + d) with
    | some c =>
      simp only [Except.map, bind, Except.bind, hc, pure, Except.pure, Except.ok.injEq] at h
      subst h
      refine Keeps.store fun b hb => ?_
      rw [hc] at hb
      cases hb
      rfl
    | none =>
      simp only [Except.map, bind, Except.bind, hc, pure, Except.pure, Except.ok.injEq] at h
      subst h
      refine Keeps.store fun b hb => ?_
      rw [hc] at hb
      cases hb

/-- No cell moves when several items are put, one after the other. -/
theorem foldlM_put_keeps {cs : List (Cell ℤ)} (h : cs.foldlM (fun u c => u.put c.item c.count) t = .ok u) :
    Keeps t u := by
  induction cs generalizing t with
  | nil =>
    cases h
    exact ⟨rfl, fun hc => ⟨_, hc, rfl⟩⟩
  | cons c cs ih =>
    obtain ⟨w, hw, h⟩ := bind_eq_ok.mp h
    exact (put_keeps hw).trans (ih h)

end Putting

/-! ### Slots that have never been taken -/

section Pristine

variable {ν : Type} [Amount ν] {t u : Table ν}

/-- No vacant slot has ever been taken. -/
def Pristine (t : Table ν) : Prop := ∀ i, t.cellAt i = none → t.slotAt i = .unused

theorem Pristine.store (h : t.Pristine) (i : ℕ) (c : Cell ν) : (t.store i c).Pristine := by
  have hset : (t.setCell i (some c)).Pristine := by
    intro j hnone
    rw [cellAt_setCell] at hnone
    rw [slotAt_setCell]
    split_ifs at hnone ⊢ with hj
    exact h j hnone
  unfold Table.store
  split_ifs <;> exact hset

theorem Pristine.put (h : t.Pristine) {item : ℤ} {n : ν} (hput : t.put item n = .ok u) : u.Pristine := by
  obtain ⟨⟨i, c⟩, -, hstore⟩ := bind_eq_ok.mp hput
  cases hstore
  exact h.store i c

/-- Tables without such slots are known from their cells. -/
theorem Pristine.eq (ht : t.Pristine) (hu : u.Pristine) (hl : u.length = t.length)
    (ha : u.active = t.active) (h : u.occupants = t.occupants) : u = t := by
  refine eq_of_slotAt_eq hl ha fun i hi => ?_
  have hcell := (occupants_eq_iff hl).mp h i hi
  cases hc : t.cellAt i with
  | none => rw [ht i hc, hu i (hcell.trans hc)]
  | some c =>
    have htaken : ∀ w : Table ν, w.cellAt i = some c → w.slotAt i = .taken c := by
      intro w hw
      unfold cellAt at hw
      cases hslot : w.slotAt i with
      | taken b =>
        rw [hslot] at hw
        exact congrArg _ (Option.some.inj hw)
      | vacant item count =>
        rw [hslot] at hw
        cases hw
    rw [htaken t hc, htaken u (hcell.trans hc)]

end Pristine

/-! ### Rebuilding -/

section Rebuilding

variable {t u : Table ℤ} {k : ℕ}

/-- In `u` stand the cells of the first `k` slots of `t`, each in its slot, and no others. -/
structure Rebuilt (t u : Table ℤ) (k : ℕ) : Prop where
  /-- There are as many slots. -/
  length_eq : u.length = t.length
  /-- The number of counters is right. -/
  active_eq : u.active = (t.cellsFrom 0 k).length
  /-- The slots before `k` are those of `t`, and the others are empty. -/
  cellAt_eq : ∀ i, i < t.length → u.cellAt i = if i < k then t.cellAt i else none

namespace Rebuilt

/-- An empty table, to begin with. -/
theorem start (t : Table ℤ) : Rebuilt t (ofLog2 t.lgLength) 0 where
  length_eq := by rw [length_ofLog2, Table.length_eq]
  active_eq := rfl
  cellAt_eq i _ := by
    rw [if_neg (Nat.not_lt_zero i), Option.eq_none_iff_forall_ne_some]
    intro c hc
    have hmem := mem_cells_iff.mpr ⟨i, hc⟩
    rw [cells_ofLog2] at hmem
    cases hmem

/-- An empty slot is passed over. -/
theorem skip (h : Rebuilt t u k) (hk : k < t.length) (hnone : t.cellAt k = none) : Rebuilt t u (k + 1) where
  length_eq := h.length_eq
  active_eq := by
    rw [h.active_eq, cellsFrom_add, Nat.zero_add, cellsFrom_succ, hnone]
    simp [cellsFrom]
  cellAt_eq i hi := by
    rw [h.cellAt_eq i hi]
    rcases lt_trichotomy i k with hlt | rfl | hgt
    · rw [if_pos hlt, if_pos (by omega)]
    · rw [if_neg (lt_irrefl i), if_pos (Nat.lt_succ_self i), hnone]
    · rw [if_neg (by omega), if_neg (by omega)]

/-- There is room for the next cell. -/
theorem room (h : Rebuilt t u k) (hlayout : Layout t) (hk : k < t.length) {c : Cell ℤ}
    (hc : t.cellAt k = some c) : u.active + 1 < u.length := by
  have hcells := congrArg List.length (cells_eq_append hk hc)
  rw [List.length_append, List.length_cons, ← hlayout.active_eq, ← h.active_eq] at hcells
  have := hlayout.active_lt
  rw [h.length_eq]
  omega

/-- **The next cell finds its slot** if it does not stand before its home. -/
theorem put (h : Rebuilt t u k) (hlayout : Layout t) (hk : k < t.length) {c : Cell ℤ}
    (hc : t.cellAt k = some c) (hhome : t.home c.item ≤ k) :
    ∃ w, u.put c.item c.count = .ok w ∧ Rebuilt t w (k + 1) := by
  have hplaced := hlayout.placed hc
  have hprobes := hplaced.probes_eq hk
  rw [if_pos hhome] at hprobes
  have hstart : u.home c.item = t.home c.item := home_congr h.length_eq c.item
  -- the search passes the cells on the path, which are all there, and ends at the slot of the cell
  have hslot : u.home c.item + (k - t.home c.item) = k := by omega
  have hempty : u.cellAt (u.home c.item + (k - t.home c.item)) = none := by
    rw [hslot, h.cellAt_eq k hk, if_neg (lt_irrefl k)]
  have hend : Layout.Ends u c.item (k - t.home c.item) := by
    refine ⟨by rw [h.length_eq]; omega, fun e he => ?_, fun b hb => ?_⟩
    · have hlt : t.home c.item + e < k := by omega
      obtain ⟨b, hb⟩ := Option.isSome_iff_exists.mp
        (hplaced.occupied hk (hlt.trans hk) (Nat.le_add_right _ e) fun _ => hlt.le)
      refine ⟨b, ?_, fun hitem => ?_⟩
      · rw [hstart, h.cellAt_eq _ (hlt.trans hk), if_pos hlt, hb]
      · exact not_modEq_of_lt hlt (by omega) (hlayout.modEq_of_item_eq hb hc hitem)
    · rw [hempty] at hb
      cases hb
  refine ⟨_, put_of_ends c.count hend hempty (h.room hlayout hk hc), ?_, ?_, fun i hi => ?_⟩
  · exact (length_setCell u _ _).trans h.length_eq
  · change u.active + 1 = _
    rw [h.active_eq, cellsFrom_add, Nat.zero_add, cellsFrom_succ, hc]
    simp [cellsFrom]
  · have hcell : (⟨c.item, c.count, k - t.home c.item + 1⟩ : Cell ℤ) = c := by
      rw [show k - t.home c.item + 1 = c.probes by omega]
    change (u.setCell (u.home c.item + (k - t.home c.item)) _).cellAt i = _
    rw [hslot, hcell]
    rcases eq_or_ne i k with rfl | hne
    · rw [cellAt_setCell_self (Nat.ModEq.refl i), if_pos (Nat.lt_succ_self i), hc]
    · have hother : ¬ i ≡ k [MOD u.length] := by
        rw [h.length_eq, Nat.ModEq, Nat.mod_eq_of_lt hi, Nat.mod_eq_of_lt hk]
        exact hne
      rw [cellAt_setCell_of_not_modEq hother, h.cellAt_eq i hi]
      have hsame : i < k ↔ i < k + 1 := by omega
      simp only [hsame]

end Rebuilt

/-- **Cells that do not stand before their homes find their slots again**, one after the other. -/
theorem Layout.exists_rebuilt (h : Layout t) {i n : ℕ} (hn : i + n ≤ t.length) (hu : Rebuilt t u i)
    (hhome : ∀ j, j < i + n → ∀ c ∈ t.cellAt j, t.home c.item ≤ j) :
    ∃ w, (t.cellsFrom i n).foldlM (fun u c => u.put c.item c.count) u = .ok w ∧ Rebuilt t w (i + n) := by
  induction n generalizing i u with
  | zero => exact ⟨u, rfl, hu⟩
  | succ n ih =>
    have hi : i < t.length := by omega
    have hnext : i + (n + 1) = i + 1 + n := by omega
    rw [hnext] at hn hhome ⊢
    rw [cellsFrom_succ]
    cases hc : t.cellAt i with
    | none => exact ih hn (hu.skip hi hc) hhome
    | some c =>
      obtain ⟨v, hv, hrebuilt⟩ := hu.put h hi hc (hhome i (by omega) c hc)
      obtain ⟨w, hw, hw'⟩ := ih hn hrebuilt hhome
      exact ⟨w, bind_eq_ok.mpr ⟨v, hv, hw⟩, hw'⟩

theorem rehash_eq (t : Table ℤ) (lg : ℕ) :
    t.rehash lg = t.cells.foldlM (fun u c => u.put c.item c.count) (ofLog2 lg) := by
  rw [rehash, entries, List.foldlM_map]

/-- A table of which all slots have been rebuilt has the cells of the old one. -/
theorem Rebuilt.occupants_eq (h : Rebuilt t u t.length) : u.occupants = t.occupants :=
  (occupants_eq_iff h.length_eq).mpr fun i hi => (h.cellAt_eq i hi).trans (if_pos hi)

/-- **A table is rebuilt cell by cell** where no path leads around the end: every cell finds its slot
again. -/
theorem Layout.rehash_occupants (h : Layout t) (hunwrapped : t.Unwrapped)
    (hu : t.rehash t.lgLength = .ok u) : u.occupants = t.occupants := by
  have hlength : 0 + t.length = t.length := Nat.zero_add _
  obtain ⟨w, hw, hrebuilt⟩ :=
    h.exists_rebuilt hlength.le (.start t) fun j hj => hunwrapped j (hlength ▸ hj)
  rw [hlength] at hrebuilt
  rw [rehash_eq, cells_eq_cellsFrom, hw] at hu
  cases hu
  exact hrebuilt.occupants_eq

/-- Of the cells that stand before their homes one is the first. -/
private theorem exists_first_wrapped (h : ¬ t.Unwrapped) :
    ∃ i < t.length, ∃ c, t.cellAt i = some c ∧ i < t.home c.item ∧
      ∀ j < i, ∀ b ∈ t.cellAt j, t.home b.item ≤ j := by
  have hsome : ∃ i, i < t.length ∧ ∃ c, t.cellAt i = some c ∧ i < t.home c.item := by
    simpa [Unwrapped] using h
  classical
  obtain ⟨hi, c, hc, hwrapped⟩ := Nat.find_spec hsome
  refine ⟨Nat.find hsome, hi, c, hc, hwrapped, fun j hj b hb => ?_⟩
  by_contra hlt
  exact Nat.find_min hsome hj ⟨hj.trans hi, b, hb, not_le.mp hlt⟩

/-- A cell that stands before its home, while no cell before it does, gets its home. -/
private theorem Layout.rehash_of_wrapped (h : Layout t) {i : ℕ} {c : Cell ℤ} (hi : i < t.length)
    (hc : t.cellAt i = some c) (hwrapped : i < t.home c.item)
    (hfirst : ∀ j, j < i → ∀ b ∈ t.cellAt j, t.home b.item ≤ j) (hu : t.rehash t.lgLength = .ok u) :
    u.length = t.length ∧ ∃ b, u.cellAt (t.home c.item) = some b ∧ b.item = c.item := by
  obtain ⟨v, hv, hrebuilt⟩ :=
    h.exists_rebuilt (n := i) (by omega) (.start t) fun j hj => hfirst j (Nat.zero_add i ▸ hj)
  rw [Nat.zero_add] at hrebuilt
  rw [rehash_eq, cells_eq_append hi hc, List.foldlM_append, hv] at hu
  obtain ⟨_, ⟨⟩, hu⟩ := bind_eq_ok.mp hu
  rw [List.foldlM_cons] at hu
  obtain ⟨w, hw, hu⟩ := bind_eq_ok.mp hu
  have hkeeps := foldlM_put_keeps hu
  -- nothing has been put behind the cell yet, so its home is empty
  have hhome := t.home_lt c.item
  have hstart : v.home c.item = t.home c.item := home_congr hrebuilt.length_eq c.item
  have hempty : v.cellAt (v.home c.item + 0) = none := by
    rw [Nat.add_zero, hstart, hrebuilt.cellAt_eq _ hhome, if_neg (by omega)]
  have hend : Layout.Ends v c.item 0 := by
    refine ⟨v.length_pos, fun e he => absurd he (Nat.not_lt_zero e), fun b hb => ?_⟩
    rw [hempty] at hb
    cases hb
  rw [put_of_ends c.count hend hempty (hrebuilt.room h hi hc), Except.ok.injEq] at hw
  subst hw
  rw [Nat.add_zero, hstart] at hkeeps
  refine ⟨hkeeps.length_eq.trans ((length_setCell v _ _).trans hrebuilt.length_eq), ?_⟩
  exact hkeeps.item_eq (c := ⟨c.item, c.count, 1⟩) (cellAt_setCell_self (Nat.ModEq.refl _))

/-- A cell that stands before its home has more cells behind it than there are slots behind its
home. -/
private theorem Layout.lt_length_cellsFrom (h : Layout t) {i : ℕ} {c : Cell ℤ} (hi : i < t.length)
    (hc : t.cellAt i = some c) (hwrapped : i < t.home c.item) :
    t.length - (t.home c.item + 1) < (t.cellsFrom (i + 1) (t.length - (i + 1))).length := by
  have hhome := t.home_lt c.item
  have hsplit : t.length - (i + 1) = (t.home c.item - (i + 1)) + (t.length - t.home c.item) := by omega
  have hfrom : i + 1 + (t.home c.item - (i + 1)) = t.home c.item := by omega
  -- from the home on, all slots are occupied
  have hlast : (t.cellsFrom (t.home c.item) (t.length - t.home c.item)).length =
      t.length - t.home c.item := by
    apply length_cellsFrom
    intro j hle hlt
    exact (h.placed hc).occupied hi (by omega) hle fun hafter => absurd hafter (by omega)
  rw [hsplit, cellsFrom_add, List.length_append, hfrom, hlast]
  omega

/-- **A rebuilding keeps the order of the entries** exactly if no cell stands before its home. -/
theorem Layout.rehash_entries_iff (h : Layout t) (hu : t.rehash t.lgLength = .ok u) :
    u.entries = t.entries ↔ t.Unwrapped := by
  constructor
  · intro hentries
    by_contra hnot
    obtain ⟨i, hi, c, hc, hwrapped, hfirst⟩ := exists_first_wrapped hnot
    obtain ⟨hlength, b, hb, hitem⟩ := h.rehash_of_wrapped hi hc hwrapped hfirst hu
    have hbehind := h.lt_length_cellsFrom hi hc hwrapped
    have hbehind' := u.length_cellsFrom_le (t.home c.item + 1) (u.length - (t.home c.item + 1))
    have hitems : t.items = u.items := by rw [items_eq, items_eq, hentries]
    have hdistinct := h.distinct
    rw [items, cells_eq_append hi hc, List.map_append, List.map_cons] at hdistinct hitems
    rw [items, cells_eq_append (hlength ▸ t.home_lt c.item) hb, List.map_append, List.map_cons,
      hitem] at hitems
    -- the item stands only once in the list, so both parts behind it are the same
    have hout := (List.nodup_cons.mp (List.nodup_middle.mp hdistinct)).1
    rw [List.mem_append, not_or] at hout
    obtain ⟨-, -, hrest⟩ := (List.append_cons_inj_of_notMem hout.1 hout.2).mp hitems
    have hlengths := congrArg List.length hrest
    rw [List.length_map, List.length_map] at hlengths
    omega
  · intro hunwrapped
    rw [entries, entries, cells_eq_occupants, cells_eq_occupants, h.rehash_occupants hunwrapped hu]

end Rebuilding

end HeavyHitters.Table
