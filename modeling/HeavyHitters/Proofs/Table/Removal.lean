import HeavyHitters.Proofs.Table.Layout
import HeavyHitters.Proofs.Table.Insertion
import HeavyHitters.Table.Remove

/-!
# Removal, seen in the entries

A removed cell leaves a hole that other cells may be searched through. While the hole is being
closed it is the only slot of that kind (`Open`): every other slot on the way to a cell is occupied,
and the cells between the hole and the next one to be looked at do not need the hole. A cell that
needs it is moved into it, which keeps all this with the slot of the cell as the new hole. At the
first empty slot no cell is left that needs the hole, and the table has a layout again.

A sweep removes the spent cells from the last address of a turn to its first, which is an empty
slot. A cell that is moved on the way comes from an address that has been swept (`Closes.counts`),
so no spent cell is moved out of its sight.

## What is proved

* `Open.skip`, `Open.move`, `Open.closed`: the three things that can happen next to a hole.
* `Open.closeGap_induction`: what they have in common is told of the whole loop that closes a hole.
* `Layout.remove`: a removal takes one entry away and keeps the layout.
* `Layout.keepPositive`: what is left after a sweep are the entries that are not spent.
-/

namespace HeavyHitters.Table

variable {ν : Type} {t : Table ν}

/-! ### A hole -/

/-- The slot at `hole` is empty, and all that is missing for a layout is that some cells behind it
are searched through it. The next `d - 1` cells are not. All addresses are less than a turn after
`first`, and there is an empty slot ahead, at `stop`. -/
structure Open (t : Table ν) (first hole d stop : ℕ) : Prop where
  /-- The hole is in the turn that is looked at. -/
  first_le : first ≤ hole
  /-- The next cell to look at is behind the hole. -/
  pos : 0 < d
  /-- It is not behind the empty slot ahead. -/
  le_stop : hole + d ≤ stop
  /-- The empty slot ahead is in the same turn. -/
  stop_lt : stop < first + t.length
  /-- The hole is empty. -/
  hole_empty : t.cellAt hole = none
  /-- So is the slot ahead. -/
  stop_empty : t.cellAt stop = none
  /-- Every cell stands where it may, up to the hole. -/
  placed : ∀ {i : ℕ} {c : Cell ν}, t.cellAt i = some c → t.Placed (· ≡ hole [MOD t.length]) i c
  /-- The cells between the hole and the next one to look at are not searched through it. -/
  stay : ∀ {e : ℕ} {c : Cell ν}, 0 < e → e < d → t.cellAt (hole + e) = some c → c.probes ≤ e

/-- The table after the hole has been closed by moving the cell that is `d` slots behind it. -/
def moved (t : Table ν) (hole d : ℕ) (c : Cell ν) : Table ν :=
  (t.setCell hole (some { c with probes := c.probes - d })).setCell (hole + d) none

@[simp] theorem length_moved (t : Table ν) (hole d : ℕ) (c : Cell ν) :
    (t.moved hole d c).length = t.length := by
  simp [moved]

/-- What is in the slots after a move. -/
theorem cellAt_moved (t : Table ν) (hole d : ℕ) (c : Cell ν) (i : ℕ) :
    (t.moved hole d c).cellAt i =
      if i ≡ hole + d [MOD t.length] then none
      else if i ≡ hole [MOD t.length] then some { c with probes := c.probes - d }
      else t.cellAt i := by
  unfold moved
  split_ifs with h₁ h₂
  · exact cellAt_setCell_self (by simpa using h₁)
  · rw [cellAt_setCell_of_not_modEq (by simpa using h₁), cellAt_setCell_self h₂]
  · rw [cellAt_setCell_of_not_modEq (by simpa using h₁), cellAt_setCell_of_not_modEq h₂]

/-- With the hole, the same slots are taken after a move as before. -/
theorem covered_moved {hole d : ℕ} {c : Cell ν} (hc : t.cellAt (hole + d) = some c) (i : ℕ) :
    i ≡ hole + d [MOD t.length] ∨ ((t.moved hole d c).cellAt i).isSome ↔
      i ≡ hole [MOD t.length] ∨ (t.cellAt i).isSome := by
  rw [cellAt_moved]
  by_cases hnew : i ≡ hole + d [MOD t.length]
  · simp [hnew, cellAt_congr hnew, hc]
  · by_cases hold : i ≡ hole [MOD t.length] <;> simp [hnew, hold]

/-- The table with a slot emptied, before the hole is closed. -/
def emptied (t : Table ν) (i : ℕ) : Table ν := { t.setCell i none with active := t.active - 1 }

@[simp] theorem length_emptied (t : Table ν) (i : ℕ) : (t.emptied i).length = t.length :=
  length_setCell t i none

theorem cellAt_emptied_self {i j : ℕ} (h : j ≡ i [MOD t.length]) : (t.emptied i).cellAt j = none :=
  cellAt_setCell_self h

theorem cellAt_emptied_of_not_modEq {i j : ℕ} (h : ¬ j ≡ i [MOD t.length]) :
    (t.emptied i).cellAt j = t.cellAt j :=
  cellAt_setCell_of_not_modEq h

/-- A removal closes the hole that the emptied slot is. -/
theorem remove_eq (t : Table ν) (i : ℕ) : t.remove i = closeGap t.length (t.emptied i) i 1 := by
  rw [← t.length_emptied i]
  rfl

/-! ### Lengths -/

@[simp] theorem length_closeGap (steps : ℕ) (t : Table ν) (hole d : ℕ) :
    (closeGap steps t hole d).length = t.length := by
  induction steps generalizing t hole d with
  | zero => rfl
  | succ steps ih =>
    rw [closeGap]
    split
    · rfl
    · split_ifs
      · exact (ih _ _ _).trans (length_moved t hole d _)
      · exact ih t hole (d + 1)

@[simp] theorem length_remove (t : Table ν) (i : ℕ) : (t.remove i).length = t.length :=
  (length_closeGap _ _ i 1).trans (length_setCell t i none)

section

variable [Amount ν]

/-- At an address nothing is done, or its cell is removed. -/
theorem removeSpent_cases (t : Table ν) (i : ℕ) : t.removeSpent i = t ∨ t.removeSpent i = t.remove i := by
  unfold removeSpent
  split
  · exact .inl rfl
  · split_ifs
    · exact .inr rfl
    · exact .inl rfl

@[simp] theorem length_removeSpent (t : Table ν) (i : ℕ) : (t.removeSpent i).length = t.length := by
  rcases t.removeSpent_cases i with h | h
  · rw [h]
  · rw [h, length_remove]

@[simp] theorem length_sweep (t : Table ν) (start n : ℕ) : (t.sweep start n).length = t.length := by
  induction n generalizing t with
  | zero => rfl
  | succ n ih => rw [sweep, ih, length_removeSpent]

@[simp] theorem length_keepPositive (t : Table ν) : t.keepPositive.length = t.length :=
  length_sweep t _ _

end

namespace Open

variable {first hole d stop : ℕ} {c : Cell ν}

/-- An occupied slot is before the empty slot ahead. -/
private theorem lt_stop (h : Open t first hole d stop) (hc : t.cellAt (hole + d) = some c) :
    hole + d < stop := by
  refine lt_of_le_of_ne h.le_stop fun heq => ?_
  rw [heq, h.stop_empty] at hc
  cases hc

/-- A cell that is not searched through the hole stays. -/
theorem skip (h : Open t first hole d stop) (hc : t.cellAt (hole + d) = some c)
    (hle : c.probes ≤ d) : Open t first hole (d + 1) stop where
  first_le := h.first_le
  pos := Nat.succ_pos d
  le_stop := h.lt_stop hc
  stop_lt := h.stop_lt
  hole_empty := h.hole_empty
  stop_empty := h.stop_empty
  placed := h.placed
  stay := by
    intro e b he hed hb
    rcases Nat.lt_or_eq_of_le (Nat.le_of_lt_succ hed) with hlt | rfl
    · exact h.stay he hlt hb
    · rw [hc, Option.some.injEq] at hb
      exact hb ▸ hle

/-- A cell that stays where it is can be found as before. -/
private theorem placed_kept (h : Open t first hole d stop) (hc : t.cellAt (hole + d) = some c) {i : ℕ}
    {b : Cell ν} (hb : t.cellAt i = some b) :
    (t.moved hole d c).Placed (· ≡ hole + d [MOD (t.moved hole d c).length]) i b := by
  have hl : (t.moved hole d c).length = t.length := length_moved t hole d c
  have hp := h.placed hb
  rw [hl]
  refine ⟨hp.pos, by rw [hl]; exact hp.le_length, by rw [home_congr hl, hl]; exact hp.home,
    fun e he hgap => ?_⟩
  rw [hl] at hgap ⊢
  refine ((covered_moved hc _).mpr ?_).resolve_left hgap
  by_cases hmod : i + t.length - e ≡ hole [MOD t.length]
  · exact Or.inl hmod
  · exact Or.inr (hp.path e he hmod)

/-- The cell that is moved can be found in the place of the hole. -/
private theorem placed_moved (h : Open t first hole d stop) (hc : t.cellAt (hole + d) = some c)
    (hlt : d < c.probes) {i : ℕ} (hi : i ≡ hole [MOD t.length]) :
    (t.moved hole d c).Placed (· ≡ hole + d [MOD (t.moved hole d c).length]) i
      { c with probes := c.probes - d } := by
  have hp := h.placed hc
  have hle := hp.le_length
  have hpos := h.pos
  have hl : (t.moved hole d c).length = t.length := length_moved t hole d c
  rw [hl]
  refine ⟨by simpa using hlt, by rw [hl]; simp only; omega, ?_, fun e he hgap => ?_⟩
  · rw [home_congr hl, hl]
    have hhome : t.home c.item + (c.probes - d) + d ≡ i + 1 + d [MOD t.length] := by
      have hprobes : t.home c.item + (c.probes - d) + d = t.home c.item + c.probes := by omega
      have hhole : hole + d + 1 = hole + (d + 1) := by omega
      have hiswap : i + 1 + d = i + (d + 1) := by omega
      rw [hprobes, hiswap]
      refine hp.home.trans ?_
      rw [hhole]
      exact (hi.add_right (d + 1)).symm
    exact Nat.ModEq.add_right_cancel' d hhome
  · simp only at he
    rw [hl] at hgap ⊢
    refine ((covered_moved hc _).mpr ?_).resolve_left hgap
    have hback : i + t.length - e ≡ hole + t.length - e [MOD t.length] := by
      rw [Nat.add_sub_assoc (by omega), Nat.add_sub_assoc (by omega)]
      exact hi.add_right _
    rcases Nat.eq_zero_or_pos e with rfl | he0
    · exact Or.inl (hback.trans (by simp [Nat.ModEq]))
    · -- what the path leads through now was further along it
      have hfar : hole + d + t.length - (e + d) = hole + t.length - e := by omega
      have hocc := hp.path (e + d) (by omega)
      rw [hfar] at hocc
      rw [cellAt_congr hback]
      refine Or.inr (hocc fun hmod => ?_)
      have hturn : hole + t.length ≡ hole [MOD t.length] := by simp [Nat.ModEq]
      exact not_modEq_of_lt (by omega) (by omega) (hmod.trans hturn.symm)

/-- A cell that is searched through the hole is moved into it, and leaves a hole itself. -/
theorem move (h : Open t first hole d stop) (hc : t.cellAt (hole + d) = some c)
    (hlt : d < c.probes) : Open (t.moved hole d c) first (hole + d) 1 stop := by
  have hpos := h.pos
  have hfirst := h.first_le
  have hstop := h.lt_stop hc
  have hturn := h.stop_lt
  have hl : (t.moved hole d c).length = t.length := length_moved t hole d c
  refine ⟨by omega, Nat.one_pos, hstop, hl ▸ hturn, ?_, ?_, fun {i b} hb => ?_, ?_⟩
  · rw [cellAt_moved, if_pos (Nat.ModEq.refl _)]
  · rw [cellAt_moved, if_neg, if_neg, h.stop_empty]
    · exact fun hmod => not_modEq_of_lt (by omega) (by omega) hmod.symm
    · exact fun hmod => not_modEq_of_lt hstop (by omega) hmod.symm
  · rw [cellAt_moved] at hb
    split_ifs at hb with hnew hold
    · cases hb
      exact h.placed_moved hc hlt hold
    · exact h.placed_kept hc hb
  · intro e b he he'
    omega

/-- At an empty slot no cell is left that is searched through the hole. -/
theorem closed (h : Open t first hole d stop) (hnone : t.cellAt (hole + d) = none) {i : ℕ}
    (hc : t.cellAt i = some c) : t.Placed (fun _ => False) i c := by
  have hp := h.placed hc
  have hle := hp.le_length
  have hpos := h.pos
  refine ⟨hp.pos, hle, hp.home, fun e he _ => hp.path e he fun hmod => ?_⟩
  -- the cell would be `e` slots behind the hole
  have hi : i ≡ hole + e [MOD t.length] := by
    have := hmod.add_right e
    rw [Nat.sub_add_cancel (by omega)] at this
    exact (by simp [Nat.ModEq] : i ≡ i + t.length [MOD t.length]).trans this
  rw [cellAt_congr hi] at hc
  rcases Nat.lt_or_ge e d with hlt | hge
  · rcases Nat.eq_zero_or_pos e with rfl | he0
    · rw [Nat.add_zero, h.hole_empty] at hc
      cases hc
    · have := h.stay he0 hlt hc
      omega
  · -- the empty slot would be on its path
    have haddr : i + t.length - (e - d) ≡ hole + d [MOD t.length] := by
      apply Nat.ModEq.add_right_cancel' (e - d)
      rw [Nat.sub_add_cancel (by omega), show hole + d + (e - d) = hole + e by omega]
      exact (by simp [Nat.ModEq] : i + t.length ≡ i [MOD t.length]).trans hi
    have hocc := hp.path (e - d) (by omega) fun hgap =>
      not_modEq_of_lt (n := t.length) (i := hole) (j := hole + d) (by omega) (by omega)
        (haddr.symm.trans hgap).symm
    rw [cellAt_congr haddr, hnone] at hocc
    cases hocc

end Open

/-! ### Closing the hole -/

/-- Closing a hole ends at an empty slot. Before that, the next cell stays or is moved, and the same is told of
what is left to be done. -/
theorem Open.closeGap_induction {first stop : ℕ} {motive : Table ν → ℕ → ℕ → Table ν → Prop}
    (closed : ∀ {t hole d}, Open t first hole d stop → t.cellAt (hole + d) = none → motive t hole d t)
    (stay : ∀ {t hole d c u}, Open t first hole d stop → t.cellAt (hole + d) = some c → c.probes ≤ d →
      motive t hole (d + 1) u → motive t hole d u)
    (move : ∀ {t hole d c u}, Open t first hole d stop → t.cellAt (hole + d) = some c → d < c.probes →
      motive (t.moved hole d c) (hole + d) 1 u → motive t hole d u)
    (steps : ℕ) {hole d : ℕ} (h : Open t first hole d stop) (hsteps : stop < hole + d + steps) :
    motive t hole d (closeGap steps t hole d) := by
  induction steps generalizing t hole d with
  | zero =>
    have := h.le_stop
    omega
  | succ steps ih =>
    rw [Table.closeGap]
    cases hc : t.cellAt (hole + d) with
    | none => exact closed h hc
    | some c =>
      dsimp only
      split_ifs with hlt
      · exact move h hc hlt (ih (h.move hc hlt) (by omega))
      · exact stay h hc (Nat.not_lt.mp hlt) (ih (h.skip hc (Nat.not_lt.mp hlt)) (by omega))

/-- What closing a hole leaves as it is: all that is asked of the table, but for the places of the
cells between `first` and the empty slot at `stop`. -/
structure Closes (t : Table ν) (first stop : ℕ) (u : Table ν) : Prop where
  /-- The length. -/
  lgLength_eq : u.lgLength = t.lgLength
  /-- The number of counters. -/
  active_eq : u.active = t.active
  /-- The entries. -/
  perm : u.entries.Perm t.entries
  /-- The empty slot ahead. -/
  stop_empty : u.cellAt stop = none
  /-- What the counts between have in common. -/
  counts : ∀ p : ν → Prop,
    (∀ i c, first ≤ i → i < stop → t.cellAt i = some c → p c.count) →
    ∀ i c, first ≤ i → i < stop → u.cellAt i = some c → p c.count

namespace Closes

variable {first hole d stop : ℕ} {u w : Table ν}

theorem refl (h : t.cellAt stop = none) : Closes t first stop t :=
  ⟨rfl, rfl, .refl _, h, fun _ hp => hp⟩

theorem trans (h : Closes t first stop u) (h' : Closes u first stop w) : Closes t first stop w where
  lgLength_eq := h'.lgLength_eq.trans h.lgLength_eq
  active_eq := h'.active_eq.trans h.active_eq
  perm := h'.perm.trans h.perm
  stop_empty := h'.stop_empty
  counts p hp := h'.counts p (h.counts p hp)

/-- A move of one cell. -/
theorem moved {c : Cell ν} (h : Open t first hole d stop) (hc : t.cellAt (hole + d) = some c)
    (hlt : d < c.probes) : Closes t first stop (t.moved hole d c) where
  lgLength_eq := rfl
  active_eq := rfl
  perm := by
    have hle := (h.placed hc).le_length
    have hpos := h.pos
    have hne : ¬ hole + d ≡ hole [MOD t.length] := fun hmod =>
      not_modEq_of_lt (by omega) (by omega) hmod.symm
    have hput := entries_setCell_some (c := { c with probes := c.probes - d }) h.hole_empty
    have hc' : (t.setCell hole (some { c with probes := c.probes - d })).cellAt (hole + d) = some c := by
      rw [cellAt_setCell_of_not_modEq hne, hc]
    exact List.Perm.cons_inv ((entries_perm_cons hc').symm.trans hput)
  stop_empty := (h.move hc hlt).stop_empty
  counts := by
    intro p hp i b hi hi' hb
    have hstop := h.lt_stop hc
    have hfirst := h.first_le
    rw [cellAt_moved] at hb
    split_ifs at hb with h₁ h₂
    · cases hb
      exact hp (hole + d) c (by omega) hstop hc
    · exact hp i b hi hi' hb

end Closes

/-- **A hole is closed** before the empty slot ahead is passed. -/
theorem Open.closeGap {first hole d stop : ℕ} (steps : ℕ) (h : Open t first hole d stop)
    (hsteps : stop < hole + d + steps) :
    Closes t first stop (closeGap steps t hole d) ∧
      ∀ {i : ℕ} {c : Cell ν}, (Table.closeGap steps t hole d).cellAt i = some c →
        (Table.closeGap steps t hole d).Placed (fun _ => False) i c := by
  refine Open.closeGap_induction (motive := fun t _ _ u => Closes t first stop u ∧
    ∀ {i : ℕ} {c : Cell ν}, u.cellAt i = some c → u.Placed (fun _ => False) i c) ?_ ?_ ?_ steps h hsteps
  · intro t hole d h hc
    exact ⟨.refl h.stop_empty, h.closed hc⟩
  · intro t hole d c u _ _ _ hrest
    exact hrest
  · intro t hole d c u h hc hlt ⟨hcloses, hplaced⟩
    exact ⟨(Closes.moved h hc hlt).trans hcloses, hplaced⟩

/-! ### Removal of one cell -/

/-- From an occupied slot on, the slots are occupied up to an empty one, less than a turn away. -/
theorem Layout.exists_stop (h : Layout t) {i : ℕ} (hi : (t.cellAt i).isSome) :
    ∃ stop, i < stop ∧ stop < i + t.length ∧ t.cellAt stop = none ∧
      ∀ j, i ≤ j → j < stop → (t.cellAt j).isSome := by
  obtain ⟨k, -, hempty⟩ := h.exists_empty
  obtain ⟨d, hd, hmod⟩ := exists_modEq t.length_pos k i
  rw [← cellAt_congr hmod] at hempty
  have hfree : ∃ e, t.cellAt (i + e) = none := ⟨d, hempty⟩
  have hfirst : t.cellAt (i + Nat.find hfree) = none := Nat.find_spec hfree
  have hle : Nat.find hfree ≤ d := Nat.find_min' hfree hempty
  have hpos : 0 < Nat.find hfree := by
    rw [Nat.find_pos, Nat.add_zero]
    exact Option.isSome_iff_ne_none.mp hi
  refine ⟨i + Nat.find hfree, by omega, by omega, hfirst, fun j hj hlt => ?_⟩
  have hbefore := Nat.find_min hfree (m := j - i) (by omega)
  rwa [Nat.add_sub_cancel' hj, ← ne_eq, ← Option.isSome_iff_ne_none] at hbefore

/-- What a removal of the entry `e` from the address `i` does, when the slot at `stop` is empty. -/
structure Removes (t : Table ν) (i stop : ℕ) (e : ℤ × ν) (u : Table ν) : Prop where
  /-- The cells that are left can be found. -/
  layout : Layout u
  /-- The length stays. -/
  lgLength_eq : u.lgLength = t.lgLength
  /-- One entry is gone. -/
  perm : t.entries.Perm (e :: u.entries)
  /-- The empty slot stays empty. -/
  stop_empty : u.cellAt stop = none
  /-- The counts between are those that were behind the removed cell. -/
  counts : ∀ p : ν → Prop,
    (∀ j c, i < j → j < stop → t.cellAt j = some c → p c.count) →
    ∀ j c, i ≤ j → j < stop → u.cellAt j = some c → p c.count

/-- A cell that is taken out of a layout leaves a hole. -/
theorem Layout.hole (h : Layout t) {i stop : ℕ} (hi : i < stop) (hstop : stop < i + t.length)
    (hempty : t.cellAt stop = none) : Open (t.emptied i) i i 1 stop := by
  have hl : (t.emptied i).length = t.length := t.length_emptied i
  refine ⟨le_rfl, Nat.one_pos, hi, hl ▸ hstop, cellAt_emptied_self rfl, ?_, fun {j b} hb => ?_, ?_⟩
  · rw [cellAt_emptied_of_not_modEq fun hmod => not_modEq_of_lt hi hstop hmod.symm]
    exact hempty
  · by_cases hj : j ≡ i [MOD t.length]
    · rw [cellAt_emptied_self hj] at hb
      cases hb
    · rw [cellAt_emptied_of_not_modEq hj] at hb
      have hp := h.placed hb
      have hgap : t.Placed (· ≡ i [MOD t.length]) j b :=
        ⟨hp.pos, hp.le_length, hp.home, fun e he _ => hp.path e he id⟩
      rw [hl]
      exact hgap.mono hl fun k hk hsome => (cellAt_emptied_of_not_modEq hk).symm ▸ hsome
  · intro e b he he'
    omega

/-- **A removal takes one entry away.** -/
theorem Layout.remove (h : Layout t) {i stop : ℕ} {c : Cell ν} (hc : t.cellAt i = some c)
    (hi : i < stop) (hstop : stop < i + t.length) (hempty : t.cellAt stop = none) :
    Removes t i stop (c.item, c.count) (t.remove i) := by
  have hopen : Open (t.emptied i) i i 1 stop := h.hole hi hstop hempty
  obtain ⟨hcloses, hplaced⟩ := hopen.closeGap t.length (by omega)
  rw [← remove_eq] at hcloses hplaced
  have hperm : t.entries.Perm ((c.item, c.count) :: (t.remove i).entries) :=
    (entries_perm_cons hc).trans (hcloses.perm.symm.cons _)
  have hlength := hperm.length_eq
  rw [List.length_cons, length_entries, length_entries, ← h.active_eq] at hlength
  have hl : (t.remove i).length = t.length := length_remove t i
  have hactive : (t.remove i).active = t.active - 1 := hcloses.active_eq
  refine ⟨⟨?_, ?_, hplaced, ?_⟩, hcloses.lgLength_eq, hperm, hcloses.stop_empty, ?_⟩
  · omega
  · have := h.active_lt
    omega
  · have hitems := h.distinct
    rw [items_eq, (hperm.map Prod.fst).nodup_iff, List.map_cons, List.nodup_cons] at hitems
    rw [items_eq]
    exact hitems.2
  · intro p hp
    refine hcloses.counts p fun j b hj hj' hb => ?_
    rcases Nat.lt_or_eq_of_le hj with hlt | rfl
    · rw [cellAt_emptied_of_not_modEq fun hmod => not_modEq_of_lt hlt (by omega) hmod.symm] at hb
      exact hp j b hlt hj' hb
    · rw [cellAt_emptied_self rfl] at hb
      cases hb

/-! ### Sweeps -/

/-- A number with the property is not missed. -/
private theorem lastBelow_ne_none {p : ℕ → Bool} {n k : ℕ} (hk : k < n) (hp : p k = true) :
    lastBelow p n ≠ none := by
  induction n with
  | zero => omega
  | succ n ih =>
    rw [lastBelow]
    split_ifs with hn
    · simp
    · rcases Nat.lt_or_eq_of_le (Nat.le_of_lt_succ hk) with hlt | rfl
      · exact ih hlt
      · exact absurd hp hn

/-- There is a last empty slot. -/
theorem Layout.exists_lastEmpty (h : Layout t) : ∃ i, t.lastEmpty? = some i ∧ t.cellAt i = none := by
  obtain ⟨k, hk, hempty⟩ := h.exists_empty
  obtain ⟨i, hi⟩ := Option.ne_none_iff_exists'.mp
    (lastBelow_ne_none (p := fun i => (t.cellAt i).isNone) hk (by simp [hempty]))
  exact ⟨i, hi, by simpa using (lastBelow_eq_some_iff.mp hi).2.1⟩

variable [Amount ν]

/-- The addresses of a turn that starts with an empty slot have been swept down to `start + n`. -/
structure Swept (t : Table ν) (start n : ℕ) : Prop where
  /-- The cells can be found. -/
  layout : Layout t
  /-- The turn starts with an empty slot. -/
  start_empty : t.cellAt start = none
  /-- No cell that was swept is spent. -/
  clean : ∀ i c, start + n ≤ i → i < start + t.length → t.cellAt i = some c →
    Amount.isSpent c.count = false

/-- What is kept of an entry list. -/
def unspent (es : List (ℤ × ν)) : List (ℤ × ν) := es.filter fun e => !Amount.isSpent e.2

/-- One more address is swept. -/
private theorem Swept.removeSpent {start n : ℕ} (h : Swept t start (n + 1)) (hn : n + 1 ≤ t.length) :
    let u := t.removeSpent (start + n)
    Swept u start n ∧ u.lgLength = t.lgLength ∧ (unspent u.entries).Perm (unspent t.entries) := by
  intro u
  -- an address at which nothing was to be done has been swept
  have hsame : (∀ c, t.cellAt (start + n) = some c → Amount.isSpent c.count = false) →
      Swept t start n := fun hhere => by
    refine ⟨h.layout, h.start_empty, fun i c hi hi' hc => ?_⟩
    rcases Nat.lt_or_eq_of_le hi with hlt | rfl
    · exact h.clean i c hlt hi' hc
    · exact hhere c hc
  cases hc : t.cellAt (start + n) with
  | none =>
    have hu : u = t := by simp [u, Table.removeSpent, hc]
    rw [hu]
    exact ⟨hsame (by simp [hc]), rfl, .refl _⟩
  | some c =>
    cases hspent : Amount.isSpent c.count with
    | false =>
      have hu : u = t := by simp [u, Table.removeSpent, hc, hspent]
      rw [hu]
      refine ⟨hsame fun b hb => ?_, rfl, .refl _⟩
      rw [hc, Option.some.injEq] at hb
      exact hb ▸ hspent
    | true =>
      have hu : u = t.remove (start + n) := by simp [u, Table.removeSpent, hc, hspent]
      rw [hu]
      have hpos : 0 < n := by
        rcases Nat.eq_zero_or_pos n with rfl | hpos
        · rw [Nat.add_zero, h.start_empty] at hc
          cases hc
        · exact hpos
      have hend : t.cellAt (start + t.length) = none := by
        rw [cellAt_add_length]
        exact h.start_empty
      obtain ⟨hlayout, hlg, hperm, hstop, hcounts⟩ :=
        h.layout.remove hc (show start + n < start + t.length by omega) (by omega) hend
      have hl : (t.remove (start + n)).length = t.length := length_remove t _
      refine ⟨⟨hlayout, ?_, fun i b hi hi' hb => ?_⟩, hlg, ?_⟩
      · rw [← hl, cellAt_add_length] at hstop
        exact hstop
      · exact hcounts (fun m => Amount.isSpent m = false)
          (fun j d hj hj' hd => h.clean j d (by omega) hj' hd) i b hi (hl ▸ hi') hb
      · refine ((hperm.filter _).trans (List.Perm.of_eq ?_)).symm
        simp [hspent, unspent]

/-- A sweep of the next `n` addresses. -/
theorem Swept.sweep {start m n : ℕ} (h : Swept t start (m + n)) (hn : m + n ≤ t.length) :
    let u := t.sweep (start + m) n
    Swept u start m ∧ u.lgLength = t.lgLength ∧ (unspent u.entries).Perm (unspent t.entries) := by
  induction n generalizing t with
  | zero => exact ⟨h, rfl, .refl _⟩
  | succ n ih =>
    rw [← Nat.add_assoc] at h hn
    obtain ⟨hstep, hlg, hperm⟩ := h.removeSpent hn
    have hl : (t.removeSpent (start + (m + n))).length = t.length := length_removeSpent t _
    obtain ⟨hrun, hlg', hperm'⟩ := ih hstep (by omega)
    rw [Table.sweep, Nat.add_assoc]
    exact ⟨hrun, hlg'.trans hlg, hperm'.trans hperm⟩

/-- Before a sweep that starts behind the last empty slot nothing has been swept. -/
theorem Layout.swept (h : Layout t) : Swept t (t.lastEmpty?.getD 0) t.length := by
  obtain ⟨start, hstart, hempty⟩ := h.exists_lastEmpty
  rw [hstart]
  exact ⟨h, hempty, fun i c hi hi' _ => absurd hi' (by omega)⟩

/-- **What is left after a sweep are the entries that are not spent.** -/
theorem Layout.keepPositive (h : Layout t) :
    Layout t.keepPositive ∧ t.keepPositive.lgLength = t.lgLength ∧
      t.keepPositive.entries.Perm (unspent t.entries) := by
  have hswept := h.swept
  rw [Table.keepPositive]
  generalize t.lastEmpty?.getD 0 = start at hswept ⊢
  rw [← Nat.zero_add t.length] at hswept
  obtain ⟨hrun, hlg, hperm⟩ := hswept.sweep (Nat.zero_add t.length).le
  rw [Nat.add_zero] at hrun hlg hperm
  refine ⟨hrun.layout, hlg, List.Perm.trans (List.Perm.of_eq ?_) hperm⟩
  -- no cell that is left is spent
  refine (List.filter_eq_self.mpr fun e he => ?_).symm
  obtain ⟨c, hc, rfl⟩ := List.mem_map.mp he
  obtain ⟨i, hi⟩ := mem_cells_iff.mp hc
  obtain ⟨d, hd, hmod⟩ := exists_modEq (t.sweep start t.length).length_pos i start
  rw [← cellAt_congr hmod] at hi
  simpa using hrun.clean (start + d) c (by omega) (by omega) hi

end HeavyHitters.Table
