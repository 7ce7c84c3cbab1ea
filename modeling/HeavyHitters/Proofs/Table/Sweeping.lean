import HeavyHitters.Proofs.Table.Dropping
import HeavyHitters.Proofs.Table.Loops

/-!
# The scan for spent counts

The spent counters of a table are removed while it is walked over, and each removal may move other cells
into the hole. The walk is made of two scans, both against the direction of the search: one from the last
empty slot back to the first slot, and one from the end of the table back to the empty slot. In addresses
these are one turn, which begins right before the empty slot and ends at it.

A removal moves cells only from behind the hole, and no further than to the hole. What is behind the hole
has been looked at, so what is ahead of the scan is as it was, and no spent count comes past the scan. Nothing
in this is different where a run of cells goes around the end of the table.

Neither does it matter how the counts came to be spent: they are any integers here, and all that is asked of
the table is that its probe runs are in order, one empty slot included.

## What is proved

* `cellAt_remove_of_le`, `cellAt_sweep_of_lt`: what a removal, and a sweep, leave alone.
* `Scanned`, `Layout.scanned`: where a scan stands, whatever it has left to look at.
* `keeps_positive`: what the two scans leave are exactly the positive counts.
-/

namespace HeavyHitters.Table

/-! ### What is left alone -/

section Frame

variable {ν : Type} {t : Table ν}

/-- A hole is closed with cells from before the next empty slot. From there on, up to where the turn comes
back to the hole, nothing changes. -/
theorem cellAt_closeGap_of_le (steps : ℕ) {hole d stop i : ℕ} (hpos : 0 < d) (hle : hole + d ≤ stop)
    (hempty : t.cellAt stop = none) (hi : stop ≤ i) (hturn : i < hole + t.length) :
    (closeGap steps t hole d).cellAt i = t.cellAt i := by
  induction steps generalizing t hole d with
  | zero => rfl
  | succ steps ih =>
    rw [closeGap]
    cases hc : t.cellAt (hole + d) with
    | none => rfl
    | some c =>
      have hlt : hole + d < stop := by
        refine lt_of_le_of_ne hle fun heq => ?_
        rw [heq, hempty] at hc
        cases hc
      dsimp only
      split_ifs with hmove
      · have hkept : ∀ j, stop ≤ j → j ≤ i → (t.moved hole d c).cellAt j = t.cellAt j := fun j hj hj' => by
          rw [cellAt_moved, if_neg, if_neg]
          · exact fun hmod => not_modEq_of_lt (show hole < j by omega) (by omega) hmod.symm
          · exact fun hmod => not_modEq_of_lt (show hole + d < j by omega) (by omega) hmod.symm
        have hl : (t.moved hole d c).length = t.length := length_moved t hole d c
        exact (ih Nat.one_pos hlt ((hkept stop le_rfl hi).trans hempty) (by omega)).trans (hkept i hi le_rfl)
      · exact ih (Nat.succ_pos d) hlt hempty hturn

/-- A removal changes nothing from the next empty slot on, up to where the turn comes back to the removed
cell. -/
theorem cellAt_remove_of_le {p stop i : ℕ} (hp : p < stop) (hempty : t.cellAt stop = none) (hi : stop ≤ i)
    (hturn : i < p + t.length) : (t.remove p).cellAt i = t.cellAt i := by
  have hother : ∀ j, p < j → j < p + t.length → (t.emptied p).cellAt j = t.cellAt j :=
    fun j hj hj' => cellAt_emptied_of_not_modEq fun hmod => not_modEq_of_lt hj hj' hmod.symm
  have hempty' : (t.emptied p).cellAt stop = none := (hother stop hp (by omega)).trans hempty
  rw [remove_eq, cellAt_closeGap_of_le _ Nat.one_pos hp hempty' hi (by rwa [length_emptied])]
  exact hother i (by omega) hturn

/-- A removal changes nothing between an empty slot and the removed cell. -/
theorem cellAt_remove_of_lt {start n i : ℕ} (hempty : t.cellAt start = none) (hn : n < t.length)
    (hi : start ≤ i) (hlt : i < start + n) : (t.remove (start + n)).cellAt i = t.cellAt i := by
  -- one turn later, both are behind the removed cell
  rw [← cellAt_add_length, length_remove, ← cellAt_add_length t i]
  rw [← cellAt_add_length] at hempty
  exact cellAt_remove_of_le (by omega) hempty (by omega) (by omega)

variable [Amount ν]

/-- A sweep changes nothing between the empty slot at which its turn ends and what it has come to. -/
theorem cellAt_sweep_of_lt {start m n i : ℕ} (hempty : t.cellAt start = none) (hn : m + n ≤ t.length)
    (hi : start ≤ i) (hlt : i < start + m) : (t.sweep (start + m) n).cellAt i = t.cellAt i := by
  induction n generalizing t with
  | zero => rfl
  | succ n ih =>
    have hstep : ∀ j, start ≤ j → j < start + (m + n) →
        (t.removeSpent (start + (m + n))).cellAt j = t.cellAt j := fun j hj hj' => by
      rcases t.removeSpent_cases (start + (m + n)) with h | h
      · rw [h]
      · rw [h, cellAt_remove_of_lt hempty (by omega) hj hj']
    have hl : (t.removeSpent (start + (m + n))).length = t.length := length_removeSpent t _
    rw [sweep, Nat.add_assoc, ih ((hstep start le_rfl (by omega)).trans hempty) (by omega)]
    exact hstep i hi (by omega)

end Frame

/-! ### The scan -/

/-- The entries with a positive count. -/
def positives (t : Table ℤ) : Entries := t.entries.filter fun e => 0 < e.2

/-- Where the scan of the table `t` stands when the addresses from `start` to `start + m` are left to be
looked at, and `u` is what the table has become. -/
structure Scanned (t : Table ℤ) (start m : ℕ) (u : Table ℤ) : Prop where
  /-- The probe runs are in order. -/
  probeRuns : u.ProbeRuns
  /-- No slot has been added or lost. -/
  length_eq : u.length = t.length
  /-- What is ahead of the scan is as it was. -/
  ahead : ∀ i, start ≤ i → i < start + m → u.cellAt i = t.cellAt i
  /-- What is behind it has a positive count. -/
  behind : ∀ i c, start + m ≤ i → i < start + t.length → u.cellAt i = some c → 0 < c.count
  /-- No positive count has been lost or changed. -/
  positives_perm : u.positives.Perm t.positives

/-- The entries that are kept are those with a positive count. -/
theorem unspent_entries (t : Table ℤ) : unspent t.entries = t.positives := by
  refine List.filter_congr fun e _ => ?_
  rw [Amount.isSpent_int, ← decide_not, decide_eq_decide]
  exact Int.not_le

/-- **Where a scan stands** after the first `n` addresses of the turn that ends at an empty slot. -/
theorem Layout.scanned {t : Table ℤ} (h : Layout t) {start m n : ℕ} (hempty : t.cellAt start = none)
    (hn : m + n = t.length) : t.Scanned start m (t.sweep (start + m) n) := by
  have hswept : Swept t start (m + n) := ⟨h, hempty, fun i c hi hi' _ => absurd hi' (by omega)⟩
  obtain ⟨hrun, -, hperm⟩ := hswept.sweep hn.le
  have hl : (t.sweep (start + m) n).length = t.length := length_sweep t _ n
  refine ⟨hrun.layout.probeRuns, hl, fun i hi hlt => cellAt_sweep_of_lt hempty hn.le hi hlt,
    fun i c hi hlt hc => ?_, ?_⟩
  · simpa using hrun.clean i c hi (hl ▸ hlt) hc
  · rwa [unspent_entries, unspent_entries] at hperm

/-- **What the scans leave are exactly the positive counts**, with what they count, and their number is the
number of counters. The table may have any counts, as long as its probe runs are in order. Wherever the two
scans stand, what is ahead has not been touched, and nothing behind is spent. -/
theorem keeps_positive {t : Table ℤ} (h : t.ProbeRuns) :
    t.keepPositive.ProbeRuns ∧ t.keepPositive.length = t.length ∧
      t.keepPositive.entries.Perm t.positives ∧ t.keepPositive.active = t.positives.length ∧
      ∃ start, t.lastEmpty? = some start ∧ t.cellAt start = none ∧
        t.keepPositive = (t.sweep t.length start).sweep start (t.length - start) ∧
        ∀ m n, m + n = t.length → t.Scanned start m (t.sweep (start + m) n) := by
  have hlayout := h.layout
  obtain ⟨start, hstart, hempty⟩ := hlayout.exists_lastEmpty
  have hlt : start < t.length := (lastBelow_eq_some_iff.mp hstart).1
  obtain ⟨hkept, -, hperm⟩ := hlayout.keepPositive
  rw [unspent_entries] at hperm
  refine ⟨hkept.probeRuns, length_keepPositive t, hperm, ?_, start, hstart, hempty, ?_,
    fun m n hn => hlayout.scanned hempty hn⟩
  · rw [hkept.active_eq, ← length_entries, hperm.length_eq]
  · have hsplit : t.length - start + start = t.length := Nat.sub_add_cancel hlt.le
    rw [keepPositive_eq_of_sweeping hsplit, hstart, Option.getD_some, Nat.add_sub_cancel' hlt.le]

/-- Seven items in eight slots, four of which have nothing left after a subtraction. -/
def lessened : Table ℤ := (ascending.subtract 4).state

/-- Its one empty slot is the third, and the item five has gone around the end of the table. By the time the
scan has looked at the last slot, two removals have moved that item back into it, and the next one moves it
on. -/
theorem keeps_positive_lessened :
    lessened.ProbeRuns ∧ lessened.active = 7 ∧ lessened.cellAt 1 = some ⟨5, 2, 5⟩ ∧
      lessened.keepPositive.ProbeRuns ∧ lessened.keepPositive.entries = [(6, 3), (4, 1), (5, 2)] ∧
      lessened.keepPositive.active = 3 ∧
      lessened.Scanned 2 5 (lessened.sweep 7 3) ∧ (lessened.sweep 7 3).cellAt 7 = some ⟨5, 2, 3⟩ := by
  have hreachable : ascending.Reachable := reachable_counted _ _
  obtain ⟨u, hu, hholds⟩ := hreachable.holds.subtract 4
  obtain rfl : (ascending.subtract 4).state = u := congrArg Outcome.state hu
  have hruns : lessened.ProbeRuns := hholds.layout.probeRuns
  obtain ⟨hkept, -, -, -, start, hstart, -, -, hscan⟩ := keeps_positive hruns
  have hlast : lessened.lastEmpty? = some 2 := by decide +kernel
  obtain rfl : 2 = start := Option.some.inj (hlast.symm.trans hstart)
  exact ⟨hruns, by decide +kernel, by decide +kernel, hkept, by decide +kernel, by decide +kernel,
    hscan 5 3 (by decide +kernel), by decide +kernel⟩

end HeavyHitters.Table
