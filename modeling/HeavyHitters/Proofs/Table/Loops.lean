import HeavyHitters.Proofs.Table.ProbeRuns
import HeavyHitters.Proofs.Table.Refinement
import Mathlib.Computability.StateTransition

/-!
# Loops that end

A table is probed by three loops: the search for an item goes on to the next slot as long as there is
another item, the search for the last empty slot goes back from the end, and the loop that closes a hole
looks at one slot after the other, and may move a cell on the way. None of them counts its rounds. They
are said here round by round, and each ends because one slot of the table is empty, and ends in what is
computed with a bound on the rounds.

This is so not only between two requests. While a table is resized its entries are put into a longer one,
and while it is purged the spent cells are removed one after the other. In between there are tables of
which no request has been told (`Stage`), and there, too, the probe runs are in order.

## What is proved

* `Layout.search_ends`, `Layout.lastEmpty_ends`, `Layout.shift_ends`: in a table with a layout each loop ends.
* `rehash_eq_of_filling`, `keepPositive_eq_of_sweeping`: where the tables in the middle of a request lead.
* `Stage.layout`: tables in the middle of a request have a layout.
* `probing_ends`: all this for every table that requests can make.
-/

namespace HeavyHitters.Table

open StateTransition

variable {ν : Type} {t : Table ν}

/-! ### Rounds -/

/-- One round of the search for an item, at `d` slots from its home: it ends there, or goes on to the next
slot. -/
def searchRound (t : Table ν) (item : ℤ) (d : ℕ) : Option ℕ :=
  if t.endsAt item (t.home item + d) then none else some (d + 1)

/-- One round of the search for the last empty slot, at the slot `i`: it ends there, or goes back to the
slot before. -/
def emptyRound (t : Table ν) (i : ℕ) : Option ℕ :=
  if (t.cellAt i).isNone then none else some (i - 1)

/-- Where the loop that closes a hole stands. -/
structure Shift (ν : Type) where
  /-- The table. -/
  table : Table ν
  /-- The address of the hole. -/
  hole : ℕ
  /-- How far behind the hole the next slot to look at is. -/
  behind : ℕ

/-- One round of the loop that closes a hole: it ends at an empty slot. A cell that may stand in the hole is
moved there, and the loop goes on behind the hole that this leaves. Any other cell stays. -/
def Shift.round (x : Shift ν) : Option (Shift ν) :=
  match x.table.cellAt (x.hole + x.behind) with
  | none => none
  | some c =>
    if x.behind < c.probes then some ⟨x.table.moved x.hole x.behind c, x.hole + x.behind, 1⟩
    else some { x with behind := x.behind + 1 }

/-- The loops in a table end, and where. -/
structure LoopsEnd (t : Table ν) : Prop where
  /-- The search for any item. -/
  search : ∀ item, ∃ d ∈ eval (t.searchRound item) 0, t.distance? item = some d
  /-- The search for the last empty slot. -/
  lastEmpty : ∃ i ∈ eval t.emptyRound (t.length - 1), t.lastEmpty? = some i
  /-- The closing of the hole that a removed cell leaves, whichever it is. -/
  shift : ∀ i, (t.cellAt i).isSome → ∃ x ∈ eval Shift.round ⟨t.emptied i, i, 1⟩, x.table = t.remove i

/-! ### Ends -/

/-- A loop that counts up goes on to the first number where it does not. -/
private theorem reaches_up {f : ℕ → Option ℕ} {n : ℕ} (h : ∀ e < n, f e = some (e + 1)) :
    Reaches f 0 n := by
  induction n with
  | zero => exact .refl
  | succ n ih => exact (ih fun e he => h e (by omega)).tail (h n (Nat.lt_succ_self n))

/-- So does a loop that counts down. -/
private theorem reaches_down {f : ℕ → Option ℕ} {k m : ℕ}
    (h : ∀ e, k < e → e ≤ k + m → f e = some (e - 1)) : Reaches f (k + m) k := by
  induction m with
  | zero => exact .refl
  | succ m ih => exact .head (h (k + m + 1) (by omega) le_rfl) (ih fun e he he' => h e he (by omega))

/-- **The search for an item ends.** -/
theorem Layout.search_ends (h : Layout t) (item : ℤ) :
    ∃ d ∈ eval (t.searchRound item) 0, t.distance? item = some d := by
  obtain ⟨d, hd, -⟩ := h.exists_distance item
  obtain ⟨-, -, hstop, hgo⟩ := firstFrom_eq_some_iff.mp hd
  refine ⟨d, mem_eval.mpr ⟨reaches_up fun e he => ?_, ?_⟩, hd⟩
  · simp [searchRound, hgo e (Nat.zero_le e) he]
  · simp [searchRound, hstop]

/-- **The search for the last empty slot ends.** -/
theorem Layout.lastEmpty_ends (h : Layout t) :
    ∃ i ∈ eval t.emptyRound (t.length - 1), t.lastEmpty? = some i := by
  obtain ⟨i, hi, hempty⟩ := h.exists_lastEmpty
  obtain ⟨hlt, -, hgo⟩ := lastBelow_eq_some_iff.mp hi
  refine ⟨i, mem_eval.mpr ⟨?_, by simp [emptyRound, hempty]⟩, hi⟩
  obtain ⟨m, hm⟩ := Nat.exists_eq_add_of_le (Nat.le_sub_one_of_lt hlt)
  rw [hm]
  refine reaches_down fun e he he' => ?_
  have hsome : (t.cellAt e).isNone = false := hgo e he (by omega)
  simp [emptyRound, hsome]

/-- The loop that closes a hole ends before the empty slot ahead is passed. -/
theorem Open.shift_ends {first hole d stop : ℕ} (steps : ℕ) (h : Open t first hole d stop)
    (hsteps : stop < hole + d + steps) :
    ∃ x ∈ eval Shift.round ⟨t, hole, d⟩, x.table = Table.closeGap steps t hole d := by
  refine Open.closeGap_induction (motive := fun t hole d u => ∃ x ∈ eval Shift.round ⟨t, hole, d⟩, x.table = u)
    ?_ ?_ ?_ steps h hsteps
  · intro t hole d _ hc
    exact ⟨⟨t, hole, d⟩, mem_eval.mpr ⟨.refl, by simp [Shift.round, hc]⟩, rfl⟩
  · intro t hole d c u _ hc hle hrest
    have hround : Shift.round ⟨t, hole, d⟩ = some ⟨t, hole, d + 1⟩ := by
      simp [Shift.round, hc, Nat.not_lt.mpr hle]
    rwa [reaches_eval (.single hround)]
  · intro t hole d c u _ hc hlt hrest
    have hround : Shift.round ⟨t, hole, d⟩ = some ⟨t.moved hole d c, hole + d, 1⟩ := by
      simp [Shift.round, hc, hlt]
    rwa [reaches_eval (.single hround)]

/-- **The loop that closes the hole of a removed cell ends.** -/
theorem Layout.shift_ends (h : Layout t) {i : ℕ} (hi : (t.cellAt i).isSome) :
    ∃ x ∈ eval Shift.round ⟨t.emptied i, i, 1⟩, x.table = t.remove i := by
  obtain ⟨stop, hstop, hturn, hempty, -⟩ := h.exists_stop hi
  rw [remove_eq]
  exact (h.hole hstop hturn hempty).shift_ends t.length (by omega)

theorem Layout.loopsEnd (h : Layout t) : t.LoopsEnd where
  search := h.search_ends
  lastEmpty := h.lastEmpty_ends
  shift _ hi := h.shift_ends hi

/-! ### In the middle of a request -/

/-- The tables that are probed while a request to the table `t` is served. -/
inductive Stage (t : Table ℤ) : Table ℤ → Prop
  /-- The table itself. -/
  | whole : Stage t t
  /-- A longer table into which some of the entries have been put. -/
  | filling {lg : ℕ} {es : Entries} {u : Table ℤ} (hlg : t.lgLength < lg) (hes : es <+: t.entries)
      (hu : es.foldlM (fun u e => u.put e.1 e.2) (ofLog2 lg) = .ok u) : Stage t u
  /-- The table with an amount subtracted, in which `n` slots have been swept, and `m` are left. -/
  | sweeping {amount : ℤ} {u : Table ℤ} {m n : ℕ} (hu : t.subtract amount = .ok u)
      (hn : m + n = u.length) : Stage t (u.sweep (u.lastEmpty?.getD 0 + m) n)

/-- A table that has been filled in part is on the way to the longer table with all entries. -/
theorem rehash_eq_of_filling {t u : Table ℤ} {lg : ℕ} {es fs : Entries} (hentries : t.entries = es ++ fs)
    (hu : es.foldlM (fun u e => u.put e.1 e.2) (ofLog2 lg) = .ok u) :
    t.rehash lg = fs.foldlM (fun u e => u.put e.1 e.2) u := by
  rw [rehash, hentries, List.foldlM_append, hu]
  rfl

/-- A sweep can be made in two parts. -/
theorem sweep_add (t : Table ℤ) (start m n : ℕ) :
    t.sweep start (m + n) = (t.sweep (start + m) n).sweep start m := by
  induction n generalizing t with
  | zero => rfl
  | succ n ih =>
    rw [← Nat.add_assoc, sweep, ih, sweep, Nat.add_assoc]

/-- A table that has been swept in part is on the way to the one without spent counts. -/
theorem keepPositive_eq_of_sweeping {u : Table ℤ} {m n : ℕ} (hn : m + n = u.length) :
    u.keepPositive = (u.sweep (u.lastEmpty?.getD 0 + m) n).sweep (u.lastEmpty?.getD 0) m := by
  rw [keepPositive, ← hn, sweep_add]

/-- **Tables in the middle of a request have a layout.** -/
theorem Stage.layout {t u : Table ℤ} (h : Layout t) (hs : t.Stage u) : Layout u := by
  have hholds := Holds.self h
  cases hs with
  | whole => exact h
  | @filling lg es _ hlg hes hu =>
    have hdistinct : Entries.Distinct es := hholds.distinct.sublist (hes.sublist.map Prod.fst)
    have hroom : es.length < powerOfTwo lg :=
      hes.length_le.trans_lt (hholds.length_lt.trans_le (powerOfTwo_mono hlg.le))
    obtain ⟨w, hw, hfilled⟩ := (Holds.ofLog2 lg).foldlM_put es (by rwa [List.append_nil])
      (by rwa [List.length_nil, Nat.zero_add])
    cases hu.symm.trans hw
    exact hfilled.layout
  | @sweeping amount w m n hw hn =>
    obtain ⟨w', hw', hsubtracted⟩ := hholds.subtract amount
    obtain rfl : w = w' := congrArg Outcome.state (hw.symm.trans hw')
    have hswept := hsubtracted.layout.swept
    rw [← hn] at hswept
    exact (hswept.sweep hn.le).1.layout

/-- **Every probe loop ends**, in every table that requests can make, and in the middle of the next one,
since the probe runs are in order there. -/
theorem probing_ends {t : Table ℤ} (h : t.Reachable) :
    t.ProbeRuns ∧ ∀ u, t.Stage u → u.ProbeRuns ∧ u.LoopsEnd := by
  refine ⟨h.layout.probeRuns, fun u hs => ?_⟩
  have hlayout := hs.layout h.layout
  exact ⟨hlayout.probeRuns, hlayout.loopsEnd⟩

/-- Eight slots, and two items that both have the last one as their home. -/
def wrapped : Table ℤ :=
  (((ofLog2 3 : Table ℤ).serve (.put 2 1 (by decide))).2.serve (.put 8 3 (by decide))).2

/-- The second of them has gone around the end of the table. When a purge has removed the first one, it is
moved back, and one slot is left to be swept. -/
theorem probing_ends_wrapped :
    wrapped.Reachable ∧ wrapped.cellAt 7 = some ⟨2, 1, 1⟩ ∧ wrapped.cellAt 0 = some ⟨8, 3, 2⟩ ∧
      wrapped.ProbeRuns ∧
      ∃ u, wrapped.Stage u ∧ u.cellAt 7 = some ⟨8, 2, 1⟩ ∧ u.active = 1 ∧ u.ProbeRuns ∧ u.LoopsEnd := by
  have hreachable : wrapped.Reachable := .serve (.serve (.ofLog2 3) _) _
  obtain ⟨hruns, hstages⟩ := probing_ends hreachable
  obtain ⟨u, hu, hlength, -⟩ := exists_subtract_int wrapped 1
  have hstage : wrapped.Stage (u.sweep (u.lastEmpty?.getD 0 + 1) 7) := .sweeping hu (by rw [hlength]; rfl)
  obtain rfl : (wrapped.subtract 1).state = u := congrArg Outcome.state hu
  obtain ⟨hruns', hends⟩ := hstages _ hstage
  exact ⟨hreachable, by decide +kernel, by decide +kernel, hruns, _, hstage, by decide +kernel,
    by decide +kernel, hruns', hends⟩

end HeavyHitters.Table
