import HeavyHitters.Proofs.Sketch.Acceptance
import HeavyHitters.Proofs.Sketch.Copies
import HeavyHitters.Proofs.Snapshot.Grammar
import HeavyHitters.Proofs.Snapshot.Normalisation

/-!
# How faithful a loaded sketch is

Bytes and lines need not come from a sketch. Once they are decoded, their entries are counted like any
others, in a fresh table of the recorded length. So entries of one item add up, an entry that counts
nothing gets no counter, and if there are more than the table may hold, it grows or is purged on the way.
None of this is refused. Refused are only numbers that could not be counted if they came one by one: an
item that is no 64-bit integer, and a count that is negative or too great.

So a loaded sketch has the content that was decoded exactly if this is the content of a table, with one
entry for each item, positive counts, and no more entries than the table may hold (`Fitting`). It holds
what the entries of each item add up to as long as the items are few enough for its greatest table
(`AddedUp`). Otherwise it errs as every sketch does, below what was recorded, and by no more than its
offset has grown.

## What is proved

* `Fresh.replay_iff`: which entries can be counted in a fresh sketch.
* `ofSnapshot_iff`, `ofContent_of_ofSnapshot`: which snapshots are loaded, and how others are refused.
* `faithful_iff`: when a loaded sketch has the content of the snapshot.
* `addedUp_of_few`, `few_of_offset_eq`: when nothing is lost while it is loaded.
* `recounted_of_ofSnapshot`: what a loaded sketch has of the snapshot in any case.
* `loads_faithfully_iff`: all this of bytes and lines.
-/

namespace HeavyHitters

/-- The errors that say what is wrong with the content that a sketch is to be loaded from. -/
def Error.OfContent : Error → Prop
  | .corrupt _ | .negativeSnapshot | .wordRange _ _ | .negativeCount | .streamOverflow => True
  | _ => False

/-- They complain about a value. -/
theorem Error.OfContent.kind_eq {e : Error} (h : e.OfContent) : e.kind = .value := by
  cases e <;> first | rfl | cases h

/-- The items of a snapshot whose entries add up to a positive count. -/
def Snapshot.counted (p : Snapshot) : Finset ℤ :=
  (Entries.keys p.entries).toFinset.filter fun x => 0 < Entries.tally p.entries x

theorem Snapshot.mem_counted_iff {p : Snapshot} {x : ℤ} :
    x ∈ p.counted ↔ 0 < Entries.tally p.entries x := by
  rw [counted, Finset.mem_filter, List.mem_toFinset]
  refine and_iff_right_of_imp fun hpos => ?_
  by_contra hnone
  rw [Entries.tally_of_not_mem hnone] at hpos
  exact absurd hpos (lt_irrefl 0)

namespace Sketch

variable {s t : Sketch} {src : DrawSource} {p : Snapshot} {seed : ℤ} {es : Entries}

/-! ### Counting entries -/

/-- Entries that can be counted one after the other. -/
structure Countable (es : Entries) : Prop where
  /-- Items and counts are 64-bit integers. -/
  words : ∀ e ∈ es, IsWord e.1 ∧ IsWord e.2
  /-- No count is negative. -/
  nonneg : ∀ n ∈ es.values, 0 ≤ n
  /-- The counts do not add up to more than a 64-bit integer. -/
  total_le : es.total ≤ maxWord

/-- An integer that is not counted is out of range. -/
private theorem ofContent_of_accept {item count : ℤ} {error : Error}
    (h : s.accept (.int item) (.int count) = .error error) : error.OfContent := by
  cases accept_eq_error_iff.mp h with
  | item h =>
    cases h with
    | kind hnone => cases hnone
    | range => trivial
  | count _ h =>
    cases h with
    | kind hnone => cases hnone
    | range => trivial
  | negative => trivial
  | overflow => trivial

/-- What is counted to the end are 64-bit integers, and no count is negative. -/
private theorem accepted_of_replay (hok : (s.replay src es).failure = none) :
    ∀ e ∈ es, IsWord e.1 ∧ IsWord e.2 ∧ 0 ≤ e.2 := by
  induction es generalizing s with
  | nil => exact fun _ he => by cases he
  | cons e es ih =>
    rw [replay, Outcome.each_cons] at hok
    cases haccept : s.accept (.int e.1) (.int e.2) with
    | error error =>
      rw [update, haccept] at hok
      cases hok
    | ok a =>
      obtain ⟨item, count⟩ := a
      obtain ⟨hitem, hcount, hword, hword', hnonneg, -⟩ := accept_eq_ok_iff.mp haccept
      cases hitem
      cases hcount
      rcases hupdate : s.update src (.int e.1) (.int e.2) with ⟨u, events, failure⟩
      rw [hupdate] at hok
      cases failure with
      | some error => cases hok
      | none => exact List.forall_mem_cons.mpr ⟨⟨hword, hword', hnonneg⟩, ih hok⟩

/-- **Entries are counted to the end in a fresh sketch** exactly if they are countable. -/
theorem Fresh.replay_iff (src : DrawSource) (h : s.Fresh) :
    (s.replay src es).failure = none ↔ Countable es := by
  constructor
  · intro hok
    have haccepted := accepted_of_replay hok
    obtain ⟨t, events, -, run⟩ := exists_run_of_replay h.sound hok
    have hdrift := run.drift h.sound
    have hbounded : t.streamLength ≤ maxWord := hdrift.bounded (by rw [h.streamLength_eq]; decide)
    rw [hdrift.streamLength_eq, h.streamLength_eq, zero_add] at hbounded
    refine ⟨fun e he => ⟨(haccepted e he).1, (haccepted e he).2.1⟩, ?_, hbounded⟩
    exact List.forall_mem_map.mpr fun e he => (haccepted e he).2.2
  · intro hes
    have htotal : s.streamLength + es.total ≤ maxWord := by
      rw [h.streamLength_eq, zero_add]
      exact hes.total_le
    obtain ⟨t, events, hreplay, -⟩ := exists_run_of_bounded src h.sound hes.words hes.nonneg htotal
    rw [hreplay]

/-! ### Which snapshots are loaded -/

/-- What has been recorded of a run. -/
private theorem recorded_eq_ok {o : Outcome Sketch} (h : (recorded p o).result = .ok t) :
    o.failure = none ∧
      t = { o.state with
        offset := o.state.offset + p.offset, streamLength := p.streamLength, truths := .none } := by
  obtain ⟨u, events, failure⟩ := o
  cases failure with
  | some e => cases h
  | none =>
    cases h
    exact ⟨rfl, rfl⟩

/-- **A snapshot with its numbers in range is loaded** exactly if its stream length is not negative and its
entries are countable. -/
theorem ofSnapshot_iff (src : DrawSource) (seed : ℤ) (hrange : p.InRange) :
    (∃ t, (ofSnapshot src p seed).result = .ok t) ↔ 0 ≤ p.streamLength ∧ Countable p.entries := by
  by_cases hnonneg : 0 ≤ p.streamLength
  · obtain ⟨u, hfresh, -, -, hload⟩ := exists_recorded src seed hrange.1 hrange.2 hnonneg
    rw [hload, ← hfresh.replay_iff src]
    constructor
    · rintro ⟨t, ht⟩
      exact ⟨hnonneg, (recorded_eq_ok ht).1⟩
    · rintro ⟨-, hok⟩
      rcases hreplay : u.replay src p.entries with ⟨v, events, failure⟩
      rw [hreplay] at hok
      cases hok
      exact ⟨_, rfl⟩
  · have hnegative : p.offset < 0 ∨ p.streamLength < 0 := .inr (not_le.mp hnonneg)
    rw [ofSnapshot_eq, if_pos hnegative]
    exact iff_of_false (fun ⟨t, ht⟩ => by cases ht) fun h => hnonneg h.1

/-- **Any other is refused for its content.** -/
theorem ofContent_of_ofSnapshot (hrange : p.InRange) {error : Error}
    (h : (ofSnapshot src p seed).result = .error error) : error.OfContent := by
  by_cases hnonneg : 0 ≤ p.streamLength
  · obtain ⟨u, hfresh, -, -, hload⟩ := exists_recorded src seed hrange.1 hrange.2 hnonneg
    rw [hload] at h
    rcases replay_cases src hfresh.sound p.entries with ⟨v, events, hreplay, -⟩ |
      ⟨-, e, -, v, events, error', -, hreplay, -, herror⟩
    · rw [hreplay] at h
      cases h
    · rw [hreplay] at h
      cases h
      exact ofContent_of_accept herror
  · have hnegative : p.offset < 0 ∨ p.streamLength < 0 := .inr (not_le.mp hnonneg)
    rw [ofSnapshot_eq, if_pos hnegative] at h
    cases h
    trivial

/-! ### What they are loaded as -/

/-- A sketch has the content of a snapshot. -/
structure Faithful (p : Snapshot) (t : Sketch) : Prop where
  /-- The greatest length is the recorded one. -/
  lgMax_eq : t.lgMax = p.lgMax
  /-- The table has the recorded length. -/
  length_eq : t.table.length = powerOfTwo p.lgLength.toNat
  /-- The stream length is the recorded one. -/
  streamLength_eq : t.streamLength = p.streamLength
  /-- So is the offset. -/
  offset_eq : t.offset = p.offset
  /-- The counters are the recorded ones, in some order. -/
  perm : t.counters.Perm p.entries

/-- The entries of a snapshot are those of a table of the recorded length. -/
structure Fitting (p : Snapshot) : Prop where
  /-- Every item has one entry. -/
  distinct : Entries.Distinct p.entries
  /-- All counts are positive. -/
  positive : ∀ n ∈ Entries.values p.entries, 0 < n
  /-- There are no more entries than the table may hold. -/
  fits : p.active ≤ loadLimit (powerOfTwo p.lgLength.toNat)

/-- The items of a snapshot are few enough for the greatest table. -/
def Few (p : Snapshot) : Prop := p.counted.card ≤ loadLimit (powerOfTwo p.lgMax.toNat)

/-- The counters of a sketch are what the entries of a snapshot add up to, item by item, and nothing was
subtracted from them. -/
structure AddedUp (p : Snapshot) (t : Sketch) : Prop where
  /-- The offset is the recorded one. -/
  offset_eq : t.offset = p.offset
  /-- Every count is what the entries of its item add up to. -/
  count_eq : ∀ x, t.table.count x = Entries.tally p.entries x
  /-- An item has a counter if that is positive. -/
  keys_iff : ∀ x, x ∈ t.counters.keys ↔ 0 < Entries.tally p.entries x
  /-- The table has the least length, from the recorded one on, that these counters find room in. -/
  isLeast_lgLength : IsLeast
    {lg | p.lgLength.toNat ≤ lg ∧ p.counted.card ≤ loadLimit (powerOfTwo lg)} t.table.lgLength

/-- What a sketch has of the snapshot that it was loaded from, in any case. It errs below the snapshot, by
no more than its offset exceeds the recorded one. -/
structure Recounted (p : Snapshot) (t : Sketch) : Prop where
  /-- The greatest length is the recorded one. -/
  lgMax_eq : t.lgMax = p.lgMax
  /-- The stream length is the recorded one. -/
  streamLength_eq : t.streamLength = p.streamLength
  /-- The table is no shorter than recorded. -/
  lgLength_le : p.lgLength ≤ t.table.lgLength
  /-- The offset is no less than the recorded one. -/
  offset_le : p.offset ≤ t.offset
  /-- No counter exceeds what the entries of its item add up to. -/
  lower : ∀ x, t.table.count x ≤ Entries.tally p.entries x
  /-- What it lacks the offset has gained. -/
  upper : ∀ x, Entries.tally p.entries x + p.offset ≤ t.table.count x + t.offset
  /-- Where entries add up to nothing there is no counter. -/
  keys_pos : ∀ x ∈ t.counters.keys, 0 < Entries.tally p.entries x
  /-- What the offset has gained is paid for by the counters. -/
  mass : errorShare t.lgMax * (t.offset - p.offset) + t.counters.total ≤ Entries.total p.entries

/-- Of what a loaded sketch consists: a run from a fresh sketch with the recorded lengths. -/
private theorem exists_run_of_ofSnapshot (hrange : p.InRange)
    (hload : (ofSnapshot src p seed).result = .ok t) :
    ∃ fresh u events, Fresh fresh ∧ fresh.lgMax = p.lgMax.toNat ∧ fresh.table.lgLength = p.lgLength.toNat ∧
      fresh.replay src p.entries = ⟨u, events, none⟩ ∧ Run fresh p.entries u events ∧
        t = { u with offset := u.offset + p.offset, streamLength := p.streamLength, truths := .none } := by
  obtain ⟨hnonneg, -⟩ := (ofSnapshot_iff src seed hrange).mp ⟨t, hload⟩
  obtain ⟨fresh, hfresh, hlgMax, hlgLength, hrecorded⟩ := exists_recorded src seed hrange.1 hrange.2 hnonneg
  rw [hrecorded] at hload
  obtain ⟨hok, ht⟩ := recorded_eq_ok hload
  obtain ⟨u, events, hreplay, run⟩ := exists_run_of_replay hfresh.sound hok
  rw [hreplay] at ht
  exact ⟨fresh, u, events, hfresh, hlgMax, hlgLength, hreplay, run, ht⟩

/-- **A loaded sketch has the content of the snapshot** exactly if that fits into a table. -/
theorem faithful_iff (hrange : p.InRange) (hload : (ofSnapshot src p seed).result = .ok t) :
    Faithful p t ↔ Fitting p := by
  obtain ⟨-, hcountable⟩ := (ofSnapshot_iff src seed hrange).mp ⟨t, hload⟩
  obtain ⟨fresh, u, events, hfresh, hlgMax, hlgLength, hreplay, run, rfl⟩ :=
    exists_run_of_ofSnapshot hrange hload
  have hsound := run.sound hfresh.sound
  constructor
  · intro h
    have hperm : u.counters.Perm p.entries := h.perm
    have hlength : u.table.length = powerOfTwo p.lgLength.toNat := h.length_eq
    refine ⟨hsound.holds.distinct.perm hperm, fun n hn => ?_, ?_⟩
    · exact hsound.positive n ((hperm.map Prod.snd).mem_iff.mpr hn)
    · calc p.active = u.counters.length := hperm.length_eq.symm
        _ = u.active := hsound.holds.active_eq.symm
        _ ≤ u.capacity := hsound.active_le
        _ = loadLimit (powerOfTwo p.lgLength.toNat) := by rw [hsound.capacity_eq, Table.capacity, hlength]
  · intro h
    have hfits : p.entries.length ≤ fresh.capacity := by
      rw [hfresh.sound.capacity_eq_loadLimit, hlgLength]
      exact h.fits
    have hwords : ∀ x ∈ Entries.keys p.entries, IsWord x :=
      List.forall_mem_map.mpr fun e he => (hcountable.words e he).1
    obtain ⟨v, hquiet, -, hlgMax', hlgLength', hoffset, hcounts⟩ :=
      hfresh.exists_quiet_replay src h.distinct hwords h.positive hcountable.total_le hfits
    obtain rfl : u = v := by
      rw [hquiet] at hreplay
      exact (congrArg Outcome.state hreplay).symm
    have hlengths := hrange.1
    have hmin := hlengths.lgMin_le
    have hle := hlengths.lgLength_le
    refine ⟨?_, ?_, rfl, ?_, ?_⟩
    · change (u.lgMax : ℤ) = p.lgMax
      omega
    · change u.table.length = powerOfTwo p.lgLength.toNat
      rw [Table.length_eq, hlgLength', hlgLength]
    · change u.offset + p.offset = p.offset
      rw [hoffset, zero_add]
    · apply Entries.perm_of_count_eq hsound.positive h.positive hsound.holds.distinct h.distinct
      intro x
      rw [← hsound.holds.count_eq, hcounts]

/-- **A loaded sketch errs below the snapshot**, whatever that is. -/
theorem recounted_of_ofSnapshot (hrange : p.InRange) (hload : (ofSnapshot src p seed).result = .ok t) :
    Recounted p t := by
  obtain ⟨fresh, u, events, hfresh, hlgMax, hlgLength, -, run, rfl⟩ := exists_run_of_ofSnapshot hrange hload
  have hdrift := run.drift hfresh.sound
  have hsound := run.sound hfresh.sound
  have hlengths := hrange.1
  have hmin := hlengths.lgMin_le
  have hle := hlengths.lgLength_le
  have hzero : ∀ x, fresh.table.count x = 0 := fun x => hfresh.holds.count_eq x
  have hlower : ∀ x, u.table.count x ≤ Entries.tally p.entries x := by
    intro x
    have := hdrift.lower x
    rwa [hzero, zero_add] at this
  refine ⟨?_, rfl, ?_, ?_, hlower, fun x => ?_, fun x hx => ?_, ?_⟩
  · change (u.lgMax : ℤ) = p.lgMax
    rw [hdrift.lgMax_eq, hlgMax]
    omega
  · have hgrown := (run.course hfresh.sound).2.le
    change p.lgLength ≤ (u.table.lgLength : ℤ)
    omega
  · have := hdrift.offset_le
    rw [hfresh.offset_eq] at this
    change p.offset ≤ u.offset + p.offset
    omega
  · have := hdrift.upper x
    rw [hzero, hfresh.offset_eq] at this
    change Entries.tally p.entries x + p.offset ≤ u.table.count x + (u.offset + p.offset)
    omega
  · exact (hsound.mem_keys_iff.mp hx).trans_le (hlower x)
  · have hmass := hdrift.mass (errorShare fresh.lgMax) (Int.natCast_nonneg _) le_rfl
    rw [hfresh.offset_eq, hfresh.counters_eq, ← hdrift.lgMax_eq] at hmass
    change errorShare u.lgMax * (u.offset + p.offset - p.offset) + u.counters.total ≤ _
    have hnone : Entries.total [] = 0 := rfl
    rw [add_sub_cancel_right]
    omega

/-- **If the items are few, nothing is lost** while a snapshot is loaded. -/
theorem addedUp_of_few (hrange : p.InRange) (hload : (ofSnapshot src p seed).result = .ok t) (hfew : Few p) :
    AddedUp p t := by
  obtain ⟨fresh, u, events, hfresh, hlgMax, hlgLength, -, run, rfl⟩ := exists_run_of_ofSnapshot hrange hload
  have hdrift := run.drift hfresh.sound
  have hsound := run.sound hfresh.sound
  have hzero : ∀ x, fresh.table.count x = 0 := fun x => hfresh.holds.count_eq x
  have hitems : ∀ x, 0 < fresh.table.count x + Entries.tally p.entries x → x ∈ p.counted := by
    intro x hx
    rw [hzero, zero_add] at hx
    exact Snapshot.mem_counted_iff.mpr hx
  have hroom : p.counted.card ≤ fresh.maxCapacity := by
    rw [maxCapacity, hlgMax]
    exact hfew
  have hlossless := run.lossless hfresh.sound hitems hroom
  have hcount : ∀ x, u.table.count x = Entries.tally p.entries x := by
    intro x
    rw [hdrift.count_eq hlossless.offset_eq, hzero, zero_add]
  have hactive : u.active = p.counted.card := by
    apply hsound.active_eq_card
    intro x
    rw [Snapshot.mem_counted_iff, hcount]
  refine ⟨?_, hcount, fun x => ?_, ?_⟩
  · change u.offset + p.offset = p.offset
    rw [hlossless.offset_eq, hfresh.offset_eq, zero_add]
  · rw [← hcount]
    exact hsound.mem_keys_iff
  · have hleast := (hlossless.snug _ (.self fresh)).isLeast hsound
    rw [hlgLength, hactive] at hleast
    exact hleast

/-- **If the offset stays the recorded one, the items are few.** -/
theorem few_of_offset_eq (hrange : p.InRange) (hload : (ofSnapshot src p seed).result = .ok t)
    (hoffset : t.offset = p.offset) : Few p := by
  obtain ⟨fresh, u, events, hfresh, hlgMax, -, -, run, rfl⟩ := exists_run_of_ofSnapshot hrange hload
  have hdrift := run.drift hfresh.sound
  have hsound := run.sound hfresh.sound
  have hstill : u.offset = fresh.offset := by
    change u.offset + p.offset = p.offset at hoffset
    rw [hfresh.offset_eq]
    omega
  have hactive : u.active = p.counted.card := by
    apply hsound.active_eq_card
    intro x
    have hzero : fresh.table.count x = 0 := hfresh.holds.count_eq x
    rw [Snapshot.mem_counted_iff, hdrift.count_eq hstill, hzero, zero_add]
  calc p.counted.card = u.active := hactive.symm
    _ ≤ u.capacity := hsound.active_le
    _ ≤ u.maxCapacity := hsound.capacity_le
    _ = loadLimit (powerOfTwo p.lgMax.toNat) := by rw [maxCapacity, hdrift.lgMax_eq, hlgMax]

/-! ### Bytes and lines -/

/-- What a sketch is decoded from. -/
inductive Encoded where
  /-- Bytes. -/
  | bytes (bs : List UInt8)
  /-- A line. -/
  | line (text : String)

/-- The snapshot that was encoded. -/
def Encoded.read : Encoded → Except Corruption Snapshot
  | .bytes bs => Snapshot.ofBytes bs
  | .line text => Snapshot.ofLine .usual text

/-- What comes of loading it. -/
def Encoded.load (src : DrawSource) : Encoded → Loading
  | .bytes bs => ofBytes src bs
  | .line text => ofLine src text

theorem Encoded.load_eq (src : DrawSource) (e : Encoded) : e.load src = ofDecoded src e.read := by
  cases e <;> rfl

/-- What is decoded has its numbers in range. -/
theorem Encoded.inRange {e : Encoded} (h : e.read = .ok p) : p.InRange := by
  cases e with
  | bytes bs =>
    obtain ⟨-, h⟩ := Snapshot.ofBytes_eq_ok_iff.mp h
    split_ifs at h
    · obtain ⟨hlengths, -, rfl⟩ := Snapshot.ofEmptyBytes_eq_ok_iff.mp h
      exact ⟨hlengths, le_rfl⟩
    · obtain ⟨-, hlengths, hoffset, -, rfl⟩ := Snapshot.ofFullBytes_eq_ok_iff.mp h
      exact ⟨hlengths, hoffset⟩
  | line text =>
    have hreadable := Snapshot.readable_of_ofLine h
    exact ⟨hreadable.lengths, hreadable.offset_nonneg⟩

/-- **How faithful loading is**, of any bytes and of any line, whatever is drawn. Whatever is refused is
refused for its content, as a wrong value. What is decoded is loaded exactly if its stream length is not
negative and its entries are countable. Then the sketch has the content that was decoded exactly if that
fits into a table; it holds what the entries add up to, and keeps the recorded offset, exactly if the items
are few enough for its greatest table; and in any case it has the recorded stream length and errs below. -/
theorem loads_faithfully_iff (src : DrawSource) (e : Encoded) :
    (∀ error, (e.load src).result = .error error → error.OfContent ∧ error.kind = .value) ∧
      (∀ c, e.read = .error c → e.load src = ⟨[], .error (.corrupt c)⟩) ∧
      ∀ p, e.read = .ok p →
        ((∃ t, (e.load src).result = .ok t) ↔ 0 ≤ p.streamLength ∧ Countable p.entries) ∧
        ∀ t, (e.load src).result = .ok t →
          (Faithful p t ↔ Fitting p) ∧ (AddedUp p t ↔ Few p) ∧ (t.offset = p.offset ↔ Few p) ∧
            Recounted p t := by
  rw [e.load_eq]
  refine ⟨fun error herror => ?_, fun c hc => ?_, fun p hp => ?_⟩
  · have hcontent : error.OfContent := by
      cases hread : e.read with
      | error c =>
        rw [hread] at herror
        cases herror
        trivial
      | ok p =>
        rw [hread] at herror
        exact ofContent_of_ofSnapshot (Encoded.inRange hread) herror
    exact ⟨hcontent, hcontent.kind_eq⟩
  · rw [hc]
    rfl
  · have hrange := Encoded.inRange hp
    rw [hp]
    refine ⟨ofSnapshot_iff src defaultSeed hrange, fun t ht => ?_⟩
    have haddedUp := addedUp_of_few hrange ht
    have hfew := few_of_offset_eq hrange ht
    exact ⟨faithful_iff hrange ht, ⟨fun h => hfew h.offset_eq, haddedUp⟩,
      ⟨hfew, fun h => (haddedUp h).offset_eq⟩, recounted_of_ofSnapshot hrange ht⟩

/-- A line with one entry, which fits. -/
def Encoded.single : Encoded := .line "1,10,5,0,1,3,2,1,16,5,3"

/-- It is loaded faithfully. -/
theorem loads_faithfully_iff_single :
    Encoded.single.read = .ok ⟨5, 4, 3, 2, [(5, 3)]⟩ ∧
      ∃ t, (Encoded.single.load leastDraws).result = .ok t ∧ Faithful ⟨5, 4, 3, 2, [(5, 3)]⟩ t := by
  have hread : Encoded.single.read = .ok ⟨5, 4, 3, 2, [(5, 3)]⟩ := by decide +kernel
  obtain ⟨-, -, hloads⟩ := loads_faithfully_iff leastDraws Encoded.single
  obtain ⟨haccepted, hfaithful⟩ := hloads _ hread
  have hcountable : Countable [(5, 3)] := ⟨by decide, by decide, by decide⟩
  have hfitting : Fitting ⟨5, 4, 3, 2, [(5, 3)]⟩ := ⟨List.nodup_singleton 5, by decide, by decide⟩
  obtain ⟨t, hload⟩ := haccepted.mpr ⟨by decide, hcountable⟩
  exact ⟨hread, t, hload, (hfaithful t hload).1.mpr hfitting⟩

/-- A line with an entry that counts nothing. -/
def Encoded.idle : Encoded := .line "1,10,3,0,1,3,0,1,8,5,0"

/-- A line with two entries of one item. -/
def Encoded.repeated : Encoded := .line "1,10,3,0,1,3,0,2,8,5,1,5,2"

/-- A line with one entry more than its table may hold, which is the greatest that it may have. -/
def Encoded.crammed : Encoded := .line "1,10,3,0,1,7,0,7,8,1,1,2,1,3,1,4,1,5,1,6,1,7,1"

/-- The same line, but the table may be twice as long. -/
def Encoded.cramped : Encoded := .line "1,10,4,0,1,7,0,7,8,1,1,2,1,3,1,4,1,5,1,6,1,7,1"

private theorem Faithful.length_counters {p : Snapshot} {t : Sketch} (h : Faithful p t) :
    t.counters.length = p.active := h.perm.length_eq

/-- None of these is refused, and none is loaded faithfully: the first loses its entry, the second has its
entries added up, the third is purged of all that it has, and the fourth makes its table grow. -/
theorem loads_unfaithfully :
    (∃ p t, Encoded.idle.read = .ok p ∧ (Encoded.idle.load leastDraws).result = .ok t ∧
      p.entries = [(5, 0)] ∧ t.counters = [] ∧ ¬ Faithful p t) ∧
    (∃ p t, Encoded.repeated.read = .ok p ∧ (Encoded.repeated.load leastDraws).result = .ok t ∧
      p.entries = [(5, 1), (5, 2)] ∧ t.counters = [(5, 3)] ∧ ¬ Faithful p t) ∧
    (∃ p t, Encoded.crammed.read = .ok p ∧ (Encoded.crammed.load leastDraws).result = .ok t ∧
      p.active = 7 ∧ t.counters = [] ∧ p.offset = 0 ∧ t.offset = 1 ∧ ¬ Faithful p t) ∧
    (∃ p t, Encoded.cramped.read = .ok p ∧ (Encoded.cramped.load leastDraws).result = .ok t ∧
      p.lgLength = 3 ∧ t.counters.length = 7 ∧ t.offset = 0 ∧ t.table.length = 16 ∧ ¬ Faithful p t) := by
  have hidle : ∃ p ∈ Encoded.idle.read.toOption, ∃ t ∈ (Encoded.idle.load leastDraws).result.toOption,
      p.entries = [(5, 0)] ∧ t.counters = [] ∧ t.counters.length ≠ p.active := by
    decide +kernel
  have hrepeated : ∃ p ∈ Encoded.repeated.read.toOption,
      ∃ t ∈ (Encoded.repeated.load leastDraws).result.toOption,
        p.entries = [(5, 1), (5, 2)] ∧ t.counters = [(5, 3)] ∧ t.counters.length ≠ p.active := by
    decide +kernel
  have hcrammed : ∃ p ∈ Encoded.crammed.read.toOption,
      ∃ t ∈ (Encoded.crammed.load leastDraws).result.toOption,
        p.active = 7 ∧ t.counters = [] ∧ p.offset = 0 ∧ t.offset = 1 ∧ t.counters.length ≠ p.active := by
    decide +kernel
  have hcramped : ∃ p ∈ Encoded.cramped.read.toOption,
      ∃ t ∈ (Encoded.cramped.load leastDraws).result.toOption,
        p.lgLength = 3 ∧ t.counters.length = 7 ∧ t.offset = 0 ∧ t.table.length = 16 ∧
          t.table.length ≠ powerOfTwo p.lgLength.toNat := by
    decide +kernel
  refine ⟨?_, ?_, ?_, ?_⟩
  · obtain ⟨p, hp, t, ht, hentries, hcounters, hne⟩ := hidle
    exact ⟨p, t, mem_toOption_iff.mp hp, mem_toOption_iff.mp ht, hentries, hcounters,
      fun h => hne h.length_counters⟩
  · obtain ⟨p, hp, t, ht, hentries, hcounters, hne⟩ := hrepeated
    exact ⟨p, t, mem_toOption_iff.mp hp, mem_toOption_iff.mp ht, hentries, hcounters,
      fun h => hne h.length_counters⟩
  · obtain ⟨p, hp, t, ht, hactive, hcounters, hoffset, hoffset', hne⟩ := hcrammed
    exact ⟨p, t, mem_toOption_iff.mp hp, mem_toOption_iff.mp ht, hactive, hcounters, hoffset, hoffset',
      fun h => hne h.length_counters⟩
  · obtain ⟨p, hp, t, ht, hlgLength, hcounters, hoffset, hlength, hne⟩ := hcramped
    exact ⟨p, t, mem_toOption_iff.mp hp, mem_toOption_iff.mp ht, hlgLength, hcounters, hoffset, hlength,
      fun h => hne h.length_eq⟩

end Sketch

end HeavyHitters
