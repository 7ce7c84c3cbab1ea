import HeavyHitters.Ledger
import HeavyHitters.Proofs.Results
import HeavyHitters.Proofs.Table.Mapping
import HeavyHitters.Proofs.Table.Refinement

/-!
# Ledgers of integers

A ledger takes any scalars for counts, and remembers under which key each was entered. If all of them are
integers, and no more slots are asked for than there is memory for, it is a table of integers with more
detail: without the keys, its table is the image of the table of integers (`Ledger.Mirrors`). Both steps, from
postings to their counts and from integers to scalars, keep what is done with amounts. So every request to the
ledger has the answer that the table gives, and a ledger of integers agrees with a dictionary as a table does.

## What is proved

* `Posting.hom_count`, `Scalar.hom_int`: postings are counted by their counts, and integers as scalars.
* `Ledger.Mirrors.serve`: a ledger answers as the table that it mirrors, and goes on mirroring it.
* `Ledger.run_agrees`: what a ledger of integers says after any requests, as a dictionary has it.
* `Ledger.resize_unheld`: what happens when there is no memory for the slots.
-/

namespace HeavyHitters

/-- Postings are added and compared by their counts. -/
theorem Posting.hom_count : Amount.Hom Posting.count where
  zero := rfl
  plus p q := by
    simp only [Amount.plus, bind, Except.bind]
    cases Scalar.plus p.count q.count <;> rfl
  opposite p := by
    simp only [Amount.opposite, bind, Except.bind]
    cases Scalar.opposite p.count <;> rfl
  isLess _ _ := rfl
  isSpent _ := rfl

/-- Integers are added and compared in the same way as scalars. -/
theorem Scalar.hom_int : Amount.Hom Scalar.int where
  zero := rfl
  plus _ _ := rfl
  opposite _ := rfl
  isLess := Scalar.isBelow_int
  isSpent n := by
    simp [Amount.isSpent, Scalar.quantity?, Quantity.ofInt, Quantity.isReachedBy]

namespace Ledger

/-- What a ledger answers to a request, and what becomes of it. -/
def serve (l : Ledger) : Request → Except Error (Option Scalar) × Ledger
  | .put item count _ =>
    match l.put (.int item) (.int count) with
    | ⟨l, _, none⟩ => (.ok none, l)
    | ⟨l, _, some e⟩ => (.error e, l)
  | .resize size =>
    match l.resize size with
    | ⟨l, _, none⟩ => (.ok none, l)
    | ⟨l, _, some e⟩ => (.error e, l)
  | .purge src g size =>
    let (median, l, _) := l.purge src (.int size) g
    (median.map some, l)

/-- A series of requests. -/
def run (l : Ledger) (requests : List Request) : Ledger := requests.foldl (fun l r => (l.serve r).2) l

/-- The ledger is the table of integers, with keys beside the counts. -/
structure Mirrors (l : Ledger) (t : Table ℤ) : Prop where
  /-- Without the keys, the tables are the same. -/
  table_eq : l.table.map Posting.count = t.map Scalar.int
  /-- There are as many slots as were asked for. -/
  lgAsked_eq : l.lgAsked = t.lgLength

/-- Without the keys a ledger has no other slots. -/
private theorem Mirrors.length_eq {l : Ledger} {t : Table ℤ} (h : l.Mirrors t) :
    l.table.length = t.length := by
  have hlength := congrArg Table.length h.table_eq
  rwa [Table.length_map, Table.length_map] at hlength

/-- Two computations have the same results, seen in one way or the other. -/
private theorem cases_of_map_eq {α β γ : Type} {f : α → γ} {g : β → γ} {x : Except Error α} {y : Except Error β}
    (h : x.map f = y.map g) :
    (∃ e, x = .error e ∧ y = .error e) ∨ ∃ a b, x = .ok a ∧ y = .ok b ∧ f a = g b := by
  cases x with
  | error e =>
    cases y with
    | error e' => exact .inl ⟨e, rfl, congrArg _ (Except.error.inj h).symm⟩
    | ok b => cases h
  | ok a =>
    cases y with
    | error e => cases h
    | ok b => exact .inr ⟨a, b, rfl, rfl, Except.ok.inj h⟩

/-- A put to the ledger is one to its table. -/
theorem put_int (l : Ledger) (item : ℤ) (count : Scalar) :
    l.put (.int item) count =
      match l.table.put item ⟨.int item, count⟩ with
      | .ok table => .ok { l with table }
      | .error e => .fail l e := by
  simp only [put, Scalar.toKey_int, Table.put]
  rcases l.table.plan item ⟨.int item, count⟩ with e | ⟨i, c⟩ <;> rfl

/-- When there is no memory for the slots that are asked for. -/
theorem resize_unheld (l : Ledger) {lg : ℕ} (hlg : l.lgAsked < lg) (hlarge : lgUnheldLength ≤ lg) :
    ∃ e, l.resize (.int (powerOfTwo lg : ℕ)) = .fail { l with lgAsked := lg } e ∧
      (e.kind = .memory ∨ e.kind = .overflow) := by
  have hlog : (Scalar.int (powerOfTwo lg : ℕ)).toLog2 "new_size" = .ok lg := Scalar.toLog2_eq_ok_iff.mpr rfl
  simp only [resize, hlog, if_neg (not_le.mpr hlg), checkMemory, if_neg (not_lt.mpr hlarge)]
  split_ifs
  · exact ⟨.outOfMemory, rfl, .inl rfl⟩
  · exact ⟨.uncountedLength, rfl, .inr rfl⟩

/-- If a request asks for a number of slots, there is memory for them. -/
def Held : Request → Prop
  | .resize size => ∀ lg, size = .int (powerOfTwo lg : ℕ) → lg < lgUnheldLength
  | _ => True

namespace Mirrors

variable {l : Ledger} {p : Paired}

/-- Only a resize changes the number of slots. -/
private theorem lgLength_step (hp : p.Sound) (request : Request) (h : ∀ n, request.lengthFrom n = n) :
    (p.table.serve request).2.lgLength = p.table.lgLength := by
  have hserves := hp.serves request
  by_cases hr : p.Refused request
  · exact congrArg (fun q : Paired => q.table.lgLength) (hserves.unchanged hr)
  · exact Table.lgLength_eq_of_length_eq ((hserves.length_eq hr).trans (h _))

private theorem serve_put (h : l.Mirrors p.table) (hp : p.Sound) {item count : ℤ} {hcount : 0 < count} :
    (l.serve (.put item count hcount)).1 = (p.table.serve (.put item count hcount)).1.map (Option.map .int) ∧
      (l.serve (.put item count hcount)).2.Mirrors (p.table.serve (.put item count hcount)).2 := by
  have hlg := lgLength_step hp (.put item count hcount) fun _ => rfl
  have hput := Table.put_map Posting.hom_count l.table item ⟨.int item, .int count⟩
  dsimp only at hput
  rw [h.table_eq, Table.put_map Scalar.hom_int] at hput
  simp only [Ledger.serve, put_int]
  simp only [Table.serve] at hlg ⊢
  rcases cases_of_map_eq hput with ⟨e, ht, hl⟩ | ⟨u, table, ht, hl, hsame⟩
  · rw [ht, hl]
    exact ⟨rfl, h⟩
  · rw [ht] at hlg ⊢
    rw [hl]
    exact ⟨rfl, hsame.symm, h.lgAsked_eq.trans hlg.symm⟩

private theorem serve_resize (h : l.Mirrors p.table) (hp : p.Sound) {size : Scalar}
    (hheld : Held (.resize size)) :
    (l.serve (.resize size)).1 = (p.table.serve (.resize size)).1.map (Option.map .int) ∧
      (l.serve (.resize size)).2.Mirrors (p.table.serve (.resize size)).2 := by
  simp only [Ledger.serve, Ledger.resize, Table.serve, Table.resize]
  cases hlog : size.toLog2 "new_size" with
  | error e => exact ⟨rfl, h⟩
  | ok lg =>
    simp only [h.lgAsked_eq, bind, Except.bind]
    by_cases hle : lg ≤ p.table.lgLength
    · simp only [if_pos hle, h.length_eq]
      exact ⟨rfl, h⟩
    · have hmemory : checkMemory lg = .ok () := if_pos (hheld lg (Scalar.toLog2_eq_ok_iff.mp hlog))
      obtain ⟨u, hu, hholds⟩ := hp.holds.rehash (not_le.mp hle).le
      have hrehash := Table.rehash_map Posting.hom_count l.table lg
      rw [h.table_eq, Table.rehash_map Scalar.hom_int] at hrehash
      rcases cases_of_map_eq hrehash with ⟨e, ht, -⟩ | ⟨u', table, ht, hl, hsame⟩
      · rw [hu] at ht
        cases ht
      · rw [hu, Except.ok.injEq] at ht
        subst ht
        simp only [if_neg hle, hmemory, hl, hu]
        exact ⟨rfl, hsame.symm, hholds.lgLength_eq.symm⟩

private theorem serve_purge (h : l.Mirrors p.table) (hp : p.Sound) {src : DrawSource} {g : src.State}
    {size : ℤ} :
    (l.serve (.purge src g size)).1 = (p.table.serve (.purge src g size)).1.map (Option.map .int) ∧
      (l.serve (.purge src g size)).2.Mirrors (p.table.serve (.purge src g size)).2 := by
  have hlg := lgLength_step hp (.purge src g size) fun _ => rfl
  have hpurge := Table.purge_map Posting.hom_count src l.table (.int size) g
  rw [h.table_eq, Table.purge_map Scalar.hom_int] at hpurge
  simp only [Ledger.serve, Ledger.purge]
  simp only [Table.serve] at hlg ⊢
  generalize p.table.purge src (.int size) g = served at hlg hpurge ⊢
  generalize l.table.purge src (.int size) g = served' at hpurge ⊢
  obtain ⟨median, u, g'⟩ := served
  obtain ⟨median', table, g''⟩ := served'
  simp only [Prod.map, id, Prod.mk.injEq] at hpurge
  obtain ⟨hmedian, htable, -⟩ := hpurge
  refine ⟨?_, htable.symm, h.lgAsked_eq.trans hlg.symm⟩
  rcases cases_of_map_eq hmedian with ⟨e, rfl, rfl⟩ | ⟨m, posting, rfl, rfl, hm⟩
  · rfl
  · exact congrArg (fun n => Except.ok (some n)) hm.symm

/-- **A ledger answers as the table that it mirrors**, and goes on mirroring it. -/
theorem serve (h : l.Mirrors p.table) (hp : p.Sound) {request : Request} (hheld : Held request) :
    (l.serve request).1 = (p.table.serve request).1.map (Option.map .int) ∧
      (l.serve request).2.Mirrors (p.step request).table := by
  cases request with
  | put item count hcount => exact h.serve_put hp
  | resize size => exact h.serve_resize hp hheld
  | purge src g size => exact h.serve_purge hp

theorem run (h : l.Mirrors p.table) (hp : p.Sound) {requests : List Request}
    (hheld : ∀ r ∈ requests, Held r) :
    (l.run requests).Mirrors (p.run requests).table := by
  induction requests generalizing l p with
  | nil => exact h
  | cons request requests ih =>
    obtain ⟨hfirst, hrest⟩ := List.forall_mem_cons.mp hheld
    exact ih (h.serve hp hfirst).2 (hp.serves request).sound hrest

/-- The ledger has the counts of the table, as scalars. -/
theorem count_eq {t : Table ℤ} (h : l.Mirrors t) (item : ℤ) :
    l.count (.int item) = .ok (.int (t.count item)) := by
  have hfind := Table.find?_map Posting.count l.table item
  rw [h.table_eq, Table.find?_map] at hfind
  rw [Ledger.count, Scalar.toKey_int, Table.count]
  cases hl : l.table.find? item with
  | none =>
    rw [hl, Option.map_none, Option.map_eq_none_iff] at hfind
    simp only [bind, Except.bind, hl, hfind]
    rfl
  | some c =>
    rw [hl] at hfind
    obtain ⟨b, hb, hsame⟩ := Option.map_eq_some_iff.mp hfind
    have hcount : Scalar.int b.count = c.count.count := congrArg Cell.count hsame
    simp only [bind, Except.bind, hl, hb, hcount]
    rfl

theorem contains_eq {t : Table ℤ} (h : l.Mirrors t) (item : ℤ) :
    l.contains (.int item) = t.contains item := by
  rw [Ledger.contains, ← Table.contains_map Posting.count, h.table_eq, Table.contains_map]

end Mirrors

/-- A new ledger mirrors an empty table. -/
theorem mirrors_ofSize {l : Ledger} {size : Scalar} (h : ofSize size = .ok l) :
    l.Mirrors (Paired.ofLog2 l.lgAsked).table := by
  simp only [ofSize] at h
  obtain ⟨lg, -, h⟩ := bind_eq_ok.mp h
  split_ifs at h
  · cases h
  · obtain ⟨_, -, h⟩ := bind_eq_ok.mp h
    cases h
    exact ⟨(Table.ofLog2_map Posting.hom_count lg).trans (Table.ofLog2_map Scalar.hom_int lg).symm, rfl⟩

/-- **A ledger of integers agrees with a dictionary** after any requests that there is memory for. -/
theorem run_agrees {l : Ledger} {size : Scalar} (h : ofSize size = .ok l) {requests : List Request}
    (hheld : ∀ r ∈ requests, Held r) :
    let p := (Paired.ofLog2 l.lgAsked).run requests
    p.Agrees ∧ (l.run requests).Mirrors p.table ∧
      ∀ item, (l.run requests).count (.int item) = .ok (.int (p.dictionary.count item)) ∧
        ((l.run requests).contains (.int item) = true ↔ item ∈ p.dictionary.keys) := by
  have hsound := Paired.sound_ofLog2 l.lgAsked
  have hagrees := (hsound.run requests).agrees
  have hmirrors := (mirrors_ofSize h).run hsound hheld
  refine ⟨hagrees, hmirrors, fun item => ⟨?_, ?_⟩⟩
  · rw [hmirrors.count_eq, hagrees.count]
  · rw [hmirrors.contains_eq, hagrees.contains]

end Ledger

end HeavyHitters
