import HeavyHitters.Proofs.Table.Purging

/-!
# A table refines a dictionary

A table is kept next to a dictionary. Every request is put to the table, and the dictionary is
brought up to date by what the table answers: a count that was put is added to the count of its
item, a purge by a median lessens all counts by it, and nothing else changes the dictionary. Then
the table and the dictionary agree after every series of requests, whatever the purges draw, and the
requests that are refused are known from the dictionary.

## What is proved

* `Table.refines_dictionary`: the table agrees with the dictionary after all requests, a next
  request is refused in exactly the cases of `Request.Refused`, a refused one changes neither, and
  any other leaves the table with the length of `Request.lengthFrom`.
-/

namespace HeavyHitters

/-- A request to a table. -/
inductive Request where
  /-- Add to the count of an item. Only positive counts are added. -/
  | put (item count : ℤ) (positive : 0 < count)
  /-- Give the table another number of slots. -/
  | resize (size : Scalar)
  /-- Purge the table by a sample of at most `size` counts, with draws from the source `src`. -/
  | purge (src : DrawSource) (g : src.State) (size : ℤ)

/-- How many slots a table of `length` slots has after a request that is not refused. -/
def Request.lengthFrom (length : ℕ) : Request → ℕ
  | .resize (.int size) => size.toNat
  | _ => length

/-- What a table answers to a request, and what becomes of it. Only a purge answers a number. -/
def Table.serve (t : Table ℤ) : Request → Except Error (Option ℤ) × Table ℤ
  | .put item count _ =>
    match t.put item count with
    | .ok u => (.ok none, u)
    | .error e => (.error e, t)
  | .resize size =>
    match t.resize size with
    | .ok u => (.ok none, u)
    | .error e => (.error e, t)
  | .purge src g size =>
    let (median, u, _) := t.purge src (.int size) g
    (median.map some, u)

/-- What becomes of a dictionary when a request is answered so. -/
def Entries.follow (d : Entries) : Request → Except Error (Option ℤ) → Entries
  | .put item count _, .ok _ => d.add item count
  | .purge .., .ok (some median) => d.lessen median
  | _, _ => d

/-- A table next to the dictionary that it is compared with. -/
structure Paired where
  /-- The table. -/
  table : Table ℤ
  /-- The dictionary. -/
  dictionary : Entries

namespace Paired

/-- An empty table of `2 ^ lg` slots, and an empty dictionary. -/
def ofLog2 (lg : ℕ) : Paired := ⟨Table.ofLog2 lg, []⟩

/-- One request. -/
def step (p : Paired) (request : Request) : Paired :=
  let (answer, table) := p.table.serve request
  ⟨table, p.dictionary.follow request answer⟩

/-- A series of requests. -/
def run (p : Paired) (requests : List Request) : Paired := requests.foldl step p

/-- The table says what the dictionary says. -/
structure Agrees (p : Paired) : Prop where
  /-- No item occurs twice in the dictionary. -/
  distinct : p.dictionary.Distinct
  /-- The count of an item is that in the dictionary, or zero. -/
  count : ∀ item, p.table.count item = p.dictionary.count item
  /-- The table holds the items of the dictionary. -/
  contains : ∀ item, p.table.contains item = true ↔ item ∈ p.dictionary.keys
  /-- There are as many occupied slots as entries in the dictionary. -/
  active : p.table.active = p.dictionary.length
  /-- The entries are those of the dictionary, each once. -/
  entries : p.table.entries.Perm p.dictionary
  /-- All counts are positive. -/
  positive : ∀ e ∈ p.table.entries, 0 < e.2

/-- When a request is refused: a new item when one slot is empty, a number of slots that is no
greater power of two, and a purge of some counts by a sample of none. -/
def Refused (p : Paired) : Request → Prop
  | .put item _ _ => item ∉ p.dictionary.keys ∧ p.dictionary.length = p.table.length - 1
  | .resize size => ∀ lg, p.table.lgLength < lg → size ≠ .int (powerOfTwo lg : ℕ)
  | .purge _ _ size => p.dictionary ≠ [] ∧ size ≤ 0

/-! ### One request -/

/-- What holds after every request: the table holds the entries of the dictionary, and these are
positive. -/
structure Sound (p : Paired) : Prop where
  /-- The table holds the dictionary. -/
  holds : p.table.Holds p.table.lgLength p.dictionary
  /-- All counts are positive. -/
  positive : ∀ n ∈ p.dictionary.values, 0 < n

variable {p : Paired}

theorem Sound.agrees (h : p.Sound) : p.Agrees where
  distinct := h.holds.distinct
  count := h.holds.count_eq
  contains _ := h.holds.contains_iff
  active := h.holds.active_eq
  entries := h.holds.perm
  positive e he := h.positive e.2 (List.mem_map_of_mem (h.holds.perm.mem_iff.mp he))

theorem sound_ofLog2 (lg : ℕ) : (ofLog2 lg).Sound :=
  ⟨Table.Holds.ofLog2 lg, fun _ hn => absurd hn List.not_mem_nil⟩

/-- A pair with the same dictionary is sound if its table holds that. -/
private theorem Sound.of_holds {t : Table ℤ} {lg : ℕ} {d : Entries} (h : t.Holds lg d)
    (hpos : ∀ n ∈ d.values, 0 < n) : Sound ⟨t, d⟩ :=
  ⟨h.lgLength_eq.symm ▸ h, hpos⟩

/-- What a request does: it is refused in the cases said, and changes nothing then; otherwise both
are brought up to date. -/
structure Serves (p : Paired) (request : Request) : Prop where
  /-- The refusals. -/
  refused_iff : (∃ e, (p.table.serve request).1 = .error e) ↔ p.Refused request
  /-- A refusal changes nothing. -/
  unchanged : p.Refused request → p.step request = p
  /-- Otherwise the table has the length that was asked for, or as many slots as before. -/
  length_eq : ¬ p.Refused request → (p.step request).table.length = request.lengthFrom p.table.length
  /-- What holds before holds after. -/
  sound : (p.step request).Sound

/-- A request that is refused. -/
private theorem Serves.refuse {request : Request} {e : Error} (h : p.Sound) (hr : p.Refused request)
    (hserve : p.table.serve request = (.error e, p.table)) : p.Serves request := by
  have hstep : p.step request = p := by
    rw [step, hserve]
    cases request <;> rfl
  refine ⟨⟨fun _ => hr, fun _ => ⟨e, by rw [hserve]⟩⟩, fun _ => hstep, fun hnot => absurd hr hnot, ?_⟩
  rw [hstep]
  exact h

/-- A request that is answered. -/
private theorem Serves.answer {request : Request} {a : Option ℤ} {u : Table ℤ} {lg : ℕ}
    (hr : ¬ p.Refused request) (hserve : p.table.serve request = (.ok a, u))
    (hlength : powerOfTwo lg = request.lengthFrom p.table.length)
    (hholds : u.Holds lg (p.dictionary.follow request (.ok a)))
    (hpos : ∀ n ∈ Entries.values (p.dictionary.follow request (.ok a)), 0 < n) :
    p.Serves request := by
  have hstep : p.step request = ⟨u, p.dictionary.follow request (.ok a)⟩ := by rw [step, hserve]
  refine ⟨⟨fun ⟨e, he⟩ => ?_, fun h => absurd h hr⟩, fun h => absurd h hr, fun _ => ?_, ?_⟩
  · rw [hserve] at he
    cases he
  · rw [hstep, ← hlength]
    exact hholds.length_eq
  · rw [hstep]
    exact Sound.of_holds hholds hpos

private theorem Sound.put (h : p.Sound) (item count : ℤ) (positive : 0 < count) :
    p.Serves (.put item count positive) := by
  have hlt := h.holds.length_lt
  have hlength := h.holds.length_eq
  by_cases hr : p.Refused (.put item count positive)
  · have hfull := h.holds.put_full count hr.1 (by rw [hr.2]; omega)
    have hserve : p.table.serve (.put item count positive) =
        (.error (.tableFull p.dictionary.length (powerOfTwo p.table.lgLength)), p.table) := by
      simp only [Table.serve, hfull]
    exact Serves.refuse h hr hserve
  · have hroom : item ∈ p.dictionary.keys ∨ p.dictionary.length + 1 < powerOfTwo p.table.lgLength := by
      by_contra hno
      rw [not_or] at hno
      exact hr ⟨hno.1, by omega⟩
    obtain ⟨u, hu, hholds⟩ := h.holds.put item count hroom
    exact Serves.answer (a := none) hr (by simp only [Table.serve, hu]) hlength.symm hholds
      (Entries.values_add_pos h.positive positive)

/-- Only a greater power of two is accepted. -/
private theorem exists_resize_error {t : Table ℤ} {size : Scalar}
    (h : ∀ lg, t.lgLength < lg → size ≠ .int (powerOfTwo lg : ℕ)) :
    ∃ e, t.resize size = .error e := by
  unfold Table.resize
  cases hlog : size.toLog2 "new_size" with
  | error e => exact ⟨e, rfl⟩
  | ok lg =>
    have hle : lg ≤ t.lgLength := not_lt.mp fun hlt => h lg hlt (Scalar.toLog2_eq_ok_iff.mp hlog)
    exact ⟨.noGrowth t.length (powerOfTwo lg), by simp only [bind, Except.bind, hle, if_true]; rfl⟩

private theorem Sound.resize (h : p.Sound) (size : Scalar) : p.Serves (.resize size) := by
  by_cases hr : p.Refused (.resize size)
  · obtain ⟨e, he⟩ := exists_resize_error hr
    exact Serves.refuse (e := e) h hr (by simp only [Table.serve, he])
  · obtain ⟨lg, hlg, rfl⟩ : ∃ lg, p.table.lgLength < lg ∧ size = .int (powerOfTwo lg : ℕ) := by
      simpa only [Refused, ne_eq, not_forall, Decidable.not_not, exists_prop] using hr
    obtain ⟨u, hu, hholds⟩ := h.holds.resize hlg
    exact Serves.answer (a := none) hr (by simp only [Table.serve, hu]) rfl hholds h.positive

private theorem Sound.purge (h : p.Sound) (src : DrawSource) (g : src.State) (size : ℤ) :
    p.Serves (.purge src g size) := by
  by_cases hr : p.Refused (.purge src g size)
  · have herror := h.holds.purge_refused src hr.1 hr.2 g
    exact Serves.refuse (e := .sampleSize) h hr (by simp only [Table.serve, herror]; rfl)
  · rcases eq_or_ne p.dictionary [] with hnil | hne
    · -- there is nothing to purge
      have hzero := Table.Holds.purge_nil src (hnil ▸ h.holds) (.int size) g
      have hfollow : p.dictionary.follow (.purge src g size) (.ok (some 0)) = [] := by
        rw [hnil]
        rfl
      have hholds := hnil ▸ h.holds
      refine Serves.answer (a := some 0) hr (by simp only [Table.serve, hzero]; rfl)
        h.holds.length_eq.symm (hfollow ▸ hholds) fun n hn => ?_
      rw [hfollow] at hn
      cases hn
    · have hsize : 0 < size := not_le.mp fun hle => hr ⟨hne, hle⟩
      obtain ⟨m, u, g', hpurge, hholds, -⟩ := h.holds.purge src hne hsize g
      exact Serves.answer (a := some m) hr (by simp only [Table.serve, hpurge]; rfl)
        h.holds.length_eq.symm hholds (Entries.values_lessen_pos p.dictionary m)

/-- Every request is served. -/
theorem Sound.serves (h : p.Sound) : ∀ request, p.Serves request
  | .put item count positive => h.put item count positive
  | .resize size => h.resize size
  | .purge src g size => h.purge src g size

/-! ### All requests -/

theorem Sound.run (h : p.Sound) (requests : List Request) : (p.run requests).Sound := by
  induction requests generalizing p with
  | nil => exact h
  | cons request requests ih => exact ih (h.serves request).sound

end Paired

/-- A source that always draws the same number, or the greatest that may be drawn if that is less. -/
def Table.constantDraws (n : ℕ) : DrawSource where
  State := Unit
  ofSeed _ := ()
  draw _ bound := (min n (bound - 1), ())
  draw_lt _ _ h := by
    dsimp only
    omega

/-- **A table refines a dictionary**, from any number of slots that is a power of two on. -/
theorem Table.refines_dictionary (lg : ℕ) (requests : List Request) :
    let p := (Paired.ofLog2 lg).run requests
    p.Agrees ∧ ∀ request,
      ((∃ e, (p.table.serve request).1 = .error e) ↔ p.Refused request) ∧
        (p.Refused request → p.step request = p) ∧
        (¬ p.Refused request →
          (p.step request).table.length = request.lengthFrom p.table.length) := by
  have hsound := (Paired.sound_ofLog2 lg).run requests
  refine ⟨hsound.agrees, fun request => ?_⟩
  have hserves := hsound.serves request
  exact ⟨hserves.refused_iff, hserves.unchanged, hserves.length_eq⟩

/-- Of three items two share a home. The table grows once, and a purge by the median of the counts leaves
one of the items. -/
example :
    let p := (Paired.ofLog2 3).run [.put 2 5 (by decide), .put 8 1 (by decide), .put (-3) 4 (by decide),
      .resize (.int 12), .resize (.int 16), .put 8 1 (by decide), .purge (Table.constantDraws 0) () 256]
    p.table.length = 16 ∧ p.table.entries = [(2, 1)] ∧ p.dictionary = [(2, 1)] ∧ p.table.count 8 = 0 := by
  decide +kernel

/-! ### Reachable tables -/

namespace Table

/-- The tables that can be made by requests, in any order, also by requests that are refused. -/
inductive Reachable : Table ℤ → Prop
  /-- An empty table. -/
  | ofLog2 (lg : ℕ) : Reachable (ofLog2 lg)
  /-- What becomes of a table by a request. -/
  | serve {t : Table ℤ} (h : Reachable t) (request : Request) : Reachable (t.serve request).2

namespace Reachable

variable {t : Table ℤ}

/-- A reachable table stands next to a dictionary that it holds. -/
theorem exists_sound (h : t.Reachable) : ∃ d, Paired.Sound ⟨t, d⟩ := by
  induction h with
  | ofLog2 lg => exact ⟨[], Paired.sound_ofLog2 lg⟩
  | serve _ request ih =>
    obtain ⟨d, hsound⟩ := ih
    exact ⟨_, (hsound.serves request).sound⟩

theorem layout (h : t.Reachable) : Layout t := by
  obtain ⟨d, hsound⟩ := h.exists_sound
  exact hsound.holds.layout

theorem holds (h : t.Reachable) : t.Holds t.lgLength t.entries := .self h.layout

/-- All counts in a reachable table are positive. -/
theorem positive (h : t.Reachable) : ∀ n ∈ Entries.values t.entries, 0 < n := by
  obtain ⟨d, hsound⟩ := h.exists_sound
  exact fun n hn => hsound.positive n ((hsound.holds.perm.map Prod.snd).mem_iff.mp hn)

end Reachable

end Table

end HeavyHitters
