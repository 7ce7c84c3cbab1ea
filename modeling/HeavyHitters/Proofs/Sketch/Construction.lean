import HeavyHitters.Proofs.Results
import HeavyHitters.Proofs.Sketch.Counting

/-!
# New sketches

Whatever scalars a sketch is made of, it starts sound. The greatest length may be any number, and
is compared as such before its integer part is taken; the starting length is compared with the
number. So the starting length is at most the integer part, too.

## What is proved

* `ofLog2_eq_ok`: what a new sketch has passed, and what it consists of.
* `ofLog2_fresh`, `ofSize_fresh`: a new sketch is fresh, with its lengths in range.
* `lgLength_of_ofLog2`: it starts with the length that was asked for.
* `Fresh.sound`: a fresh sketch is sound.
* `reset_fresh`: a sketch that is reset is fresh again.
-/

namespace HeavyHitters

/-! ### Quantities of scalars -/

namespace Quantity

private theorem den_pos_of_significant {n d den : ℕ} {num : ℤ} (hd : 0 < d)
    (h : significant n d = .ratio num den) : 0 < den := by
  unfold significant at h
  dsimp only at h
  split_ifs at h
  · cases h
    exact hd
  · cases h
    exact Nat.one_pos

private theorem den_pos_of_ofUnsigned {cs : List Char} {num : ℤ} {den : ℕ}
    (h : ofUnsigned cs = .ratio num den) : 0 < den := by
  unfold ofUnsigned at h
  dsimp only at h
  split at h
  · cases h
  · split at h
    · cases h
    · split at h
      · exact den_pos_of_significant Nat.one_pos h
      · exact den_pos_of_significant (Nat.pow_pos (by decide)) h

/-- The quotient that a decimal stands for has a positive denominator. -/
theorem den_pos_of_ofDecimal {cs : List Char} {num : ℤ} {den : ℕ} (h : ofDecimal cs = .ratio num den) :
    0 < den := by
  unfold ofDecimal at h
  split at h
  · rename_i ds
    cases hq : ofUnsigned ds with
    | ratio a b =>
      rw [hq] at h
      cases h
      exact den_pos_of_ofUnsigned hq
    | _ =>
      rw [hq] at h
      cases h
  · exact den_pos_of_ofUnsigned h

end Quantity

namespace Scalar

/-- The integer made of a number is the integer part of a quotient. -/
theorem exists_ratio_of_toInteger {value : Scalar} {q : Quantity} {m : ℤ} (hq : value.quantity? = some q)
    (hm : value.toInteger = .ok m) :
    ∃ num den, q = .ratio num den ∧ 0 < den ∧ m = num.tdiv (den : ℤ) := by
  cases value with
  | int n =>
    cases hq
    cases hm
    exact ⟨_, 1, rfl, Nat.one_pos, by simp⟩
  | bool b =>
    cases hq
    cases hm
    exact ⟨_, 1, rfl, Nat.one_pos, by simp⟩
  | nothing => cases hq
  | text s => cases hq
  | decimal written =>
    cases hq
    simp only [toInteger] at hm
    split at hm
    · rename_i num den heq
      cases hm
      exact ⟨num, den, heq, Quantity.den_pos_of_ofDecimal heq, rfl⟩
    · cases hm
    · cases hm
  | thing t => cases hq

/-- What passes for an integer has its quantity. -/
theorem quantity?_of_whole? {value : Scalar} {n : ℤ} (h : value.whole? = some n) :
    value.quantity? = some (.ofInt n) := by
  cases value <;> simp_all [whole?, quantity?]

/-- A logarithm passes for an integer that is not negative. -/
theorem whole?_of_toLogarithm {value : Scalar} {lg : ℕ} (h : value.toLogarithm = .ok lg) :
    value.whole? = some (lg : ℤ) := by
  unfold toLogarithm at h
  split at h
  · cases h
  · rename_i n hn
    split_ifs at h
    cases h
    rw [hn, Int.toNat_of_nonneg (by omega)]

/-- Two numbers are compared as quantities. -/
theorem less_of_quantity? {relation left right : String} {a b : Scalar} {p q : Quantity}
    (ha : a.quantity? = some p) (hb : b.quantity? = some q) :
    less relation left right a b = .ok (p.isBelow q) := by
  unfold less
  split
  · cases ha
  · simp only [ha, hb]

/-- A quotient that is not above another. -/
theorem mul_le_of_isAbove {a b : Scalar} {m n : ℤ} {k l : ℕ} (ha : a.quantity? = some (.ratio m k))
    (hb : b.quantity? = some (.ratio n l)) (h : a.isAbove b = .ok false) : m * l ≤ n * k := by
  rw [isAbove, less_of_quantity? hb ha] at h
  simpa [Quantity.isBelow] using h

/-- Only a number can be compared with an integer. -/
theorem exists_quantity_of_isBelow {value : Scalar} {n : ℤ} {b : Bool}
    (h : value.isBelow (.int n) = .ok b) : ∃ q, value.quantity? = some q := by
  unfold isBelow less at h
  split at h
  · rename_i heq
    cases heq
  · split at h
    · rename_i q _ hq _
      exact ⟨q, hq⟩
    · cases h

end Scalar

namespace Sketch

/-! ### Fresh sketches -/

/-- Nothing has been counted yet. -/
structure Fresh (s : Sketch) : Prop where
  /-- The table is empty. -/
  table_eq : s.table = Table.ofLog2 s.table.lgLength
  /-- The table has at least the least length. -/
  lgMin_le : lgMinLength ≤ s.table.lgLength
  /-- It has at most the greatest length of the sketch. -/
  lgLength_le : s.table.lgLength ≤ s.lgMax
  /-- That is one which a sketch may have. -/
  lgMax_le : s.lgMax ≤ lgMaxLength
  /-- The capacity is noted. -/
  capacity_eq : s.capacity = s.table.capacity
  /-- Nothing has been subtracted. -/
  offset_eq : s.offset = 0
  /-- Nothing has been added. -/
  streamLength_eq : s.streamLength = 0
  /-- The totals are shown as integers. -/
  truths_eq : s.truths = .none

theorem Fresh.holds {s : Sketch} (h : s.Fresh) : s.table.Holds s.table.lgLength [] := by
  have := Table.Holds.ofLog2 s.table.lgLength
  rwa [← h.table_eq] at this

theorem Fresh.counters_eq {s : Sketch} (h : s.Fresh) : s.counters = [] := h.holds.perm.eq_nil

/-- **A fresh sketch is sound.** -/
theorem Fresh.sound {s : Sketch} (h : s.Fresh) : s.Sound where
  layout := h.holds.layout
  lgMin_le := h.lgMin_le
  lgLength_le := h.lgLength_le
  lgMax_le := h.lgMax_le
  capacity_eq := h.capacity_eq
  positive n hn := by
    rw [h.counters_eq] at hn
    cases hn
  active_le := by
    have hactive : s.active = 0 := h.holds.active_eq
    omega

/-- The integer part of a quotient has the same integers as bounds. -/
private theorem tdiv_bounds {num : ℤ} {den lg lg' : ℕ} (hden : 0 < den) (hle' : num ≤ lg' * den)
    (hle : lg * den ≤ num) : lg ≤ (num.tdiv den).toNat ∧ (num.tdiv den).toNat ≤ lg' := by
  have hpos : (0 : ℤ) < den := by exact_mod_cast hden
  have hnonneg : 0 ≤ num := le_trans (by positivity) hle
  have hlower : (lg : ℤ) ≤ num / den := (Int.le_ediv_iff_mul_le hpos).mpr hle
  have hupper : num / den ≤ lg' := Int.ediv_le_of_le_mul hpos hle'
  rw [Int.tdiv_eq_ediv_of_nonneg hnonneg]
  omega

/-- The starting length, if it is not `short` of the least one. -/
private abbrev started (short : Bool) (lgLength : Scalar) : Scalar :=
  if short then .int lgMinLength else lgLength

/-- **What a new sketch consists of**, and the comparisons that its lengths have passed. -/
private theorem ofLog2_eq_ok {lgMax lgLength seed : Scalar} {s : Sketch}
    (h : ofLog2 lgMax lgLength seed = .ok s) :
    ∃ short m lg n, lgMax.isBelow (.int lgMinLength) = .ok false ∧
      lgMax.isAbove (.int lgMaxLength) = .ok false ∧
      (Scalar.int lgMinLength).isAbove lgLength = .ok short ∧
      (started short lgLength).isAbove lgMax = .ok false ∧ lgMax.toInteger = .ok m ∧
      (started short lgLength).toLogarithm = .ok lg ∧
      s = ⟨m.toNat, .ofLog2 lg, (Table.ofLog2 lg : Table ℤ).capacity, 0, 0, n, .none⟩ := by
  unfold ofLog2 at h
  obtain ⟨low, hlow, h⟩ := bind_eq_ok.mp h
  cases low with
  | true => cases h
  | false =>
  obtain ⟨high, hhigh, h⟩ := bind_eq_ok.mp h
  cases high with
  | true => cases h
  | false =>
  obtain ⟨short, hshort, h⟩ := bind_eq_ok.mp h
  obtain ⟨long, hlong, h⟩ := bind_eq_ok.mp h
  cases long with
  | true => cases h
  | false =>
  obtain ⟨m, hm, h⟩ := bind_eq_ok.mp h
  obtain ⟨lg, hlg, h⟩ := bind_eq_ok.mp h
  obtain ⟨n, -, h⟩ := bind_eq_ok.mp h
  cases h
  exact ⟨short, m, lg, n, hlow, hhigh, hshort, hlong, hm, hlg, rfl⟩

/-- **A new sketch is fresh**, whatever scalars it is made of. Its greatest length is the integer
part of what was asked for. -/
theorem ofLog2_fresh {lgMax lgLength seed : Scalar} {s : Sketch} (h : ofLog2 lgMax lgLength seed = .ok s) :
    s.Fresh ∧ ∃ m, lgMax.toInteger = .ok m ∧ s.lgMax = m.toNat := by
  obtain ⟨short, m, lg, n, hlow, hhigh, hshort, hlong, hm, hlg, rfl⟩ := ofLog2_eq_ok h
  refine ⟨?_, m, hm, rfl⟩
  obtain ⟨q, hq⟩ := Scalar.exists_quantity_of_isBelow hlow
  obtain ⟨num, den, rfl, hden, rfl⟩ := Scalar.exists_ratio_of_toInteger hq hm
  have hwhole := Scalar.whole?_of_toLogarithm hlg
  have hquantity := Scalar.quantity?_of_whole? hwhole
  have hnum := Scalar.mul_le_of_isAbove hq (Scalar.quantity?_int _) hhigh
  have hlgnum := Scalar.mul_le_of_isAbove hquantity hq hlong
  obtain ⟨hle, hle'⟩ := tdiv_bounds hden (by simpa using hnum) (by simpa using hlgnum)
  have hlgmin : lgMinLength ≤ lg := by
    cases short with
    | true =>
      rw [started, if_pos rfl, Scalar.whole?_int, Option.some.injEq] at hwhole
      omega
    | false =>
      rw [started, if_neg Bool.false_ne_true] at hquantity
      have := Scalar.mul_le_of_isAbove (Scalar.quantity?_int _) hquantity hshort
      simpa using this
  exact ⟨rfl, hlgmin, hle, hle', rfl, rfl, rfl, rfl⟩

/-- **A new sketch starts with the length that was asked for**, if that is not below the least. -/
theorem lgLength_of_ofLog2 {lgMax seed : Scalar} {lgStart : ℕ} {s : Sketch} (hstart : lgMinLength ≤ lgStart)
    (h : ofLog2 lgMax (.int lgStart) seed = .ok s) : s.table.lgLength = lgStart := by
  obtain ⟨short, m, lg, n, -, -, hshort, -, -, hlg, rfl⟩ := ofLog2_eq_ok h
  rw [Scalar.isAbove_int, decide_eq_false (by omega)] at hshort
  cases hshort
  have hwhole := Scalar.whole?_of_toLogarithm hlg
  rw [started, if_neg Bool.false_ne_true, Scalar.whole?_int, Option.some.injEq] at hwhole
  exact (Int.ofNat_inj.mp hwhole).symm

/-- A new sketch of a greatest length is fresh, and has this greatest length. -/
theorem ofSize_fresh {maxLength seed : Scalar} {s : Sketch} (h : ofSize maxLength seed = .ok s) :
    s.Fresh ∧ maxLength = .int (powerOfTwo s.lgMax : ℕ) := by
  obtain ⟨lg, hlg, h⟩ := bind_eq_ok.mp h
  obtain ⟨hfresh, m, hm, hlgMax⟩ := ofLog2_fresh h
  cases hm
  rw [Int.toNat_natCast] at hlgMax
  exact ⟨hfresh, hlgMax ▸ Scalar.toLog2_eq_ok_iff.mp hlg⟩

/-- **A sketch that is reset is fresh again.** -/
theorem reset_fresh {s : Sketch} (h : s.Sound) : s.reset.Fresh :=
  ⟨rfl, le_rfl, h.lgMin_le.trans h.lgLength_le, h.lgMax_le, rfl, rfl, rfl, rfl⟩

end Sketch

end HeavyHitters
