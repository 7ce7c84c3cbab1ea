import HeavyHitters.Error

/-!
# Checked arguments

The checks that turn a scalar into the integer it has to be. Two of them name the argument in their
refusal, and accept no truth values: a signed 64-bit integer may be anything that is an integer as an
index, and a power of two has to be an integer itself. The others let truth values pass for integers:
a key and a logarithm may be truth values, and the seed of a sketch may be anything that an integer
can be made of.
-/

namespace HeavyHitters

/-- The integers that fit in 64 bits with a sign. -/
def IsWord (n : Int) : Prop := minWord ≤ n ∧ n ≤ maxWord

instance (n : Int) : Decidable (IsWord n) := by
  unfold IsWord
  infer_instance

namespace Scalar

/-- The signed 64-bit integer that the argument `name` has to be. A truth value is none. -/
def toWord (name : String) (value : Scalar) : Except Error Int :=
  match value.index? with
  | some n => if IsWord n then .ok n else .error (.wordRange name n)
  | none => .error (.notInteger name value)

/-- The binary logarithm of the argument `name`, which has to be a power of two. -/
def toLog2 (name : String) : Scalar → Except Error Nat
  | int n =>
    let lg := n.toNat.log2
    if n = powerOfTwo lg then .ok lg else .error (.notPower name n)
  | value => .error (.powerNotInteger name value)

/-- The key that a scalar is. -/
def toKey (value : Scalar) : Except Error Int :=
  match value.whole? with
  | some n => .ok n
  | none => .error (.notOperands "&" value.typeName integerType)

/-- The logarithm that a scalar is; it is not negative, and there is memory for its power. -/
def toLogarithm (value : Scalar) : Except Error Nat :=
  match value.whole? with
  | none => .error (.notOperands "<<" integerType value.typeName)
  | some n =>
    if n < 0 then .error .negativeLogarithm
    else if n < unheldDigits then .ok n.toNat
    else if n < uncountedDigits then .error .outOfMemory
    else .error .uncountedDigits

/-- The integer that is made of a scalar: the integer part of a decimal, the integer whose numeral a
text is, and what a thing is as an index. -/
def toInteger : Scalar → Except Error Int
  | int n => .ok n
  | bool b => .ok (if b then 1 else 0)
  | nothing => .error (.notNumber .nothing)
  | text s => (Text.readNumeral .usual s.toList).mapError .misread
  | decimal written =>
    match Quantity.ofDecimal written.toList with
    | .ratio num den => .ok (num.tdiv den)
    | .infinite _ => .error .infiniteInteger
    | .undefined => .error .undefinedInteger
  | thing t =>
    match t.index with
    | some n => .ok n
    | none => .error (.notNumber (.thing t))

@[simp] theorem toKey_int (n : Int) : (int n).toKey = .ok n := rfl

@[simp] theorem toInteger_int (n : Int) : (int n).toInteger = .ok n := rfl

theorem toLogarithm_int {n : Int} (h : 0 ≤ n) (hn : n < unheldDigits) :
    (int n).toLogarithm = .ok n.toNat := by
  have : ¬n < 0 := by omega
  simp [toLogarithm, this, hn]

theorem toWord_eq_ok_iff {name : String} {value : Scalar} {n : Int} :
    value.toWord name = .ok n ↔ value.index? = some n ∧ IsWord n := by
  unfold toWord
  cases value.index? with
  | none => simp
  | some m =>
    by_cases h : IsWord m
    · simp only [h, if_true, Except.ok.injEq, Option.some.injEq]
      exact ⟨fun e => ⟨e, e ▸ h⟩, fun e => e.1⟩
    · simp only [h, if_false, reduceCtorEq, Option.some.injEq, false_iff, not_and]
      rintro rfl
      exact h

theorem toWord_int_of_isWord {name : String} {n : Int} (h : IsWord n) :
    (int n).toWord name = .ok n :=
  toWord_eq_ok_iff.mpr ⟨rfl, h⟩

theorem toLog2_eq_ok_iff {name : String} {value : Scalar} {lg : Nat} :
    value.toLog2 name = .ok lg ↔ value = .int (powerOfTwo lg) := by
  cases value with
  | int n =>
    simp only [toLog2, int.injEq]
    constructor
    · split
      · rename_i h
        rintro ⟨⟩
        exact h
      · intro h
        cases h
    · rintro rfl
      simp
  | _ => simp [toLog2]

end Scalar

end HeavyHitters
