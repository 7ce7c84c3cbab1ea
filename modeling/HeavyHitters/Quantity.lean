import HeavyHitters.PowerOfTwo
import HeavyHitters.Text.Numeral

/-!
# Quantities

What a decimal with a point or an exponent stands for: a quotient, one of the two infinite
quantities, or the undefined one, which is neither below nor above any other.

A decimal has 53 significant binary digits. One that is less than `2 ^ 53` lies between the same
two integers with them as without them, so it is left as it is written; a greater one is rounded,
half to even, before it is compared with an integer.
-/

namespace HeavyHitters

/-- What a decimal stands for. -/
inductive Quantity where
  /-- The quotient of an integer by a positive number. -/
  | ratio (num : Int) (den : Nat)
  /-- More than every quotient, or less if it is negative. -/
  | infinite (negative : Bool)
  /-- Nothing that could be compared. -/
  | undefined
  deriving DecidableEq

namespace Quantity

/-- The quantity of an integer. -/
def ofInt (n : Int) : Quantity := .ratio n 1

/-! ### Comparison -/

/-- Whether the first quantity is less than the second. -/
def isBelow : Quantity → Quantity → Bool
  | ratio a b, ratio c d => a * d < c * b
  | ratio _ _, infinite negative => !negative
  | infinite negative, ratio _ _ => negative
  | infinite p, infinite q => p && !q
  | undefined, _ => false
  | _, undefined => false

/-- Whether an integer is not less than a quantity. -/
def isReachedBy : Quantity → Int → Bool
  | ratio a b, n => a ≤ n * b
  | infinite negative, _ => negative
  | undefined, _ => false

/-- Whether two quantities are equal. -/
def isSame : Quantity → Quantity → Bool
  | ratio a b, ratio c d => a * d == c * b
  | infinite p, infinite q => p == q
  | _, _ => false

/-- Whether a quantity is zero. -/
def isZero : Quantity → Bool
  | ratio a _ => a == 0
  | _ => false

/-- The least natural number that is not less than a quotient. -/
def ceiling (num : Int) (den : Nat) : Nat := (num.toNat + (den - 1)) / den

@[simp] theorem ceiling_one (num : Int) : ceiling num 1 = num.toNat := by
  simp [ceiling]

@[simp] theorem isBelow_ofInt (m n : Int) : (ofInt m).isBelow (ofInt n) = decide (m < n) := by
  simp [ofInt, isBelow]

@[simp] theorem isReachedBy_ofInt (m n : Int) : (ofInt m).isReachedBy n = decide (m ≤ n) := by
  simp [ofInt, isReachedBy]

@[simp] theorem isSame_ofInt (m n : Int) : (ofInt m).isSame (ofInt n) = decide (m = n) := by
  simp only [ofInt, isSame, Int.natCast_one, Int.mul_one]
  rfl

@[simp] theorem isZero_ofInt (n : Int) : (ofInt n).isZero = decide (n = 0) := by
  simp only [ofInt, isZero]
  rfl

/-! ### Decimals -/

/-- The integer nearest to a quotient, and of two that are equally near the even one. -/
def nearest (num den : Nat) : Nat :=
  let whole := num / den
  let rest := num % den
  if 2 * rest < den ∨ (2 * rest = den ∧ whole % 2 = 0) then whole else whole + 1

/-- The nearest integer is at most half a unit above the quotient. -/
theorem nearest_le (num den : Nat) : 2 * (den * nearest num den) ≤ 2 * num + den := by
  have h := Nat.div_add_mod num den
  unfold nearest
  dsimp only
  split
  · omega
  · rw [Nat.mul_succ]
    omega

/-- The nearest integer is at most half a unit below the quotient. -/
theorem le_nearest (num : Nat) {den : Nat} (hden : 0 < den) :
    2 * num ≤ 2 * (den * nearest num den) + den := by
  have h := Nat.div_add_mod num den
  have hr := Nat.mod_lt num hden
  unfold nearest
  dsimp only
  split
  · omega
  · rw [Nat.mul_succ]
    omega

/-- Halfway between two integers the even one is taken. -/
theorem nearest_mod_two_of_tie {num den : Nat} (h : 2 * (num % den) = den) :
    nearest num den % 2 = 0 := by
  unfold nearest
  dsimp only
  split <;> omega

/-- The number of significant binary digits. -/
def precision : Nat := 53

/-- A quotient, rounded to the significant digits if it is an integer with more of them. -/
def significant (num den : Nat) : Quantity :=
  let lg := (num / den).log2
  if lg < precision then .ratio num den
  else
    let unit := powerOfTwo (lg + 1 - precision)
    .ratio (nearest num (den * unit) * unit : Nat) 1

/-- The quantity of a decimal without a sign: digits, after which a point with more digits and an
exponent after the letter `e` may follow, or the name of the infinite quantity. -/
def ofUnsigned (cs : List Char) : Quantity :=
  if cs = ['i', 'n', 'f'] then .infinite false
  else
    let mantissa := cs.takeWhile (· != 'e')
    let whole := mantissa.takeWhile (· != '.')
    let fraction := mantissa.drop (whole.length + 1)
    let exponent := (Text.readSigned? (cs.drop (mantissa.length + 1))).getD 0
    let shift := exponent - fraction.length
    match Text.readUnsigned? (whole ++ fraction) with
    | none => .undefined
    | some digits =>
      if 0 ≤ shift then significant (digits * Nat.pow 10 shift.toNat) 1
      else significant digits (Nat.pow 10 shift.natAbs)

/-- The opposite quantity. -/
def negate : Quantity → Quantity
  | ratio a b => ratio (-a) b
  | infinite negative => infinite !negative
  | undefined => undefined

/-- The quantity that a decimal stands for. -/
def ofDecimal : List Char → Quantity
  | '-' :: cs => (ofUnsigned cs).negate
  | cs => ofUnsigned cs

end Quantity

end HeavyHitters
