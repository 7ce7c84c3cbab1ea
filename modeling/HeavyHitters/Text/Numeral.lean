import HeavyHitters.Text.Blank
import HeavyHitters.Text.DecimalDigit
import HeavyHitters.Text.Misreading

/-!
# Decimal numerals

Writing an integer and reading one. An integer is written with the digits `0` to `9`, without
leading zeros, after a minus sign if it is negative. Reading is more liberal: white space
around the numeral, a plus sign, leading zeros, digits of any script, and a single underscore
between two digits are all accepted.

Both ways, a limit on the number of digits may be set. Below the limit it changes nothing, and
reading without a limit fails only for a text that is no numeral (`readNumeral_unlimited`).
-/

namespace HeavyHitters.Text

/-! ### Limits -/

/-- How many digits the numeral of an integer may have. -/
inductive DigitLimit where
  /-- Any number of digits. -/
  | unlimited
  /-- At most `n` digits. -/
  | atMost (n : Nat)
  deriving DecidableEq

namespace DigitLimit

/-- The limit that is set unless another is asked for. -/
def usual : DigitLimit := .atMost 4300

/-- The limit that `digits` digits exceed, if they exceed one. -/
def exceededBy? : DigitLimit → (digits : Nat) → Option Nat
  | unlimited, _ => none
  | atMost n, digits => if n < digits then some n else none

/-- The limit that the digits of a number exceed, if they exceed one. -/
def exceededByNumber? : DigitLimit → Nat → Option Nat
  | unlimited, _ => none
  | atMost n, number => if number < Nat.pow 10 n then none else some n

end DigitLimit

/-! ### Writing -/

/-- The decimal numeral of an integer. -/
def numeral (n : Int) : List Char :=
  if n < 0 then '-' :: Nat.toDigits 10 n.natAbs else Nat.toDigits 10 n.natAbs

/-! ### Reading -/

/-- Reads digits up to the end of the text, after digits that make up `value`. A single
underscore may stand before each. -/
def readDigits? (value : Nat) : List Char → Option Nat
  | [] => some value
  | '_' :: c :: cs => (digitValue? c).bind fun d => readDigits? (10 * value + d) cs
  | c :: cs => (digitValue? c).bind fun d => readDigits? (10 * value + d) cs

/-- Reads a numeral without a sign: a digit, then digits up to the end of the text. -/
def readUnsigned? : List Char → Option Nat
  | [] => none
  | c :: cs => (digitValue? c).bind fun d => readDigits? d cs

/-- Reads a numeral with an optional sign. -/
def readSigned? : List Char → Option Int
  | '+' :: cs => (readUnsigned? cs).map fun n => (n : Int)
  | '-' :: cs => (readUnsigned? cs).map fun n => -(n : Int)
  | cs => (readUnsigned? cs).map fun n => (n : Int)

/-- Reads a numeral of any length with white space allowed on both sides of it. -/
def readNumeral? (cs : List Char) : Option Int :=
  readSigned? (trim isWhiteSpace cs)

/-- The text without the sign that it may start with. -/
def dropSign : List Char → List Char
  | '+' :: cs => cs
  | '-' :: cs => cs
  | cs => cs

/-- The number of digits that a text starts with, single underscores between them left out. There
is none if an underscore among them has no digit on one of its sides. -/
def leadingDigits? (cs : List Char) : Option Nat :=
  let groups := (cs.takeWhile fun c => c == '_' || (digitValue? c).isSome).splitOn '_'
  if groups.any List.isEmpty then none else some groups.flatten.length

/-- The limit that a text exceeds with the digits it starts with, whatever follows them. -/
def overlong? (limit : DigitLimit) (cs : List Char) : Option Misreading :=
  (leadingDigits? (dropSign (trim isWhiteSpace cs))).bind fun digits =>
    (limit.exceededBy? digits).map fun n => .tooLong n digits

/-- Reads a numeral with white space allowed on both sides of it. Too many digits are noticed
before anything that is wrong behind them. -/
def readNumeral (limit : DigitLimit) (cs : List Char) : Except Misreading Int :=
  match overlong? limit cs with
  | some e => .error e
  | none =>
    match readNumeral? cs with
    | some n => .ok n
    | none => .error (.malformed cs)

theorem overlong?_unlimited (cs : List Char) : overlong? .unlimited cs = none := by
  simp [overlong?, DigitLimit.exceededBy?]

theorem readNumeral_unlimited (cs : List Char) :
    readNumeral .unlimited cs = (readNumeral? cs).elim (.error (.malformed cs)) .ok := by
  rw [readNumeral, overlong?_unlimited]
  cases readNumeral? cs <;> rfl

theorem readNumeral_eq_ok {limit : DigitLimit} {cs : List Char} {n : Int}
    (h : readNumeral limit cs = .ok n) : readNumeral? cs = some n := by
  unfold readNumeral at h
  split at h
  · cases h
  · split at h
    · cases h
      assumption
    · cases h

end HeavyHitters.Text
