import HeavyHitters.Text.Quoted

/-!
# Misreadings

Why a text was not read as a numeral, and the message that reports it.
-/

namespace HeavyHitters.Text

/-- Why a text was not read as a numeral. -/
inductive Misreading where
  /-- The text is no numeral. -/
  | malformed (text : List Char)
  /-- The text starts with `digits` digits, which is more than the limit of `limit`. -/
  | tooLong (limit digits : Nat)
  deriving DecidableEq

namespace Misreading

/-- How many characters of a malformed text, quotes included, a message shows. -/
def shownLength : Nat := 200

/-- A malformed text in a message. -/
def shown (text : List Char) : String :=
  String.ofList ((quoted text).take shownLength)

/-- The message that reports a misreading. -/
def message : Misreading → String
  | malformed text => s!"invalid literal for int() with base 10: {shown text}"
  | tooLong limit digits =>
    s!"Exceeds the limit ({limit} digits) for integer string conversion: " ++
      s!"value has {digits} digits; use sys.set_int_max_str_digits() to increase the limit"

end Misreading

end HeavyHitters.Text
