import HeavyHitters.Error

/-!
# Writing scalars

The text of a scalar by itself, where it is an entry of a longer text. An integer is written in
decimal if it has not more digits than a limit allows.
-/

namespace HeavyHitters

/-- The text of an integer, if the limit allows it. -/
def writeInteger (limit : Text.DigitLimit) (n : Int) : Except Error (List Char) :=
  match limit.exceededByNumber? n.natAbs with
  | some k => .error (.tooManyDigits k)
  | none => .ok (Text.numeral n)

/-- The text of a scalar, without quotes if it is a text. -/
def Scalar.written (limit : Text.DigitLimit) : Scalar → Except Error (List Char)
  | .int n => writeInteger limit n
  | value => .ok value.plain.toList

theorem Scalar.written_unlimited (n : Int) :
    (Scalar.int n).written .unlimited = .ok (Text.numeral n) := rfl

theorem mapM_written_unlimited (ns : List Int) :
    (ns.map Scalar.int).mapM (Scalar.written .unlimited) = .ok (ns.map Text.numeral) := by
  induction ns with
  | nil => rfl
  | cons n ns ih => simp [List.mapM_cons, Scalar.written_unlimited, ih, bind, Except.bind, pure,
      Except.pure]

end HeavyHitters
