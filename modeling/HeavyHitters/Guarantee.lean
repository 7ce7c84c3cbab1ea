import HeavyHitters.Row

/-!
# Guarantees

The two guarantees that a frequent-items answer can give about a threshold. It cannot give both,
because a count is known only up to an error.
-/

namespace HeavyHitters

/-- What a frequent-items answer guarantees. -/
inductive Guarantee where
  /-- Every item listed reaches the threshold. -/
  | noFalsePositives
  /-- Every item that exceeds the threshold is listed. -/
  | noFalseNegatives
  deriving DecidableEq

namespace Guarantee

/-- Both guarantees. -/
def all : List Guarantee := [noFalsePositives, noFalseNegatives]

/-- The name of a guarantee. -/
def name : Guarantee → String
  | noFalsePositives => "NO_FALSE_POSITIVES"
  | noFalseNegatives => "NO_FALSE_NEGATIVES"

/-- The guarantee that a caller asks for. It has to be one of the two: its name is not enough. -/
def demanded : Guarantee ⊕ Scalar → Except Error Guarantee
  | .inl g => .ok g
  | .inr value => .error (.notGuarantee value)

/-- The bound of a row that has to reach the threshold for the row to be listed. -/
def bound : Guarantee → Row Int → Int
  | noFalsePositives, r => r.lower
  | noFalseNegatives, r => r.upper

end Guarantee

end HeavyHitters
