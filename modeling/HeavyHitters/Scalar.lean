import HeavyHitters.Quantity
import HeavyHitters.Text.Quoted

/-!
# Scalars

A scalar is a value that a caller supplies where an integer is expected. Most are integers; the
others are kept apart so that they can be refused, and named in the refusal: a scalar has a
literal text and a type name. Some requests are more lenient than others: a truth value may pass
for an integer (`whole?`), a decimal for a quantity (`quantity?`), and a thing of any other kind for
the integer that it is as an index (`index?`).
-/

namespace HeavyHitters

/-- A thing of some other kind. It has a text, and it may be an integer where an index is asked for, which
has no other effect; but it cannot be compared, and nothing can be added to it. -/
structure Thing where
  /-- The name of its kind. -/
  kind : String
  /-- The text that stands for it in a message. -/
  literal : String
  /-- Its text by itself. -/
  plain : String
  /-- The integer that it is as an index, if it is one. -/
  index : Option Int
  deriving DecidableEq

/-- A value supplied by a caller. -/
inductive Scalar where
  /-- An integer of any size. -/
  | int (n : Int)
  /-- A truth value. -/
  | bool (b : Bool)
  /-- No value. -/
  | nothing
  /-- A text. -/
  | text (s : String)
  /-- A number with a fraction or an exponent, kept as it was written. -/
  | decimal (written : String)
  /-- Anything else. -/
  | thing (t : Thing)
  deriving DecidableEq

namespace Scalar

instance : Coe Int Scalar := ⟨Scalar.int⟩

/-! ### Text -/

/-- The text that stands for a scalar in a message. -/
def literal : Scalar → String
  | int n => toString n
  | bool true => "True"
  | bool false => "False"
  | nothing => "None"
  | text s => String.ofList (Text.quoted s.toList)
  | decimal written => written
  | thing t => t.literal

/-- The text of a scalar by itself: that of a text is not quoted. -/
def plain : Scalar → String
  | text s => s
  | thing t => t.plain
  | value => value.literal

/-- The name that a message uses for integers. -/
def integerType : String := "int"

/-- The name that a message uses for the kind of a scalar. -/
def typeName : Scalar → String
  | int _ => integerType
  | bool _ => "bool"
  | nothing => "NoneType"
  | text _ => "str"
  | decimal _ => "float"
  | thing t => t.kind

/-! ### Value -/

/-- The integer that a scalar is, or passes for: a truth value is one or zero. -/
def whole? : Scalar → Option Int
  | int n => some n
  | bool b => some (if b then 1 else 0)
  | _ => none

/-- The integer that a scalar is as an index. A truth value is none. -/
def index? : Scalar → Option Int
  | int n => some n
  | thing t => t.index
  | _ => none

/-- The quantity that a scalar is. -/
def quantity? : Scalar → Option Quantity
  | decimal written => some (.ofDecimal written.toList)
  | value => value.whole?.map .ofInt

/-- Whether a scalar is a truth value. -/
def isTruth : Scalar → Bool
  | bool _ => true
  | _ => false

/-- Whether a scalar is a number and zero. -/
def isZero (value : Scalar) : Bool := value.quantity?.any Quantity.isZero

@[simp] theorem whole?_int (n : Int) : (int n).whole? = some n := rfl

@[simp] theorem index?_int (n : Int) : (int n).index? = some n := rfl

@[simp] theorem index?_bool (b : Bool) : (bool b).index? = none := rfl

@[simp] theorem quantity?_int (n : Int) : (int n).quantity? = some (.ofInt n) := rfl

@[simp] theorem isZero_int (n : Int) : (int n).isZero = decide (n = 0) := by
  simp [isZero]

end Scalar

end HeavyHitters
