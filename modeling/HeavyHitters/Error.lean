import HeavyHitters.Limits
import HeavyHitters.PowerOfTwo
import HeavyHitters.Scalar
import HeavyHitters.Snapshot.Corruption

/-!
# Errors

Every cause for which a request can be refused, the kind of error that a caller is told of it by, and
the message that reports it.
-/

namespace HeavyHitters

/-- Why a request was refused. -/
inductive Error where
  /-- The argument `name` is not an integer. -/
  | notInteger (name : String) (value : Scalar)
  /-- The argument `name` does not fit in 64 bits with a sign. -/
  | wordRange (name : String) (value : Int)
  /-- The argument `name`, which has to be a power of two, is not an integer. -/
  | powerNotInteger (name : String) (value : Scalar)
  /-- The argument `name` is an integer, but no power of two. -/
  | notPower (name : String) (value : Int)
  /-- A table of `length` slots would be too small. -/
  | tableLength (length : Nat)
  /-- A table of `length` slots cannot be resized to `requested` slots. -/
  | noGrowth (length requested : Nat)
  /-- No slot can be given to a new item. -/
  | tableFull (active length : Nat)
  /-- A sample of no elements was asked for. -/
  | sampleSize
  /-- There is no element of rank `rank` among `size` values. -/
  | rankRange (rank : Scalar) (size : Nat)
  /-- The search for an element of a fractional rank ended behind the last value. -/
  | noElement
  /-- The median of no values was asked for. -/
  | emptyPopulation
  /-- A sketch cannot be limited to so small a table. -/
  | maxLengthLow (lgMax : Scalar)
  /-- A sketch cannot be limited to so large a table. -/
  | maxLengthHigh (lgMax : Scalar)
  /-- A sketch cannot start with a table longer than its limit. -/
  | startLength (lgLength lgMax : Scalar)
  /-- A negative count was to be added. -/
  | negativeCount
  /-- The sum of all counts would leave the 64-bit range. -/
  | streamOverflow
  /-- The sum of all counts of both sketches would leave the 64-bit range. -/
  | mergedOverflow
  /-- Something that is not a sketch was to be merged. -/
  | notSketch
  /-- A purge left too many counters. -/
  | purgeIneffective
  /-- A frequent-items query did not name one of the two guarantees. -/
  | notGuarantee (value : Scalar)
  /-- A snapshot has a negative offset or stream length. -/
  | negativeSnapshot
  /-- A field does not fit its width in the binary encoding. -/
  | fieldWidth
  /-- The table length of a snapshot is not an integer power of two. -/
  | negativeLogarithm
  /-- An integer has more than `limit` digits, and cannot be written. -/
  | tooManyDigits (limit : Nat)
  /-- An encoded snapshot is corrupt. -/
  | corrupt (corruption : Corruption)
  /-- The greatest of no rows was asked for. -/
  | noRows
  /-- Two things of kinds that have no common order were compared. -/
  | incomparable (relation left right : String)
  /-- An operation on integers was asked of other kinds of things. -/
  | notOperands (operation left right : String)
  /-- Something of another kind was to be added to a text. -/
  | notJoined (right : String)
  /-- The opposite of something that is no number was asked for. -/
  | notNegated (kind : String)
  /-- Something that has no text of a given width was to be put in a column. -/
  | notAligned (kind : String)
  /-- A text that has to be a numeral was not read as one. -/
  | misread (cause : Text.Misreading)
  /-- A value that has to be a number is none. -/
  | notNumber (value : Scalar)
  /-- An undefined quantity has no integer part. -/
  | undefinedInteger
  /-- An infinite quantity has no integer part. -/
  | infiniteInteger
  /-- An integer is too large for the decimal that it has to become. -/
  | tooLargeForDecimal
  /-- There is no memory for what was asked for. -/
  | outOfMemory
  /-- More slots were asked for than can be counted. -/
  | uncountedLength
  /-- An integer would have more digits than can be counted. -/
  | uncountedDigits
  deriving DecidableEq

/-- The kinds of errors that a caller can tell apart. -/
inductive ErrorKind where
  /-- A value is of the right type, but not acceptable. -/
  | value
  /-- A value is of a wrong type. -/
  | type
  /-- Something is in a state in which it cannot go on. -/
  | runtime
  /-- A number is too large. -/
  | overflow
  /-- A position lies outside a sequence. -/
  | index
  /-- There is no memory left. -/
  | memory
  /-- A number does not fit its field. -/
  | field
  deriving DecidableEq

/-- The name under which a kind of errors is known. -/
def ErrorKind.name : ErrorKind → String
  | value => "ValueError"
  | type => "TypeError"
  | runtime => "RuntimeError"
  | overflow => "OverflowError"
  | index => "IndexError"
  | memory => "MemoryError"
  | field => "struct.error"

namespace Error

/-- The kind of an error. -/
def kind : Error → ErrorKind
  | tableFull _ _ | purgeIneffective => .runtime
  | notSketch | incomparable _ _ _ | notOperands _ _ _ | notJoined _ | notNegated _
  | notAligned _ | notNumber _ => .type
  | infiniteInteger | tooLargeForDecimal | uncountedLength | uncountedDigits => .overflow
  | noElement => .index
  | outOfMemory => .memory
  | fieldWidth => .field
  | _ => .value

/-- The message that reports that an integer cannot be written. -/
def digitsMessage (limit : Nat) : String :=
  s!"Exceeds the limit ({limit} digits) for integer string conversion; " ++
    "use sys.set_int_max_str_digits() to increase the limit"

/-- A report that ends with an integer, or the report that the integer cannot be written. -/
def reporting (report : String) (n : Int) : String :=
  match Text.DigitLimit.usual.exceededByNumber? n.natAbs with
  | some limit => digitsMessage limit
  | none => report ++ toString n

/-- The message that reports an error. -/
def message : Error → String
  | notInteger name value => s!"{name} must be an integer: {value.literal}"
  | wordRange name value => reporting s!"{name} must fit in a signed 64-bit integer: " value
  | powerNotInteger name value => s!"{name} must be an integer power of 2: {value.literal}"
  | notPower name value => s!"{name} must be a power of 2: {value}"
  | tableLength length => s!"map_size must be >= {powerOfTwo lgMinLength}: {length}"
  | noGrowth length requested =>
    s!"new_size must exceed the current length {length}: {requested}"
  | tableFull active length => s!"hash map is full ({active} of {length} slots)"
  | sampleSize => "sample size must be > 0"
  | rankRange rank size => s!"k={rank.literal} out of range for {size} values"
  | noElement => "list index out of range"
  | emptyPopulation => "cannot take the median of an empty population"
  | maxLengthLow lgMax => s!"max map size must be >= {powerOfTwo lgMinLength}: 2**{lgMax.literal}"
  | maxLengthHigh lgMax => s!"max map size must be <= {powerOfTwo lgMaxLength}: 2**{lgMax.literal}"
  | startLength lgLength lgMax =>
    s!"current map size 2**{lgLength.literal} exceeds maximum 2**{lgMax.literal}"
  | negativeCount => "count may not be negative"
  | streamOverflow => "stream length would overflow a signed 64-bit integer"
  | mergedOverflow => "merged stream length would overflow a signed 64-bit integer"
  | notSketch => "merge expects FrequentLongs"
  | purgeIneffective => "purge did not reduce active items"
  | notGuarantee value => s!"error_type must be an ErrorType: {value.literal}"
  | negativeSnapshot => "offset and stream length must be non-negative"
  | fieldWidth => "field out of range"
  | negativeLogarithm => "negative shift count"
  | tooManyDigits limit => digitsMessage limit
  | corrupt corruption => corruption.message
  | noRows => "max() arg is an empty sequence"
  | incomparable relation left right =>
    s!"\x27{relation}\x27 not supported between instances of " ++
      s!"\x27{left}\x27 and \x27{right}\x27"
  | notOperands operation left right =>
    s!"unsupported operand type(s) for {operation}: \x27{left}\x27 and \x27{right}\x27"
  | notJoined right => s!"can only concatenate str (not \x22{right}\x22) to str"
  | notNegated kind => s!"bad operand type for unary -: \x27{kind}\x27"
  | notAligned kind => s!"unsupported format string passed to {kind}.__format__"
  | misread cause => cause.message
  | notNumber value =>
    "int() argument must be a string, a bytes-like object or a real number, not " ++
      s!"\x27{value.typeName}\x27"
  | undefinedInteger => "cannot convert float NaN to integer"
  | infiniteInteger => "cannot convert float infinity to integer"
  | tooLargeForDecimal => "int too large to convert to float"
  | outOfMemory => ""
  | uncountedLength => "cannot fit \x27int\x27 into an index-sized integer"
  | uncountedDigits => "too many digits in integer"

end Error

end HeavyHitters
