import HeavyHitters.Argument
import HeavyHitters.Scalar.Written
import HeavyHitters.Snapshot.Draft

/-!
# The line encoding

A snapshot as a line of integers with commas between them: the version, the family, the greatest
table length by its logarithm, the flags, the item type, the stream length, the offset, the number
of counters, the table length itself, and then an item and its count for each counter. The line of
a draft is the same, with its scalars as they are.

A line may be read with blanks around it, with commas at its end, and with its integers in any
form in which a numeral can be read. Writing and reading take a limit on the digits of an integer.
-/

namespace HeavyHitters.Snapshot

/-- The number of integers before the counters. -/
def headerFields : Nat := 9

/-! ### Writing -/

/-- The text of a power of two. It has more digits than a quarter of its logarithm, so that one
that is far too great for the limit need not be computed. -/
def writePower (limit : Text.DigitLimit) (lg : Nat) : Except Error (List Char) :=
  match limit.exceededBy? (lg / 4 + 1) with
  | some k => .error (.tooManyDigits k)
  | none => writeInteger limit (powerOfTwo lg)

/-- The line of a draft, if its table length is an integer. -/
def Draft.toLine (limit : Text.DigitLimit) (d : Draft) : Except Error String := do
  let lgLength ← d.lgLength.toLogarithm
  let header ← [.int version, .int family, d.lgMax, .int d.flags, .int itemType, d.streamLength,
    d.offset, .int d.active].mapM (·.written limit)
  let length ← writePower limit lgLength
  let counters ← (d.entries.flatMap fun e => [e.1, e.2]).mapM (·.written limit)
  return String.ofList ([','].intercalate (header ++ length :: counters))

/-- The line of a snapshot, if its table length is an integer. -/
def toLine (limit : Text.DigitLimit) (s : Snapshot) : Except Error String :=
  s.toDraft.toLine limit

/-- The integers of a line. -/
def lineFields (s : Snapshot) : List Int :=
  [(version : Int), family, s.lgMax, s.flags, itemType, s.streamLength, s.offset, s.active,
    powerOfTwo s.lgLength.toNat] ++ s.entries.flatMap fun e => [e.1, e.2]

/-- Without a limit the line of a snapshot is made of its integers, if there is memory for its
table length. -/
theorem toLine_unlimited {s : Snapshot} (h : 0 ≤ s.lgLength) (hm : s.lgLength < unheldDigits) :
    s.toLine .unlimited = .ok (String.ofList ([','].intercalate (s.lineFields.map Text.numeral)))
      := by
  have hl : s.toDraft.lgLength.toLogarithm = .ok s.lgLength.toNat := Scalar.toLogarithm_int h hm
  have hh := mapM_written_unlimited [(version : Int), family, s.lgMax, s.flags, itemType,
    s.streamLength, s.offset, s.active]
  have hc := mapM_written_unlimited (s.entries.flatMap fun e => [e.1, e.2])
  have he : (s.toDraft.entries.flatMap fun e => [e.1, e.2])
      = (s.entries.flatMap fun e => [e.1, e.2]).map Scalar.int := by
    simp [toDraft, List.flatMap_map, List.map_flatMap]
  simp only [List.map_cons, List.map_nil] at hh
  rw [toLine, Draft.toLine, hl, he, hc]
  simp only [bind, Except.bind, Draft.flags_toDraft, Draft.active_toDraft]
  simp only [toDraft] at hh ⊢
  rw [hh]
  simp [lineFields, writePower, writeInteger, Text.DigitLimit.exceededBy?,
    Text.DigitLimit.exceededByNumber?, pure, Except.pure]

/-! ### Reading -/

/-- The fields of a line, as they were written. -/
def splitLine (cs : List Char) : List (List Char) :=
  (Text.dropEndWhile (· == ',') (Text.trim Text.isBlank cs)).splitOn ','

/-- The integer of a field. -/
def readField (limit : Text.DigitLimit) (field : List Char) : Except Corruption Int :=
  (Text.readNumeral limit field).mapError .badField

/-- The counters that the integers after the header make up. -/
def pairUp : List Int → List (Int × Int)
  | item :: count :: rest => (item, count) :: pairUp rest
  | _ => []

/-- The snapshot that the integers of a line stand for. -/
def ofFields : List Int → Except Corruption Snapshot
  | ver :: fam :: lgMax :: marks :: type :: streamLength :: offset :: active :: length :: rest => do
    ensure (ver = version) (.version ver)
    ensure (fam = family) (.family fam)
    ensure (type = itemType) (.itemType type)
    ensure (0 ≤ active ∧ (rest.length : Int) = 2 * active)
      (.fieldCount (headerFields + rest.length) active)
    ensure (length = powerOfTwo length.toNat.log2) (.lengthNotPower length)
    let lgLength := length.toNat.log2
    checkLengths lgMax lgLength
    ensure (0 ≤ offset) (.negativeOffset offset)
    checkEmptiness (0 < marks) streamLength active
    return ⟨lgMax, lgLength, streamLength, offset, pairUp rest⟩
  | fields => .error (.shortLine fields.length)

/-- The snapshot that a line stands for. -/
def ofLine (limit : Text.DigitLimit) (line : String) : Except Corruption Snapshot := do
  let fields := splitLine line.toList
  ensure (headerFields ≤ fields.length) (.shortLine fields.length)
  let numbers ← fields.mapM (readField limit)
  ofFields numbers

end HeavyHitters.Snapshot
