import HeavyHitters.Limits
import HeavyHitters.Snapshot.Layout
import HeavyHitters.Text.Misreading

/-!
# Corruption of an encoded snapshot

What can be wrong with the bytes or the line that a snapshot is read from, and the message that
reports it.
-/

namespace HeavyHitters

/-- Why an encoded snapshot was refused. -/
inductive Corruption where
  /-- Fewer bytes than the first word of a snapshot takes. -/
  | shortHeader (found : Nat)
  /-- The header's length in words is neither of the two that exist. -/
  | headerWords (found : Nat)
  /-- An unknown version of the encoding. -/
  | version (found : Int)
  /-- The encoding of another family of sketches. -/
  | family (found : Int)
  /-- The empty flag and the header's length contradict each other. -/
  | emptyFlagMismatch
  /-- The items are of another type. -/
  | itemType (found : Int)
  /-- More bytes than an empty snapshot has. -/
  | emptyLength (found : Nat)
  /-- Fewer bytes than the full header takes. -/
  | shortPreamble (found : Nat)
  /-- The number of bytes does not fit the number of counters. -/
  | byteCount (active found : Nat)
  /-- The greatest table length, given by its binary logarithm, is out of range. -/
  | maxLength (lgMax : Int)
  /-- The table length, given by its binary logarithm, is out of range. -/
  | tableLength (lgMax lgLength : Int)
  /-- The offset is negative. -/
  | negativeOffset (offset : Int)
  /-- The empty flag is set, but something was counted. -/
  | flaggedEmpty (streamLength : Int) (active : Int)
  /-- The empty flag is clear, but nothing was counted. -/
  | unflaggedEmpty
  /-- Fewer fields than the header of a line has. -/
  | shortLine (fields : Nat)
  /-- A field that was not read as an integer. -/
  | badField (cause : Text.Misreading)
  /-- The number of fields does not fit the number of counters. -/
  | fieldCount (fields : Nat) (active : Int)
  /-- The table length is not a power of two. -/
  | lengthNotPower (found : Int)
  deriving DecidableEq

namespace Corruption

/-- What is wrong. -/
def reason : Corruption → String
  | shortHeader found => s!"need at least {Snapshot.bytesEmpty} bytes, got {found}"
  | headerWords found =>
    s!"preLongs must be {Snapshot.wordsEmpty} or {Snapshot.wordsFull}: {found}"
  | version found => s!"serVer must be {Snapshot.version}: {found}"
  | family found => s!"familyID must be {Snapshot.family}: {found}"
  | emptyFlagMismatch => "empty flag disagrees with preLongs"
  | itemType found => s!"sketch type must be {Snapshot.itemType}: {found}"
  | emptyLength found => s!"empty sketch must be {Snapshot.bytesEmpty} bytes, got {found}"
  | shortPreamble found => s!"need {Snapshot.bytesFull} preamble bytes, got {found}"
  | byteCount active found =>
    s!"{active} active items need {Snapshot.bytesFor active} bytes, got {found}"
  | maxLength lgMax => s!"lgMaxMapSize must be in [{lgMinLength}, {lgMaxLength}]: {lgMax}"
  | tableLength lgMax lgLength =>
    s!"lgCurMapSize must be in [{lgMinLength}, {lgMax}]: {lgLength}"
  | negativeOffset offset => s!"negative offset {offset}"
  | flaggedEmpty streamLength active =>
    s!"empty flag set with stream length {streamLength} and {active} active items"
  | unflaggedEmpty => "empty flag clear but stream length is 0"
  | shortLine fields => s!"string not long enough: {fields} tokens"
  | badField cause => s!"non-integer token ({cause.message})"
  | fieldCount fields active => s!"{fields} tokens do not hold {active} active items"
  | lengthNotPower found => s!"current map length must be a power of 2: {found}"

/-- The message that reports a corruption. -/
def message (c : Corruption) : String :=
  "Possible corruption: " ++ c.reason

end Corruption

end HeavyHitters
