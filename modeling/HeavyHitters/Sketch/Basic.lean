import HeavyHitters.Scalar.Order
import HeavyHitters.Scalar.Total
import HeavyHitters.Scalar.Written
import HeavyHitters.Table.Insert
import HeavyHitters.Table.Purge

/-!
# Sketches

A sketch counts the items of a stream in bounded memory. It keeps a table of counters, which
starts small and grows up to a greatest length; after that it is purged when it is full. The
offset is the sum of all amounts that purges have subtracted, so a counter is below the true count
of its item by at most the offset. The stream length is the sum of all counts.

Each purge draws from a fresh state, which depends on the seed of the sketch and on the stream
length, so a sketch is a function of its stream.

Both totals are integers. But a sketch may have been loaded from a record with a truth value in place
of one of them, and then it shows that truth value until the total changes.
-/

namespace HeavyHitters

/-- Which totals of a sketch are shown as truth values. -/
structure Truths where
  /-- Whether the offset is. -/
  offset : Bool
  /-- Whether the stream length is. -/
  streamLength : Bool
  deriving DecidableEq

/-- Both totals are shown as integers. -/
def Truths.none : Truths := ⟨false, false⟩

/-- A sketch of a stream of counted items. -/
structure Sketch where
  /-- The binary logarithm of the greatest table length. -/
  lgMax : Nat
  /-- The counters. -/
  table : Table Int
  /-- The number of counters that the table may hold, noted whenever it gets another length. -/
  capacity : Nat
  /-- The sum of all amounts subtracted by purges. -/
  offset : Int
  /-- The sum of all counts. -/
  streamLength : Int
  /-- The seed that the purges draw with. -/
  seed : Int
  /-- Which of the totals are shown as truth values. -/
  truths : Truths

namespace Sketch

/-- The seed of a sketch that is not given one. -/
def defaultSeed : Int := 0xF7E051A7

/-! ### Construction -/

/-- An empty sketch whose table has `2 ^ lgLength` slots, but not fewer than the least number, and
may grow to `2 ^ lgMax`. The greatest length and the seed may be anything that an integer can be
made of, but the greatest length is compared as it is. -/
def ofLog2 (lgMax lgLength seed : Scalar) : Except Error Sketch := do
  let least := Scalar.int lgMinLength
  if ← lgMax.isBelow least then throw (.maxLengthLow lgMax)
  if ← lgMax.isAbove (.int lgMaxLength) then throw (.maxLengthHigh lgMax)
  let lgLength := if ← least.isAbove lgLength then least else lgLength
  if ← lgLength.isAbove lgMax then throw (.startLength lgLength lgMax)
  let lgMax ← lgMax.toInteger
  let lgLength ← lgLength.toLogarithm
  let seed ← seed.toInteger
  let table := Table.ofLog2 lgLength
  return ⟨lgMax.toNat, table, table.capacity, 0, 0, seed, .none⟩

/-- For integers all that counts is whether the logarithms are in range. -/
theorem ofLog2_int (lgMax lgLength seed : Int) :
    ofLog2 (.int lgMax) (.int lgLength) (.int seed) =
      let lgStart := max lgLength lgMinLength
      if lgMax < lgMinLength then .error (.maxLengthLow lgMax)
      else if lgMaxLength < lgMax then .error (.maxLengthHigh lgMax)
      else if lgMax < lgStart then .error (.startLength lgStart lgMax)
      else
        let table := Table.ofLog2 lgStart.toNat
        .ok ⟨lgMax.toNat, table, table.capacity, 0, 0, seed, .none⟩ := by
  have hs : (if lgLength < (lgMinLength : Int) then Scalar.int lgMinLength else .int lgLength)
      = .int (max lgLength lgMinLength) := by
    split <;> congr 1 <;> omega
  unfold ofLog2
  simp only [Scalar.isBelow_int, Scalar.isAbove_int, bind, Except.bind, decide_eq_true_eq, hs]
  by_cases h1 : lgMax < lgMinLength
  · simp only [h1, if_true]
    rfl
  by_cases h2 : (lgMaxLength : Int) < lgMax
  · simp only [h1, h2, if_true, if_false]
    rfl
  simp only [h1, h2, if_false, pure, Except.pure]
  by_cases h3 : lgMax < max lgLength lgMinLength
  · simp only [h3, if_true]
    rfl
  · have h4 : max lgLength lgMinLength < unheldDigits := by
      have : (lgMaxLength : Int) < unheldDigits := by decide
      omega
    simp only [h3, if_false, Scalar.toLogarithm_int (by omega) h4]
    rfl

/-- An empty sketch whose table may grow to `maxLength` slots. -/
def ofSize (maxLength seed : Scalar) : Except Error Sketch := do
  let lgMax ← maxLength.toLog2 "max_map_size"
  ofLog2 (.int lgMax) (.int lgMinLength) seed

/-- The sketch of an empty stream, with the limit and the seed kept. -/
def reset (s : Sketch) : Sketch :=
  let table := Table.ofLog2 lgMinLength
  { s with table, capacity := table.capacity, offset := 0, streamLength := 0, truths := .none }

/-! ### Totals -/

/-- A total as it is shown: as an integer, or as the truth value that passes for it. -/
def shown (asTruth : Bool) (total : Int) : Total :=
  if asTruth then .truth (total ≠ 0) else .int total

/-- The offset as it is shown. -/
def shownOffset (s : Sketch) : Total := shown s.truths.offset s.offset

/-- The stream length as it is shown. -/
def shownStreamLength (s : Sketch) : Total := shown s.truths.streamLength s.streamLength

@[simp] theorem shown_false (total : Int) : shown false total = .int total := rfl

/-! ### Size -/

/-- Whether nothing has been counted. -/
def isEmpty (s : Sketch) : Bool := s.streamLength = 0

/-- The number of counters. -/
def active (s : Sketch) : Nat := s.table.active

/-- The number of counters that the table may hold at its greatest length. -/
def maxCapacity (s : Sketch) : Nat := loadLimit (powerOfTwo s.lgMax)

/-- The number of counters that a purge draws its median from. -/
def sampleSize (s : Sketch) : Nat := min sampleLimit s.maxCapacity

/-- The number of bytes of the sketch in the binary encoding. -/
def storageBytes (s : Sketch) : Nat :=
  if s.isEmpty then Snapshot.bytesEmpty else Snapshot.bytesFor s.active

/-- A line that names the sizes of a sketch, unless a total has too many digits. -/
def summary (s : Sketch) : Except Error String := do
  let streamLength := String.ofList (← s.shownStreamLength.toScalar.written .usual)
  let offset := String.ofList (← s.shownOffset.toScalar.written .usual)
  return s!"FrequentLongs(stream_length={streamLength}, offset={offset}, active={s.active}, " ++
    s!"map_length={s.table.length}, max_map_size={powerOfTwo s.lgMax})"

/-! ### Making room -/

/-- The multiplier that spreads the seed of a sketch over 64 bits. -/
def seedMultiplier : Int := 0x9E3779B185EBCA87

/-- The seed of the draws of a purge: the seed of the sketch, spread, and the lower 48 bits of the
stream length. -/
def purgeSeed (seed streamLength : Int) : Nat :=
  ((seed * seedMultiplier + streamLength % 0x1000000000000) % 0x10000000000000000).toNat

/-- Doubles the length of the table. -/
def grow (s : Sketch) : Outcome Sketch :=
  match s.table.resize (.int (2 * s.table.length : Nat)) with
  | .error e => .fail s e
  | .ok t => ⟨{ s with table := t, capacity := t.capacity }, [.grew t.length t.capacity], none⟩

/-- Purges the table, and adds what the purge subtracts to the offset. -/
def purge (src : DrawSource) (s : Sketch) : Outcome Sketch :=
  let g := src.ofSeed (purgeSeed s.seed s.streamLength)
  match s.table.purge src (.int s.sampleSize) g with
  | (.error e, t, _) => .fail { s with table := t } e
  | (.ok median, t, _) =>
    let event := .purged s.streamLength (s.table.active - t.active) s.table.active median
    if s.maxCapacity < t.active then ⟨{ s with table := t }, [event], some .purgeIneffective⟩
    else ⟨{ s with table := t, offset := s.offset + median }, [event], none⟩

/-- Makes room in a table that holds more counters than it may: it grows if it is allowed to, and
is purged otherwise. -/
def makeRoom (src : DrawSource) (s : Sketch) : Outcome Sketch :=
  if s.active ≤ s.capacity then .ok s
  else if s.table.lgLength < s.lgMax then s.grow
  else s.purge src

end Sketch

end HeavyHitters
