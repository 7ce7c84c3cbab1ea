import HeavyHitters.Amount
import HeavyHitters.Random.Source

/-!
# Selection by rank

The element of a given rank, by narrowing a range of positions around it. Each round draws a
pivot from the range and partitions the range into the values below, equal to and above it; the
search goes on in the part that holds the rank, and ends when that is the middle one. The values
are only ever swapped.

Values that cannot be compared stop the search, but not before a pivot has been drawn. A rank may
be a fraction. It then lies between two positions, and the search may leave the range on either
side of it.
-/

namespace HeavyHitters.Median

variable {α : Type}

/-- The element at a position. -/
def elementAt (xs : Array α) (i : Nat) : Except Error α :=
  match xs[i]? with
  | some v => .ok v
  | none => .error .noElement

variable [Amount α]

/-- Partitions around `pivot`. The values from the start of the range to `lt` are below the pivot,
those from `lt` to `i` are equal to it, the next `n` values are not yet known, and those after them
are above it. Answers the two ends of the middle part, and the values as they are then, also if two
of them cannot be compared. -/
@[specialize]
def partition (pivot : α) (xs : Array α) (lt i : Nat) : (n : Nat) →
    Except Error (Nat × Nat) × Array α
  | 0 => (.ok (lt, i), xs)
  | n + 1 =>
    let v := xs.getD i pivot
    match Amount.isLess v pivot with
    | .error e => (.error e, xs)
    | .ok true => partition pivot (xs.swapIfInBounds lt i) (lt + 1) (i + 1) n
    | .ok false =>
      match Amount.isLess pivot v with
      | .error e => (.error e, xs)
      | .ok true => partition pivot (xs.swapIfInBounds i (i + n)) lt i n
      | .ok false => partition pivot xs lt (i + 1) n

variable (src : DrawSource)

/-- How a round of the search leaves it: at its end, or with a range of positions to go on in. -/
inductive Progress (α : Type) where
  /-- The search has ended. -/
  | ended (found : Except Error α)
  /-- It goes on in the range from `lo` to `hi`, the latter excluded. -/
  | within (lo hi : Nat)

/-- One round of the search, in the range of positions from `lo` to `hi`, the latter excluded, for the
element whose rank is from `low` to `high`. A range of at most one position has been narrowed
enough. -/
@[specialize]
def narrowOnce (low high : Nat) (xs : Array α) (lo hi : Nat) (g : src.State) :
    Progress α × Array α × src.State :=
  if hi ≤ lo + 1 then (.ended (elementAt xs lo), xs, g)
  else
    let (j, g) := src.draw g (hi - lo)
    match xs[lo + j]? with
    | none => (.ended (.error .noElement), xs, g)
    | some pivot =>
      match partition pivot xs lo lo (hi - lo) with
      | (.error e, xs) => (.ended (.error e), xs, g)
      | (.ok (lt, ge), xs) =>
        if low < lt then (.within lo lt, xs, g)
        else if ge ≤ high then (.within ge hi, xs, g)
        else (.ended (.ok pivot), xs, g)

/-- Goes on with the search for some rounds, and answers what it has found, and the values as it leaves
them. -/
@[specialize]
def narrow (low high : Nat) : (rounds : Nat) → (xs : Array α) → (lo hi : Nat) → src.State →
    Except Error α × Array α × src.State
  | 0, xs, lo, _, g => (elementAt xs lo, xs, g)
  | rounds + 1, xs, lo, hi, g =>
    match narrowOnce src low high xs lo hi g with
    | (.ended found, xs, g) => (found, xs, g)
    | (.within lo hi, xs, g) => narrow low high rounds xs lo hi g

/-- The greatest position that a rank reaches and the least that reaches it, among `size` of them.
For an integer they are the same. -/
def positionsOf (size : Nat) (rank : Scalar) : Except Error (Nat × Nat) :=
  match rank.quantity? with
  | none => .error (.incomparable "<=" Scalar.integerType rank.typeName)
  | some (.ratio num den) =>
    if 0 ≤ num ∧ num < size * den then .ok (num.toNat / den, Quantity.ceiling num den)
    else .error (.rankRange rank size)
  | some _ => .error (.rankRange rank size)

/-- Searches for the element of rank `rank`, counted from zero, and leaves the values in another order,
whether it finds the element or not. Each round excludes at least its pivot, so there are at most as
many rounds as values. -/
def selectInPlace (values : Array α) (rank : Scalar) (g : src.State) :
    Except Error α × Array α × src.State :=
  match positionsOf values.size rank with
  | .error e => (.error e, values, g)
  | .ok (low, high) => narrow src low high values.size values 0 values.size g

/-- The element of rank `rank`, with the values in the order that the search left them in. -/
def select (values : Array α) (rank : Scalar) (g : src.State) :
    Except Error (α × Array α) × src.State :=
  let (found, values, g) := selectInPlace src values rank g
  (found.map fun v => (v, values), g)

/-! ### Integers -/

/-- Integers can always be compared. -/
theorem partition_int_succ (pivot : Int) (xs : Array Int) (lt i n : Nat) :
    partition pivot xs lt i (n + 1) =
      let v := xs.getD i pivot
      if v < pivot then partition pivot (xs.swapIfInBounds lt i) (lt + 1) (i + 1) n
      else if pivot < v then partition pivot (xs.swapIfInBounds i (i + n)) lt i n
      else partition pivot xs lt (i + 1) n := by
  rw [partition]
  dsimp only [Amount.isLess_int]
  by_cases hbelow : xs.getD i pivot < pivot
  · simp only [hbelow, decide_true, if_true]
  · by_cases habove : pivot < xs.getD i pivot
    · simp only [hbelow, habove, decide_true, decide_false, if_true, if_false]
    · simp only [hbelow, habove, decide_false, if_false]

@[simp] theorem positionsOf_int (size : Nat) (n : Int) :
    positionsOf size (.int n) =
      if 0 ≤ n ∧ n < size then .ok (n.toNat, n.toNat) else .error (.rankRange (.int n) size) := by
  simp [positionsOf, Quantity.ofInt]

/-- An integer rank is refused if it is out of range. The values stay as they are then, and nothing is
drawn. -/
theorem selectInPlace_of_rank_out_of_range {values : Array α} {n : Int} (g : src.State)
    (h : ¬(0 ≤ n ∧ n < values.size)) :
    selectInPlace src values (.int n) g = (.error (.rankRange (.int n) values.size), values, g) := by
  simp only [selectInPlace, positionsOf_int, h, if_false]

end HeavyHitters.Median
