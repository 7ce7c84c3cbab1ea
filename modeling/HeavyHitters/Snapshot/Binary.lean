import HeavyHitters.Argument
import HeavyHitters.Snapshot.Draft

/-!
# The binary encoding

A snapshot as bytes, in words of eight bytes, the least significant byte first. The first word
holds one byte each for the words in the header, the version, the family, the two table lengths,
the flags and the item type, and an unused one. A snapshot without content ends here. Otherwise
there follow the number of counters in four bytes and four unused ones, the stream length, the
offset, all counts, and all items in the same order.

Unused bytes are written as zeros and not looked at. Numbers with a sign are in two's complement.
-/

namespace HeavyHitters.Snapshot

/-! ### Numbers -/

/-- The lower `width` bytes of a number. -/
def toBytesLE : (width : Nat) → Nat → List UInt8
  | 0, _ => []
  | width + 1, n => n.toUInt8 :: toBytesLE width (n / 256)

/-- The number that bytes stand for. -/
def ofBytesLE : List UInt8 → Nat
  | [] => 0
  | b :: bs => b.toNat + 256 * ofBytesLE bs

/-- The number in two's complement that the bytes of a word stand for. -/
def ofWordBytes (bs : List UInt8) : Int :=
  let n := ofBytesLE bs
  if n < 0x8000000000000000 then n else n - 0x10000000000000000

/-- A number without a sign in `width` bytes. -/
def naturalField (width : Nat) (n : Int) : Except Error (List UInt8) :=
  if 0 ≤ n ∧ n < powerOfTwo (8 * width) then .ok (toBytesLE width n.toNat) else .error .fieldWidth

/-- A number with a sign in a word. -/
def wordField (n : Int) : Except Error (List UInt8) :=
  if IsWord n then .ok (toBytesLE wordBytes (n % 0x10000000000000000).toNat) else .error .fieldWidth

/-! ### Writing -/

/-- The first word of a snapshot. -/
def headerField (s : Snapshot) : Except Error (List UInt8) := do
  let words := if s.isEmpty then wordsEmpty else wordsFull
  let lgMax ← naturalField 1 s.lgMax
  let lgLength ← naturalField 1 s.lgLength
  return [words.toUInt8, version.toUInt8, family.toUInt8] ++ lgMax ++ lgLength ++
    [s.flags.toUInt8, itemType.toUInt8, 0]

/-- The bytes of a snapshot, if every number fits in its field. -/
def toBytes (s : Snapshot) : Except Error (List UInt8) := do
  let header ← s.headerField
  if s.isEmpty then return header
  let active ← naturalField 4 s.active
  let streamLength ← wordField s.streamLength
  let offset ← wordField s.offset
  let counts ← s.entries.mapM fun e => wordField e.2
  let items ← s.entries.mapM fun e => wordField e.1
  return header ++ active ++ [0, 0, 0, 0] ++ streamLength ++ offset ++ counts.flatten ++
    items.flatten

/-- The integer that a scalar of a draft is written as: the one that it is or passes for, or else the
one that it is as an index. -/
def fieldInteger (value : Scalar) : Except Error Int :=
  match value.whole?.or value.index? with
  | some n => .ok n
  | none => .error .fieldWidth

/-- The item and the count that an entry of a draft is written as. -/
def fieldEntry (e : Scalar × Scalar) : Except Error (Int × Int) := do
  return (← fieldInteger e.1, ← fieldInteger e.2)

/-- The bytes of a draft, if all its scalars pass for integers that fit in their fields. The table
lengths are all that is looked at in an empty one. -/
def Draft.toBytes (d : Draft) : Except Error (List UInt8) := do
  let lgMax ← fieldInteger d.lgMax
  let lgLength ← fieldInteger d.lgLength
  if d.isEmpty then Snapshot.toBytes ⟨lgMax, lgLength, 0, 0, []⟩
  else
    let streamLength ← fieldInteger d.streamLength
    let offset ← fieldInteger d.offset
    let entries ← d.entries.mapM fieldEntry
    Snapshot.toBytes ⟨lgMax, lgLength, streamLength, offset, entries⟩

/-! ### Reading -/

/-- The `width` bytes from position `i` on. -/
def field (bs : List UInt8) (i width : Nat) : List UInt8 := (bs.drop i).take width

/-- The first `n` words. -/
def readWords : (n : Nat) → List UInt8 → List Int
  | 0, _ => []
  | n + 1, bs => ofWordBytes (bs.take wordBytes) :: readWords n (bs.drop wordBytes)

/-- The snapshot without content that bytes with a checked header stand for. -/
def ofEmptyBytes (bs : List UInt8) (lgMax : Int) : Except Corruption Snapshot := do
  checkLengths lgMax lgMinLength
  ensure (bs.length = bytesEmpty) (.emptyLength bs.length)
  return ⟨lgMax, lgMinLength, 0, 0, []⟩

/-- The snapshot with content that bytes with a checked header stand for. -/
def ofFullBytes (bs : List UInt8) (lgMax lgLength : Int) : Except Corruption Snapshot := do
  ensure (bytesFull ≤ bs.length) (.shortPreamble bs.length)
  let active := ofBytesLE (field bs 8 4)
  let streamLength := ofWordBytes (field bs 16 wordBytes)
  let offset := ofWordBytes (field bs 24 wordBytes)
  ensure (bs.length = bytesFor active) (.byteCount active bs.length)
  checkLengths lgMax lgLength
  ensure (0 ≤ offset) (.negativeOffset offset)
  checkEmptiness false streamLength active
  let counts := readWords active (bs.drop bytesFull)
  let items := readWords active (bs.drop (bytesFull + wordBytes * active))
  return ⟨lgMax, lgLength, streamLength, offset, items.zip counts⟩

/-- The snapshot that bytes stand for. -/
def ofBytes (bs : List UInt8) : Except Corruption Snapshot := do
  ensure (bytesEmpty ≤ bs.length) (.shortHeader bs.length)
  let byte (i : Nat) : Nat := (bs.getD i 0).toNat
  ensure (byte 0 = wordsEmpty ∨ byte 0 = wordsFull) (.headerWords (byte 0))
  ensure (byte 1 = version) (.version (byte 1))
  ensure (byte 2 = family) (.family (byte 2))
  let marked := byte 5 &&& emptyFlag ≠ 0
  ensure (marked ↔ byte 0 = wordsEmpty) .emptyFlagMismatch
  ensure (byte 6 = itemType) (.itemType (byte 6))
  if marked then ofEmptyBytes bs (byte 3) else ofFullBytes bs (byte 3) (byte 4)

@[simp] theorem length_toBytesLE (width n : Nat) : (toBytesLE width n).length = width := by
  induction width generalizing n with
  | zero => rfl
  | succ width ih => simp [toBytesLE, ih]

@[simp] theorem fieldInteger_int (n : Int) : fieldInteger (.int n) = .ok n := rfl

theorem mapM_fieldEntry_int (es : List (Int × Int)) :
    (es.map fun e => (Scalar.int e.1, Scalar.int e.2)).mapM fieldEntry = .ok es := by
  induction es with
  | nil => rfl
  | cons e es ih =>
    rw [List.map_cons, List.mapM_cons, ih]
    rfl

/-- Nothing but the table lengths of an empty snapshot is written. -/
theorem toBytes_of_isEmpty {s : Snapshot} (h : s.isEmpty = true) :
    s.toBytes = (⟨s.lgMax, s.lgLength, 0, 0, []⟩ : Snapshot).toBytes := by
  have h0 : (⟨s.lgMax, s.lgLength, 0, 0, []⟩ : Snapshot).isEmpty = true := rfl
  simp only [toBytes, headerField, flags, h, h0, if_true]

/-- A snapshot has the bytes that it has as a draft. -/
theorem toBytes_toDraft (s : Snapshot) : s.toDraft.toBytes = s.toBytes := by
  have he : s.toDraft.entries.mapM fieldEntry = .ok s.entries := mapM_fieldEntry_int s.entries
  rw [Draft.toBytes, Draft.isEmpty_toDraft, he]
  cases h : s.isEmpty with
  | true => exact (toBytes_of_isEmpty h).symm
  | false => rfl

theorem ofBytesLE_toBytesLE (width n : Nat) :
    ofBytesLE (toBytesLE width n) = n % powerOfTwo (8 * width) := by
  induction width generalizing n with
  | zero => exact (Nat.mod_one n).symm
  | succ width ih =>
    have hp : powerOfTwo (8 * (width + 1)) = 256 * powerOfTwo (8 * width) := by
      rw [Nat.mul_succ, Nat.add_comm, powerOfTwo_add]
      rfl
    rw [toBytesLE, ofBytesLE, ih, hp, Nat.mod_mul]
    simp

end HeavyHitters.Snapshot
