/-!
# The layout of an encoded snapshot

The numbers that both encodings of a snapshot start with, and the sizes of the parts of the binary
one, which is made of words of eight bytes.
-/

namespace HeavyHitters.Snapshot

/-- The version of both encodings. -/
def version : Nat := 1

/-- The number of this family of sketches. -/
def family : Nat := 10

/-- The number that stands for 64-bit integer items. -/
def itemType : Nat := 1

/-- The flag that marks a snapshot without content. -/
def emptyFlag : Nat := 4

/-- The flags of a snapshot: they tell whether nothing was counted. -/
def flagsFor (empty : Bool) : Nat := if empty then emptyFlag else 0

/-- The words in the header of a snapshot without content. -/
def wordsEmpty : Nat := 1

/-- The words in the header of a snapshot with content. -/
def wordsFull : Nat := 4

/-- The bytes of a word. -/
def wordBytes : Nat := 8

/-- The bytes in the header of a snapshot without content; every snapshot has as many. -/
def bytesEmpty : Nat := wordBytes * wordsEmpty

/-- The bytes in the header of a snapshot with content. -/
def bytesFull : Nat := wordBytes * wordsFull

/-- The bytes of a snapshot with content that has `active` counters: each takes a word for its
item and a word for its count. -/
def bytesFor (active : Nat) : Nat := bytesFull + 2 * wordBytes * active

end HeavyHitters.Snapshot
