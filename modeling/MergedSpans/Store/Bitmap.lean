/-! # Bitmaps

A set of small numbers, kept as the bits of 64-bit words. The first number that is not in the set is
looked for a word at a time: words without a clear bit are passed over, and in the next one the ones
below its first clear bit are counted.

* `Bitmap` — the words.
* `Bitmap.set`, `Bitmap.unset` — putting a number in and taking it out.
* `Bitmap.firstClear?` — the first number that is not in the set.
-/

namespace MergedSpans

/-- A set of numbers. Each of them is a place in a word. -/
structure Bitmap where
  /-- The words, those of the lowest numbers first. -/
  words : Array UInt64
  deriving DecidableEq

namespace Bitmap

/-- The number of places in a word. -/
def wordBits : Nat := 64

/-- A word without a clear bit. -/
def fullWord : UInt64 := 0xffffffffffffffff

/-- The bitmap with none of the numbers below `capacity`, in as few words as have a place for each
of them. -/
def clear (capacity : Nat) : Bitmap :=
  ⟨Array.replicate ((capacity + (wordBits - 1)) / wordBits) 0⟩

/-- The word with just the bit of a number. -/
def bit (index : Nat) : UInt64 := 1 <<< UInt64.ofNat (index % wordBits)

/-- The bitmap with a number put in. -/
def set (bitmap : Bitmap) (index : Nat) : Bitmap :=
  ⟨bitmap.words.modify (index / wordBits) (· ||| bit index)⟩

/-- The bitmap with a number taken out. -/
def unset (bitmap : Bitmap) (index : Nat) : Bitmap :=
  ⟨bitmap.words.modify (index / wordBits) (· &&& ~~~ bit index)⟩

/-- The number of ones below the first clear bit of a word. -/
def trailingOnes (word : UInt64) : Nat :=
  (List.range wordBits).findIdx fun place => !word.toBitVec.getLsbD place

/-- The first number that has a place in the words and is not in the set. -/
def firstClear? (bitmap : Bitmap) : Option Nat :=
  (bitmap.words.findIdx? (· != fullWord)).map fun word =>
    word * wordBits + trailingOnes (bitmap.words.getD word 0)

end Bitmap

end MergedSpans
