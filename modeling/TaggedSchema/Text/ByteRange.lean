/-!
# Ranges of characters as ranges of bytes

The UTF-8 encodings of the characters of a range are the texts of a few rows of byte ranges. A row
takes in everything that shares its first bytes, and blocks of continuation bytes are not divided
where the range covers them.
-/

namespace TaggedSchema.Text

/-- The first and last of a range of bytes. -/
abbrev ByteRange := Nat × Nat

/-- The number of values of `count` continuation bytes. -/
def blockSize (count : Nat) : Nat := Nat.pow 64 count

/-- Any continuation bytes. -/
def wholeBlock (count : Nat) : List ByteRange := List.replicate count (0x80, 0xbf)

/-- The rows for the values from `first` to `last` whose encoding ends with `count` continuation
bytes. The byte before these is its own value added to `lead`. -/
def byteRows (count lead first last : Nat) : List (List ByteRange) :=
  match count with
  | 0 => [[(lead + first, lead + last)]]
  | count + 1 =>
    let size := blockSize (count + 1)
    let head := first / size
    let foot := last / size
    let tails (byte first last : Nat) : List (List ByteRange) :=
      (byteRows count 0x80 first last).map ((lead + byte, lead + byte) :: ·)
    if head = foot then tails head (first % size) (last % size)
    else
      let cutFirst := first % size ≠ 0
      let cutLast := last % size ≠ size - 1
      let low := if cutFirst then head + 1 else head
      let high := if cutLast then foot else foot + 1
      (if cutFirst then tails head (first % size) (size - 1) else []) ++
        (if low < high then [(lead + low, lead + high - 1) :: wholeBlock (count + 1)] else []) ++
        if cutLast then tails foot 0 (last % size) else []

/-- The code points whose encodings have one length and are not divided, with the number of
continuation bytes and the value of the first byte for zero. -/
def encodingBlocks : List (Nat × Nat × Nat × Nat) :=
  [(0, 0x7f, 0, 0), (0x80, 0x7ff, 1, 0xc0), (0x800, 0xd7ff, 2, 0xe0), (0xe000, 0xffff, 2, 0xe0),
    (0x10000, 0x10ffff, 3, 0xf0)]

/-- The rows of byte ranges for the code points from `first` to `last`. -/
def encodedRows (first last : Nat) : List (List ByteRange) :=
  encodingBlocks.flatMap fun (low, high, count, lead) =>
    if max first low ≤ min last high then byteRows count lead (max first low) (min last high)
    else []

end TaggedSchema.Text
