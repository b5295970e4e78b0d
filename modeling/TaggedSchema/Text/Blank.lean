import TaggedSchema.Text.Ranges

/-!
# White space

The characters with the Unicode property White_Space, and texts without them at their ends.
-/

namespace TaggedSchema.Text

def blankRanges : List (Nat × Nat) := [
  (0x9, 0xd), (0x20, 0x20), (0x85, 0x85), (0xa0, 0xa0), (0x1680, 0x1680), (0x2000, 0x200a),
  (0x2028, 0x2029), (0x202f, 0x202f), (0x205f, 0x205f), (0x3000, 0x3000)]

def isBlank (c : Char) : Bool :=
  inRanges c.toNat blankRanges

/-- Without the white space in front. -/
def trimStart (text : List Char) : List Char :=
  text.dropWhile isBlank

/-- Without the white space at the end. -/
def trimEnd (text : List Char) : List Char :=
  (text.reverse.dropWhile isBlank).reverse

def trim (text : List Char) : List Char :=
  trimEnd (trimStart text)

theorem trimStart_suffix (text : List Char) : trimStart text <:+ text :=
  List.dropWhile_suffix isBlank

theorem length_trim_le (text : List Char) : (trim text).length ≤ text.length := by
  have hend := (List.dropWhile_suffix isBlank (l := (trimStart text).reverse)).length_le
  have hstart := (List.dropWhile_suffix isBlank (l := text)).length_le
  simp only [trim, trimEnd, trimStart, List.length_reverse] at hend ⊢
  omega

end TaggedSchema.Text
