/-!
# Sizes in bytes

Lengths and positions in texts count the bytes of their UTF-8 encoding.
-/

namespace TaggedSchema.Text

def byteSize : List Char → Nat
  | [] => 0
  | c :: rest => c.utf8Size + byteSize rest

/-- The offset at which `rest` begins, where `rest` is what is left of `text`. -/
def offsetOf (text rest : List Char) : Nat :=
  byteSize text - byteSize rest

end TaggedSchema.Text
