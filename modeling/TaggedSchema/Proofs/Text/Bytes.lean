import TaggedSchema.Text.Bytes

/-!
# Sizes of parts

The size of a text is the one of its UTF-8 encoding, and the offset of an end of the text is the
size of what stands in front.
-/

namespace TaggedSchema.Text

theorem byteSize_append (front rest : List Char) :
    byteSize (front ++ rest) = byteSize front + byteSize rest := by
  induction front with
  | nil => simp [byteSize]
  | cons c front ih => simp [byteSize, ih, Nat.add_assoc]

theorem utf8ByteSize_ofList (text : List Char) :
    (String.ofList text).utf8ByteSize = byteSize text := by
  induction text with
  | nil => rfl
  | cons c text ih =>
    rw [String.ofList_cons, String.utf8ByteSize_append, String.utf8ByteSize_singleton, ih, byteSize]

theorem byteSize_toList (text : String) : byteSize text.toList = text.utf8ByteSize := by
  rw [← utf8ByteSize_ofList, String.ofList_toList]

theorem offsetOf_append (front rest : List Char) :
    offsetOf (front ++ rest) rest = byteSize front := by
  rw [offsetOf, byteSize_append, Nat.add_sub_cancel]

end TaggedSchema.Text
