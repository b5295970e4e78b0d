import TaggedSchema.Text.Numeral

/-!
# UUIDs

Thirty-two hexadecimal digits in small letters, in groups with hyphens between them.
-/

namespace TaggedSchema.Uuid

def isDigit (c : Char) : Bool :=
  Text.isAsciiDigit c || ('a' ≤ c && c ≤ 'f')

/-- Whether a text consists of groups of these sizes. -/
def hasGroups : List Nat → List Char → Bool
  | [], _ => false
  | [size], text => text.length == size && text.all isDigit
  | size :: sizes, text =>
    match text.drop size with
    | '-' :: rest => (text.take size).all isDigit && hasGroups sizes rest
    | _ => false

def isUuid (text : List Char) : Bool :=
  hasGroups [8, 4, 4, 4, 12] text

end TaggedSchema.Uuid
