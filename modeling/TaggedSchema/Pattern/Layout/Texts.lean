import TaggedSchema.Pattern.Layout.Basic

/-!
# Layout of choices of texts

A choice whose branches are all texts is laid out as a tree, so that texts share the states of what
they begin with.
-/

namespace TaggedSchema.Pattern

/-- Whether a text is in a list of texts more than as their beginning. -/
def isInner (texts : List (List UInt8)) : Bool :=
  texts.any fun text => !text.isEmpty

/-- Cut a list of texts at the empty ones. The empty texts in front make one cut. -/
def cutTexts (texts : List (List UInt8)) : List (List (List UInt8)) :=
  let cut (texts : List (List UInt8)) : List (List (List UInt8)) :=
    texts.foldr (fun text parts =>
      if text.isEmpty then [] :: parts
      else match parts with
        | part :: parts => (text :: part) :: parts
        | [] => [[text]]) [[]]
  match texts with
  | [] :: rest => [] :: cut (rest.dropWhile List.isEmpty)
  | texts => cut texts

/-- The states that read one of some texts, given what is left of them in the order of the
pattern. What texts begin with is read once, but not across a text that ends there, which must be
tried between those around it. -/
def Layout.texts (length : Nat) (texts : List (List UInt8)) : Layout :=
  match length with
  | 0 => some
  | length + 1 =>
    let parts := cutTexts texts
    let heads (part : List (List UInt8)) : List UInt8 := (part.filterMap List.head?).eraseDups
    let inner : Layout := fun room =>
      (parts.flatMap fun part => (heads part).map (part, ·)).foldlM (fun room (part, head) =>
        let tails := part.filterMap fun text =>
          if text.head? = some head then some text.tail else none
        if isInner tails then Layout.texts length tails room else some room) room
    let used := (parts.map heads).filter fun heads => !heads.isEmpty
    let ranges := used.foldl (fun count heads =>
      if heads.length = 1 then count else count + heads.length) 0
    inner >=> add (used.length + 1)
      (rangeSize * ranges + choiceSize * (used.length + parts.length - 1))

/-- The bytes of a text in the order in which they are read. -/
def Direction.bytes (direction : Direction) (chars : List Char) : List UInt8 :=
  let bytes := chars.flatMap String.utf8EncodeChar
  match direction with
  | forward => bytes
  | backward => bytes.reverse

end TaggedSchema.Pattern
