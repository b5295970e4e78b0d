import TaggedSchema.Document.Yaml.Atom
import TaggedSchema.Text.Blank

/-!
# Reading YAML

Lists and mappings are laid out by indentation, or written in brackets and braces. Anchors, tags,
blocks of literal text and explicit keys are refused.
-/

namespace TaggedSchema.Yaml

mutual

/-- A document in block layout at column `indent` or further right. Behind a key on its line, with
`isInline`, only an atom may stand. -/
def block (fuel : Nat) (indent : Nat) (isInline : Bool) (place : Place) :
    Option (Document × Place) :=
  match fuel with
  | 0 => none
  | fuel + 1 => do
    let (isLater, here) ← place.skip false isInline
    let isInline := isInline && !isLater
    if here.isEnd || here.column < indent then return (missing, here)
    else if here.isDash then
      if isInline then none
      else
        let (items, next) ← blockItems fuel here.column here
        return (.sequence items, next)
    else
      let atom ← flowAtom fuel false indent here
      let next := atom.next.skipSpaces
      match next.afterColon? false with
      | some value =>
        if isInline then none
        else
          let key ← atom.key?
          let (entries, next) ← blockEntries fuel here.column key value
          return (.mapping entries, next)
      | none =>
        if atom.isScalarWithoutQuotes || next.isLineEnd then return (atom.document, atom.next)
        else none

/-- The items of a list from a hyphen on. -/
def blockItems (fuel : Nat) (column : Nat) (place : Place) : Option (List Document × Place) :=
  match fuel with
  | 0 => none
  | fuel + 1 => do
    let (item, next) ← block fuel (column + 1) false (⟨place.column + 1, place.rest.drop 1⟩)
    let (_, here) ← next.skip false true
    if here.column = column && here.isDash then
      let (items, next) ← blockItems fuel column here
      return (item :: items, next)
    else return ([item], here)

/-- What stands after a key at `column` and its colon. A list may stand under its key without being
indented further. -/
def blockValue (fuel : Nat) (column : Nat) (place : Place) : Option (Document × Place) :=
  match fuel with
  | 0 => none
  | fuel + 1 => do
    let (isLater, here) ← place.skip false true
    if isLater && here.column = column && here.isDash then
      let (items, next) ← blockItems fuel column here
      return (.sequence items, next)
    else block fuel (column + 1) true place

/-- The entries of a mapping, from what stands after the first key and its colon on. -/
def blockEntries (fuel : Nat) (column : Nat) (key : String) (place : Place) :
    Option (List (String × Document) × Place) :=
  match fuel with
  | 0 => none
  | fuel + 1 => do
    let (value, next) ← blockValue fuel column place
    let (_, here) ← next.skip false true
    if here.isEnd || here.column ≠ column then return ([(key, value)], here)
    else
      let atom ← flowAtom fuel false (column + 1) here
      let next ← atom.next.skipSpaces.afterColon? false
      let nextKey ← atom.key?
      let (entries, next) ← blockEntries fuel column nextKey next
      return ((key, value) :: entries, next)

end

/-- One line feed for every kind of line end. -/
def unifyLineEnds : List Char → List Char
  | [] => []
  | '\r' :: '\n' :: rest => '\n' :: unifyLineEnds rest
  | c :: rest => (if c = '\r' || c = '\u0085' then '\n' else c) :: unifyLineEnds rest

/-- Control characters and unassigned ends of planes may not occur. -/
def isAllowed (c : Char) : Bool :=
  let code := c.toNat
  c == '\t' || c == '\n' || (0x20 ≤ code && code ≤ 0x7e) || (0xa0 ≤ code && code ≤ 0xfffd &&
    code != 0xfeff) || 0x10000 ≤ code

/-- What follows a mark at the beginning of a line. -/
def Place.afterMarker? (place : Place) (c : Char) : Option Place :=
  if place.column = 0 && isMarker place.rest && place.rest.head? = some c then
    some ⟨3, place.rest.drop 3⟩
  else none

/-- Whether nothing follows but marks that end a document. -/
def endsAfter (fuel : Nat) (place : Place) : Bool :=
  match fuel, place.skip false true with
  | fuel + 1, some (_, here) =>
    match here.afterMarker? '.' with
    | some next => endsAfter fuel next
    | none => here.rest.isEmpty
  | _, _ => false

/-- The only document in a text. A mark that ends a document ends one that has begun. -/
def document? (text : List Char) : Option Document := do
  let (_, start) ← Place.skip ⟨0, text⟩ false false
  let fuel := 4 * (text.length + 2)
  let (document, next) ← match start.afterMarker? '-', start.afterMarker? '.' with
    | some inside, _ => block fuel 0 true inside
    | none, some _ => none
    | none, none => block fuel 0 false start
  if endsAfter fuel next then return document else none

mutual

/-- How many lists and mappings lie in each other. -/
def depth : Document → Nat
  | .list items | .sequence items => depthOfItems items + 1
  | .table entries | .mapping entries => depthOfEntries entries + 1
  | .null | .bool _ | .number _ | .text _ | .plain _ => 0

def depthOfItems : List Document → Nat
  | [] => 0
  | item :: items => max (depth item) (depthOfItems items)

def depthOfEntries : List (String × Document) → Nat
  | [] => 0
  | (_, value) :: entries => max (depth value) (depthOfEntries entries)

end

/-- How deep a document may be. -/
def depthLimit : Nat := 128

end TaggedSchema.Yaml

/-- The document that a YAML text consists of, if it is one and not too deep. An empty text is an
empty scalar. -/
def TaggedSchema.Document.ofYaml? (text : String) : Option Document :=
  let chars := Yaml.unifyLineEnds text.toList
  let chars := if chars.head? = some '\ufeff' then chars.drop 1 else chars
  if chars.all Yaml.isAllowed then
    (Yaml.document? chars).filter fun document => Yaml.depth document ≤ Yaml.depthLimit
  else none

/-- What a YAML text is read as. A blank text means `absent`. -/
def TaggedSchema.Document.readYaml? {α : Type} (absent : α) (read : Document → Option α)
    (text : String) : Option α :=
  if text.toList.all Text.isBlank then some absent else ofYaml? text >>= read
