import TaggedSchema.Document.Basic
import TaggedSchema.Document.Yaml.Place

/-!
# Scalars, brackets and braces

What stands inside brackets or braces does not depend on the layout. JSON documents are read this
way too.
-/

namespace TaggedSchema.Yaml

/-- A scalar, or a list or mapping in brackets or braces. -/
structure Atom where
  document : Document
  /-- It goes over several lines, or a line break follows it, or it is too long for a key. -/
  isBroken : Bool
  next : Place

/-- An unquoted scalar reaches up to a key's colon, a comment, or the end of its lines. -/
def Atom.isScalarWithoutQuotes (atom : Atom) : Bool :=
  match atom.document with
  | .plain _ => true
  | _ => false

/-- A key is a scalar on one line, and not too long. -/
def Atom.key? (atom : Atom) : Option String :=
  if atom.isBroken then none else atom.document.text?

/-- A key is not longer than this. -/
def keyLimit : Nat := 1024

/-- The atom that ends where `rest` begins. -/
def Place.atom (place : Place) (document : Document) (rest : List Char) : Atom :=
  let text := place.upTo rest
  ⟨document, text.any isBreak || keyLimit < text.length, place.moveTo rest⟩

/-- A scalar. -/
def scalar? (inFlow : Bool) (indent : Nat) (place : Place) : Option Atom :=
  match place.rest with
  | '"' :: rest => (scanDouble .text .none rest).map fun (contents, rest) =>
      place.atom (.text (String.ofList contents)) rest
  | '\'' :: rest => (scanSingle .none rest).map fun (contents, rest) =>
      place.atom (.text (String.ofList contents)) rest
  | c :: rest =>
    if beginsPlain inFlow c rest then
      (scanPlain inFlow indent .none place.column (c :: rest)).map fun (contents, rest) =>
        place.atom (.plain (String.ofList contents)) rest
    else none
  | [] => none

/-- What follows inside brackets or braces: their end, or an item or entry. -/
inductive Next where
  | closed (next : Place)
  | entry (here : Place)

/-- A comma stands before every entry but the first, and may stand before the closing mark. -/
def Place.entry? (place : Place) (closing : Char) (isFirst : Bool) : Option Next := do
  let nextAt (place : Place) : Next :=
    match place.after? closing with
    | some next => .closed next
    | none => .entry place
  let (_, here) ← place.skip true true
  match nextAt here with
  | .entry here =>
    if isFirst then return .entry here
    else
      let (_, here) ← (← here.after? ',').skip true true
      return nextAt here
  | closed => return closed

/-- Nothing stands where a document is expected. -/
def missing : Document := .plain ""

mutual

/-- A value inside brackets or braces. -/
def flowAtom (fuel : Nat) (inFlow : Bool) (indent : Nat) (place : Place) : Option Atom :=
  match fuel with
  | 0 => none
  | fuel + 1 =>
    match place.after? '[', place.after? '\x7b' with
    | some inside, _ => (flowItems fuel indent true inside).map fun (items, next) =>
        place.atom (.sequence items) next.rest
    | none, some inside => (flowEntries fuel indent true inside).map fun (entries, next) =>
        place.atom (.mapping entries) next.rest
    | none, none => scalar? inFlow indent place

/-- The items of a list up to the closing bracket. -/
def flowItems (fuel indent : Nat) (isFirst : Bool) (place : Place) :
    Option (List Document × Place) :=
  match fuel with
  | 0 => none
  | fuel + 1 => do
    match ← place.entry? ']' isFirst with
    | .closed next => return ([], next)
    | .entry here =>
      let (item, next) ← flowItem fuel indent here
      let (items, next) ← flowItems fuel indent false next
      return (item :: items, next)

/-- An item of a list. It may be a mapping of one entry without braces. -/
def flowItem (fuel indent : Nat) (place : Place) : Option (Document × Place) :=
  match fuel with
  | 0 => none
  | fuel + 1 => do
    let atom ← flowAtom fuel true indent place
    match atom.next.skipSpaces.afterColon? true with
    | none => return (atom.document, atom.next)
    | some next =>
      let key ← atom.key?
      let (value, next) ← flowValue fuel indent next
      return (.mapping [(key, value)], next)

/-- The entries of a mapping up to the closing brace. -/
def flowEntries (fuel indent : Nat) (isFirst : Bool) (place : Place) :
    Option (List (String × Document) × Place) :=
  match fuel with
  | 0 => none
  | fuel + 1 => do
    match ← place.entry? '\x7d' isFirst with
    | .closed next => return ([], next)
    | .entry here =>
      let atom ← flowAtom fuel true indent here
      match atom.next.skipSpaces.afterColon? true with
      | none =>
        let key ← atom.document.text?
        let (entries, next) ← flowEntries fuel indent false atom.next
        return ((key, missing) :: entries, next)
      | some next =>
        let key ← atom.key?
        let (value, next) ← flowValue fuel indent next
        let (entries, next) ← flowEntries fuel indent false next
        return ((key, value) :: entries, next)

/-- What stands after a colon inside brackets or braces. -/
def flowValue (fuel indent : Nat) (place : Place) : Option (Document × Place) :=
  match fuel with
  | 0 => none
  | fuel + 1 => do
    let (_, here) ← place.skip true true
    if here.rest.head?.any fun c => [',', ']', '\x7d'].contains c then return (missing, here)
    else
      let atom ← flowAtom fuel true indent here
      return (atom.document, atom.next)

end

end TaggedSchema.Yaml
