import TaggedSchema.Document.Basic
import TaggedSchema.Value.Printer

/-!
# Printing documents

The indented JSON text of a document: every item and member on a line of its own, two more spaces
for each level, and members in the order of the document.
-/

namespace TaggedSchema.Document

def indentation (depth : Nat) : String :=
  String.ofList (List.replicate (2 * depth) ' ')

/-- Parts between two marks, each on its own line. -/
def enclosed (opening closing : String) (depth : Nat) (parts : List String) : String :=
  if parts.isEmpty then opening ++ closing
  else
    let lines := parts.map fun part => indentation (depth + 1) ++ part
    opening ++ "\n" ++ String.intercalate ",\n" lines ++ "\n" ++ indentation depth ++ closing

mutual

/-- The text of a document inside `depth` others. -/
def indented (depth : Nat) : Document → String
  | null => "null"
  | bool true => "true"
  | bool false => "false"
  | number value => value.toText
  | text value => Text.jsonString value
  | plain value => Text.jsonString value
  | list items => enclosed "[" "]" depth (indentedItems (depth + 1) items)
  | sequence items => enclosed "[" "]" depth (indentedItems (depth + 1) items)
  | table entries => enclosed "\x7b" "\x7d" depth (indentedEntries (depth + 1) entries)
  | mapping entries => enclosed "\x7b" "\x7d" depth (indentedEntries (depth + 1) entries)

def indentedItems (depth : Nat) : List Document → List String
  | [] => []
  | item :: items => indented depth item :: indentedItems depth items

def indentedEntries (depth : Nat) : List (String × Document) → List String
  | [] => []
  | (name, document) :: entries =>
    (Text.jsonString name ++ ": " ++ indented depth document) :: indentedEntries depth entries

end

end TaggedSchema.Document
