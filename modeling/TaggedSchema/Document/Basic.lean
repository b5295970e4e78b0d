import TaggedSchema.Value.Basic

/-!
# Documents

What definitions and error lists are read from. A document is JSON data, or comes from a file in
which scalars need no quotes. There, what an unquoted scalar is depends on what is wanted in its
place, and only mappings are records, while JSON also has records in the form of lists.
-/

namespace TaggedSchema

inductive Document where
  | null
  | bool (value : Bool)
  | number (value : Number)
  | text (text : String)
  | list (items : List Document)
  | table (entries : List (String × Document))
  /-- A scalar without quotes. -/
  | plain (text : String)
  /-- A list that is not a record. -/
  | sequence (items : List Document)
  /-- A record or a map, in which names may be repeated. -/
  | mapping (entries : List (String × Document))
  deriving Inhabited

namespace Document

mutual

def ofValue : Value → Document
  | .null => null
  | .bool value => bool value
  | .number value => number value
  | .string value => text value
  | .array items => list (ofItems items)
  | .object members => table (ofMembers members)

def ofItems : List Value → List Document
  | [] => []
  | item :: items => ofValue item :: ofItems items

def ofMembers : List (String × Value) → List (String × Document)
  | [] => []
  | (name, value) :: members => (name, ofValue value) :: ofMembers members

end

/-- Unquoted spellings of null. -/
def isPlainNull (spelling : String) : Bool :=
  ["null", "Null", "NULL", "~"].contains spelling

def plainBool? (spelling : String) : Option Bool :=
  if ["true", "True", "TRUE"].contains spelling then some true
  else if ["false", "False", "FALSE"].contains spelling then some false
  else none

/-- An unquoted scalar is a text where a text is wanted, whatever it looks like. -/
def text? : Document → Option String
  | text value => some value
  | plain value => some value
  | _ => none

def bool? : Document → Option Bool
  | bool value => some value
  | plain value => plainBool? value
  | _ => none

/-- An empty scalar is also the empty list. -/
def items? : Document → Option (List Document)
  | list items => some items
  | sequence items => some items
  | plain "" => some []
  | _ => none

/-- An empty scalar is also the empty map. -/
def entries? : Document → Option (List (String × Document))
  | table entries => some entries
  | mapping entries => some entries
  | plain "" => some []
  | _ => none

/-- Nothing where the document is null. -/
def optional? {α : Type} (read : Document → Option α) (document : Document) : Option (Option α) :=
  match document with
  | null => some none
  | plain spelling =>
    if spelling.isEmpty || isPlainNull spelling then some none else (read document).map some
  | _ => (read document).map some

def listOf? {α : Type} (read : Document → Option α) (document : Document) : Option (List α) := do
  (← document.items?).mapM read

/-- The entries of a record with these members. A list gives the members in order, and those at
its end may be missing. -/
def record? (members : List String) (document : Document) : Option (List (String × Document)) :=
  match document with
  | list items => if items.length ≤ members.length then some (members.zip items) else none
  | _ => document.entries?

/-- Read the member of a record under `name`, which must not occur twice; a missing one is
`absent`. -/
def member? {α : Type} (entries : List (String × Document)) (name : String) (absent : Option α)
    (read : Document → Option α) : Option α :=
  match entries.filter fun entry => entry.1 == name with
  | [] => absent
  | [(_, document)] => read document
  | _ => none

/-- One of the names in a list of choices, given by itself or as the only entry of a table with
the value null. -/
def choice? {α : Type} (choices : List (String × α)) (document : Document) : Option α :=
  match document with
  | text name => choices.lookup name
  | plain name => choices.lookup name
  | table [(name, null)] => choices.lookup name
  | _ => none

end Document

end TaggedSchema
