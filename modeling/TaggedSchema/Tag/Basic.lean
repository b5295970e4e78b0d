import TaggedSchema.Text.Numeral
import TaggedSchema.Text.Quoted

/-!
# Tags

A tag is one annotation of a definition: a name with an optional qualifier, arguments, and a value
that is a literal or another tag. Composed tags nest to any depth.
-/

namespace TaggedSchema

/-- What a tag is attached to. -/
inductive Scope where
  | field
  | type
  /-- Every element of a list. -/
  | listValue
  /-- Every key of a map. -/
  | mapKey
  /-- Every value of a map. -/
  | mapValue
  /-- A constant of an enumeration. -/
  | constant
  deriving DecidableEq

def Scope.toText : Scope → String
  | field => "field"
  | type => "type"
  | listValue => "list value"
  | mapKey => "map key"
  | mapValue => "map value"
  | constant => "constant"

inductive Literal where
  | string (text : String)
  | int (value : Int)
  | bool (value : Bool)
  /-- A word without quotes that is neither an integer nor a boolean. -/
  | word (text : String)
  deriving DecidableEq

namespace Literal

/-- What a word without quotes stands for. -/
def ofWord (text : List Char) : Literal :=
  if text = ['t', 'r', 'u', 'e'] then bool true
  else if text = ['f', 'a', 'l', 's', 'e'] then bool false
  else
    match Text.signed? text with
    | some value => int value
    | none => word (String.ofList text)

/-- The text of a string or a word. -/
def text? : Literal → Option String
  | string text => some text
  | word text => some text
  | _ => none

def int? : Literal → Option Int
  | int value => some value
  | _ => none

def bool? : Literal → Option Bool
  | bool value => some value
  | _ => none

def toText : Literal → String
  | string text => Text.quoted text
  | int value => toString value
  | bool true => "true"
  | bool false => "false"
  | word text => text

end Literal

/-- One argument in parentheses, with a name or without. -/
structure Argument where
  name? : Option String
  value : Literal
  deriving DecidableEq

def Argument.toText (argument : Argument) : String :=
  match argument.name? with
  | some name => name ++ ": " ++ argument.value.toText
  | none => argument.value.toText

/-- A tag without its value. -/
structure Tag.Head where
  qualifier : Option String
  name : String
  scope : Scope
  arguments : List Argument
  /-- The text from which the whole tag was read. -/
  raw : String
  deriving DecidableEq

inductive Tag where
  | bare (head : Tag.Head)
  | valued (head : Tag.Head) (value : Literal)
  | composed (head : Tag.Head) (inner : Tag)
  deriving DecidableEq

namespace Tag

def head : Tag → Head
  | bare head => head
  | valued head _ => head
  | composed head _ => head

def name (tag : Tag) : String := tag.head.name

def raw (tag : Tag) : String := tag.head.raw

def arguments (tag : Tag) : List Argument := tag.head.arguments

def inner? : Tag → Option Tag
  | composed _ inner => some inner
  | _ => none

def value? : Tag → Option Literal
  | valued _ value => some value
  | _ => none

/-- Whether anything stands behind an equals sign. -/
def hasPayload : Tag → Bool
  | bare _ => false
  | _ => true

/-- The value of the first argument with this name. -/
def argument? (tag : Tag) (name : String) : Option Literal :=
  (tag.arguments.find? fun argument => argument.name? == some name).map Argument.value

/-- The first argument without a name. -/
def positional? (tag : Tag) : Option Literal :=
  (tag.arguments.find? fun argument => argument.name?.isNone).map Argument.value

/-- A tag without a qualifier belongs to every namespace. -/
def belongsTo (tag : Tag) (space : String) : Bool :=
  match tag.head.qualifier with
  | some qualifier => qualifier == space
  | none => true

end Tag

def Tag.Head.qualifiedName (head : Tag.Head) : String :=
  match head.qualifier with
  | some qualifier => qualifier ++ ":" ++ head.name
  | none => head.name

def Tag.Head.toText (head : Tag.Head) : String :=
  let arguments :=
    if head.arguments.isEmpty then ""
    else "(" ++ String.intercalate ", " (head.arguments.map Argument.toText) ++ ")"
  "+" ++ head.qualifiedName ++ arguments

/-- A text that reads as the same tag, if its strings need no escape that reading does not know. -/
def Tag.toText : Tag → String
  | bare head => head.toText
  | valued head value => head.toText ++ "=" ++ value.toText
  | composed head inner => head.toText ++ "=" ++ inner.toText

end TaggedSchema
