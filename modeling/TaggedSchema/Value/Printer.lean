import TaggedSchema.Decimal.Shortest
import TaggedSchema.Text.Quoted
import TaggedSchema.Value.Basic

/-!
# Printing JSON

The compact text of a value has no blanks and writes members in name order. Characters outside
ASCII are written as they are.
-/

namespace TaggedSchema

namespace Text

/-- Four hexadecimal digits. -/
def fourHexDigits (code : Nat) : List Char :=
  let digits := hexNumeral code
  List.replicate (4 - digits.length) '0' ++ digits

/-- The spelling of a character in a JSON string. -/
def jsonChar (c : Char) : List Char :=
  if c = '"' then ['\\', '"']
  else if c = '\\' then ['\\', '\\']
  else if c = '\x08' then ['\\', 'b']
  else if c = '\x0c' then ['\\', 'f']
  else if c = '\n' then ['\\', 'n']
  else if c = '\r' then ['\\', 'r']
  else if c = '\t' then ['\\', 't']
  else if c.toNat < 0x20 then ['\\', 'u'] ++ fourHexDigits c.toNat
  else [c]

def jsonString (text : String) : String :=
  String.ofList ('"' :: text.toList.flatMap jsonChar ++ ['"'])

end Text

def Number.toText : Number → String
  | int value => toString value
  | float value => value.toText

namespace Value

mutual

/-- The compact text of a value. -/
def toText : Value → String
  | null => "null"
  | bool true => "true"
  | bool false => "false"
  | number value => value.toText
  | string text => Text.jsonString text
  | array items => "[" ++ String.intercalate "," (itemTexts items) ++ "]"
  | object members => "\x7b" ++ String.intercalate "," (memberTexts members) ++ "\x7d"

def itemTexts : List Value → List String
  | [] => []
  | item :: items => toText item :: itemTexts items

def memberTexts : List (String × Value) → List String
  | [] => []
  | (name, value) :: members => (Text.jsonString name ++ ":" ++ toText value) :: memberTexts members

end

end Value

end TaggedSchema
