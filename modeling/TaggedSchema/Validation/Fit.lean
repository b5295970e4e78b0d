import TaggedSchema.Decimal.Reading
import TaggedSchema.Schema.Plan

/-!
# The shapes of values

Whether a value is of the kind that its plan expects. The keys of a map are texts, which are read
as values of the domain of the keys.
-/

namespace TaggedSchema

open Text

namespace ScalarKind

def fits : ScalarKind → Value → Bool
  | string, .string _ => true
  | int, .number value => value.isSigned || value.isUnsigned
  | uint, .number value => value.isUnsigned
  | float, .number _ => true
  | bool, .bool _ => true
  | _, _ => false

/-- What a value is said to have to be. -/
def expected : ScalarKind → String
  | string => "a string"
  | int => "an integer"
  | uint => "a non-negative integer"
  | float => "a number"
  | bool => "a boolean"

/-- The value that a key spells in the domain. -/
def ofKey? (kind : ScalarKind) (key : String) : Option Value :=
  match kind with
  | string => none
  | int => (signed? key.toList).map Value.ofInt
  | uint => (unsigned? key.toList).map Value.ofInt
  | float => (Double.decimal? key.toList).map fun value => .number (.float value)
  | bool =>
    if key = "true" then some (.bool true)
    else if key = "false" then some (.bool false)
    else none

end ScalarKind

namespace Plan

/-- Only the outermost shape is compared. -/
def fits : Plan → Value → Bool
  | scalar _ kind, value => kind.fits value
  | list .., .array _ => true
  | map .., .object _ => true
  | struct .., .object _ => true
  | _, _ => false

def expected : Plan → String
  | scalar _ kind => kind.expected
  | list .. => "a list"
  | map .. => "a map"
  | struct _ name => "an object of type " ++ name

/-- The value of a key. A key that spells no value of the domain stays a text, which does not fit
the domain. -/
def keyValue (plan : Plan) (key : String) : Value :=
  match plan with
  | scalar _ kind => (kind.ofKey? key).getD (.string key)
  | _ => .string key

end Plan

end TaggedSchema
