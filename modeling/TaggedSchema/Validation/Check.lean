import TaggedSchema.Format.Complaint
import TaggedSchema.Rule.Activation
import TaggedSchema.Violation

/-!
# Constraints on a value alone

Bounds, sizes, formats, enumerations, and values that are not allowed.
-/

namespace TaggedSchema

namespace Number

/-- Whether the number is less than an integer. Integers are compared exactly, where one that does
not fit a signed word is above every bound. A double is compared with the double nearest to the
bound. -/
def isBelow (number : Number) (bound : Int) : Bool :=
  match number with
  | int value => number.isSigned && decide (value < bound)
  | float value =>
    match Double.ofInt? bound with
    | some bound => decide (value.rank < bound.rank)
    | none => false

/-- Equality of values. Two integers that fit signed words are compared exactly, any other two
numbers as doubles. -/
def equalByValue (a b : Number) : Bool :=
  match a, b with
  | int m, int n => if a.isSigned && b.isSigned then m == n else a.toDouble? == b.toDouble?
  | _, _ => a.toDouble? == b.toDouble?

end Number

namespace Value

/-- Whether the value is a number below the bound. -/
def isBelow (value : Value) (bound : Int) : Bool :=
  match value with
  | number n => n.isBelow bound
  | _ => false

/-- Equality where numbers are compared by value. -/
def equalByValue : Value → Value → Bool
  | number a, number b => a.equalByValue b
  | a, b => a == b

end Value

namespace Constraint

/-- A violation of a limit by a size, if there is a size. -/
def overLimit? (size : Option Nat) (limit : Nat) (violation : Nat → Violation) :
    Option Violation :=
  (size.filter fun size => limit < size).map violation

/-- What the constraint finds wrong with a value, whatever lies around it. Constraints of other
kinds find nothing. -/
def breach? (constraint : Constraint) (gates : GateView) (path : Path) (value : Value) :
    Option Violation :=
  let invalid (detail : String) : Violation := .invalid path value detail constraint.origin
  match constraint with
  | minimum bound =>
    if value.isBelow bound then some (invalid s!"must be greater than or equal to {bound}")
    else none
  | maxLength limit =>
    overLimit? (value.text?.map String.utf8ByteSize) limit fun size =>
      .tooLong path size limit constraint.origin
  | maxItems limit =>
    overLimit? (value.items?.map List.length) limit fun size =>
      .tooMany path size limit constraint.origin
  | maxProperties limit =>
    overLimit? (value.members?.map List.length) limit fun size =>
      .tooMany path size limit constraint.origin
  | format kind =>
    match (value.text?.map fun text => kind.complaints text.toList).getD [] with
    | [] => none
    | complaints =>
      some (invalid (String.intercalate "; " (complaints.map Complaint.message)))
  | enumeration members =>
    let allowed := allowedValues gates members
    if allowed.contains (identityText value) then none
    else some (.notSupported path value allowed constraint.origin)
  | differs other =>
    if value.equalByValue other then some (invalid ("must not be equal to " ++ other.toText))
    else none
  | _ => none

end Constraint

end TaggedSchema
