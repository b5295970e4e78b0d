import TaggedSchema.Schema.Plan
import TaggedSchema.Violation

/-!
# Presence and change

Whether a value counts as set, and what a set or unset value has become from one version of an
object to the next.
-/

namespace TaggedSchema

def Plan.isMap : Plan → Bool
  | map .. => true
  | _ => false

/-- Whether a value counts as unset at a place with this plan. A missing value is null. Empty
lists and maps are unset; so are zero values, unless the place is reached through a pointer. -/
def Plan.isUnset (plan : Plan) : Value → Bool
  | .null => true
  | .array items => items.isEmpty
  | .object members => members.isEmpty && plan.isMap
  | .string text => !plan.access.nullable && text.isEmpty
  | .bool value => !plan.access.nullable && !value
  | .number value => !plan.access.nullable && value.isZero

/-- Whether a member of a union counts as set. -/
def Value.isPresent : Value → Bool
  | null => false
  | array items => !items.isEmpty
  | object members => !members.isEmpty
  | _ => true

/-- What happened to a value that is not the one it was. -/
inductive Change where
  | set
  | cleared
  | modified
  deriving DecidableEq

/-- The change from one value to a different one. Two unset values count as the same. -/
def Plan.change? (plan : Plan) (old new : Value) : Option Change :=
  match plan.isUnset old, plan.isUnset new with
  | true, true => none
  | true, false => some .set
  | false, true => some .cleared
  | false, false => some .modified

namespace Restriction

/-- The change that the restriction does not allow. -/
def rejects : Restriction → Change
  | noSet => .set
  | noUnset => .cleared
  | noModify => .modified

def detail : Restriction → String
  | noSet => "field may not be set once created"
  | noUnset => "field may not be cleared once set"
  | noModify => "field may not be modified once set"

end Restriction

namespace Constraint

/-- Why the constraint does not allow a change. -/
def rejection? (constraint : Constraint) (change : Change) : Option String :=
  match constraint with
  | immutable => some "field is immutable"
  | restriction kind => if kind.rejects = change then some kind.detail else none
  | _ => none

/-- What the constraint says about a value that is unset, or set. -/
def presence? (constraint : Constraint) (path : Path) (isUnset : Bool) : Option Violation :=
  match constraint, isUnset with
  | required, true => some (.required path constraint.origin)
  | forbidden, false => some (.forbidden path "may not be specified" constraint.origin)
  | _, _ => none

end Constraint

end TaggedSchema
