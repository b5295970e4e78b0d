import TaggedSchema.Schema.Basic
import TaggedSchema.Validation.Presence

/-!
# Unions

Of the members of a union exactly one is set, which a discriminator may name; of the members of a
zero-or-one group at most one is set. A union of which no field has changed is not looked at.
-/

namespace TaggedSchema

namespace UnionMember

def isSet (member : UnionMember) (object : Value) : Bool :=
  let value := object.member member.field
  match member.selector with
  | some selector => (value.items?.getD []).any selector.selects
  | none => value.isPresent

/-- The path of the member, where its struct is at `object`. -/
def path (member : UnionMember) (object : Path) : Path :=
  let field := object.field member.field
  match member.selector with
  | some selector => field.key selector.identity
  | none => field

end UnionMember

/-- The names of members, as they are listed in details. -/
def memberNames (members : List UnionMember) : String :=
  String.intercalate ", " (members.map fun member => "`" ++ member.name ++ "`")

namespace UnionGroup

/-- The fields whose values decide about the union. -/
def fields (group : UnionGroup) : List String :=
  group.members.map UnionMember.field ++ group.discriminator.toList

def isUnchanged (group : UnionGroup) (object old : Value) : Bool :=
  group.fields.all fun field => object.member field == old.member field

def setMembers (group : UnionGroup) (object : Value) : List UnionMember :=
  group.members.filter fun member => member.isSet object

def member? (group : UnionGroup) (name : String) : Option UnionMember :=
  group.members.find? fun member => member.name == name

/-- A violation at the struct, which lists the members that are set. -/
def wrongCount (group : UnionGroup) (path : Path) (set : List UnionMember)
    (quantity origin : String) : Violation :=
  let badValue : Value :=
    if set.isEmpty then .null else .array (set.map fun member => .string member.name)
  .invalid path badValue s!"must specify {quantity}: {memberNames group.members}" origin

/-- Of a union without a discriminator. -/
def plainViolations (group : UnionGroup) (path : Path) (object : Value) : List Violation :=
  match group.setMembers object with
  | [_] => []
  | [] => [group.wrongCount path [] "one of" "union"]
  | set => [group.wrongCount path set "exactly one of" "union"]

/-- What is wrong where `discriminator` names `chosen`: the chosen member is not set, or others
are. -/
def chosenViolations (group : UnionGroup) (path : Path) (object : Value) (discriminator : String)
    (chosen : UnionMember) : List Violation :=
  let condition := "when `" ++ discriminator ++ "` is \"" ++ chosen.name ++ "\""
  let missing : Violation :=
    { Violation.required (chosen.path path) "union" with
      detail := "must be specified " ++ condition }
  let others := (group.setMembers object).filter fun member => member.name != chosen.name
  let extra (first : UnionMember) : Violation :=
    .forbidden (first.path path)
      (s!"may not be specified {condition} (also set: {memberNames others})") "union"
  (if chosen.isSet object then [] else [missing]) ++ (others.head?.map extra).toList

/-- Of a union with a discriminator. If it is null, no member may be set. -/
def discriminatedViolations (group : UnionGroup) (path : Path) (object : Value)
    (discriminator : String) : List Violation :=
  let value := object.member discriminator
  match value.text?.bind group.member? with
  | some chosen => group.chosenViolations path object discriminator chosen
  | none =>
    if (group.setMembers object).isEmpty && value.isNull then []
    else
      [.invalid (path.field discriminator) value
        s!"must be one of: {memberNames group.members}" "union"]

/-- What is wrong with a union of the struct at `path`. -/
def unionViolations (group : UnionGroup) (path : Path) (object : Value) : List Violation :=
  match group.discriminator with
  | some discriminator => group.discriminatedViolations path object discriminator
  | none => group.plainViolations path object

/-- What is wrong with a group of the struct at `path` of which at most one member is set. -/
def zeroOrOneViolations (group : UnionGroup) (path : Path) (object : Value) : List Violation :=
  match group.setMembers object with
  | [] | [_] => []
  | set => [group.wrongCount path set "at most one of" "zeroOrOneOf"]

end UnionGroup

namespace CompiledStruct

/-- What the unions of a struct find, unless they are unchanged since `old`. -/
def unionViolations (body : CompiledStruct) (path : Path) (object : Value) (old : Option Value) :
    List Violation :=
  let isNew (group : UnionGroup) : Bool := !old.any (group.isUnchanged object)
  (body.unions.filter isNew).flatMap (fun group => group.unionViolations path object) ++
    (body.zeroOrOne.filter isNew).flatMap fun group => group.zeroOrOneViolations path object

end CompiledStruct

end TaggedSchema
