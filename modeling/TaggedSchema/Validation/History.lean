import TaggedSchema.Validation.Walk

/-!
# Histories

Versions of one object that arrive one after the other. Each is validated against the object that
is stored at the time, and one without violations is stored in its place.
-/

namespace TaggedSchema

structure Version where
  object : Value
  gates : GateView

/-- What became of a version. -/
structure Outcome where
  violations : List Violation
  stored : Option Value

/-- The outcomes of versions that arrive at a stored object, if there is one yet. With
`keepInvalid` a version with violations is stored all the same. -/
def outcomes (type : CompiledType) (schema : Schema) (keepInvalid : Bool) (stored : Option Value) :
    List Version → List Outcome
  | [] => []
  | version :: versions =>
    let violations := type.violations schema version.gates version.object stored
    let stored := if violations.isEmpty || keepInvalid then some version.object else stored
    ⟨violations, stored⟩ :: outcomes type schema keepInvalid stored versions

end TaggedSchema
