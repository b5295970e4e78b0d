import TaggedSchema.Path.Parser
import TaggedSchema.Violation

/-!
# Matching violations

Two violations match when they are of one kind at one place. A matcher can ask for more.
-/

namespace TaggedSchema

/-- What has to agree besides kind and place. -/
structure Matcher where
  byOrigin : Bool
  byValue : Bool
  byDetail : Bool
  deriving DecidableEq

namespace Matcher

/-- Kind and place are enough. -/
def lenient : Matcher := ⟨false, false, false⟩

/-- Whether two violations match. Places are compared as they are read back from their texts. -/
def relates (m : Matcher) (a b : Violation) : Bool :=
  a.kind == b.kind && a.path.canonical == b.path.canonical &&
    (!m.byOrigin || a.origin == b.origin) &&
    (!m.byValue || a.badValue == b.badValue) &&
    (!m.byDetail || a.detail == b.detail)

/-- What is compared of a violation. -/
def describe (m : Matcher) (violation : Violation) : String :=
  let origin := if m.byOrigin then " [origin=" ++ violation.origin ++ "]" else ""
  let value := match violation.badValue with
    | some value => if m.byValue then " [value=" ++ value.toText ++ "]" else ""
    | none => ""
  let detail :=
    if m.byDetail && !violation.detail.isEmpty then " [detail=" ++ violation.detail ++ "]" else ""
  violation.path.toText ++ ": " ++ violation.kind.label ++ origin ++ value ++ detail

end Matcher

end TaggedSchema
