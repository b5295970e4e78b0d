import TaggedSchema.Document.Settle
import TaggedSchema.Gate
import TaggedSchema.Path.Parser
import TaggedSchema.Universe.Basic
import TaggedSchema.Violation

/-!
# Reading definitions and violations

Members that a record does not have are ignored. A missing member takes its default if there is
one, and otherwise the document is refused.
-/

namespace TaggedSchema

open Document

def TypeRef.ofDocument? (document : Document) : Option TypeRef := do
  let text ← document.text?
  (TypeRef.parse text).toOption

def FieldDef.ofDocument? (document : Document) : Option FieldDef := do
  let entries ← document.record? ["name", "json_name", "type", "tags"]
  let name ← member? entries "name" none text?
  let givenJsonName ← member? entries "json_name" (some none) (optional? text?)
  let type ← member? entries "type" none TypeRef.ofDocument?
  let tags ← member? entries "tags" (some []) (listOf? text?)
  return ⟨name, givenJsonName, type, tags⟩

def ConstantDef.ofDocument? (document : Document) : Option ConstantDef := do
  let entries ← document.record? ["name", "value", "tags"]
  let name ← member? entries "name" none text?
  let value ← member? entries "value" none text?
  let tags ← member? entries "tags" (some []) (listOf? text?)
  return ⟨name, value, tags⟩

/-- The two kinds of definition, by name or by position. -/
def TypeDef.isStructKind? : Document → Option Bool
  | .text "struct" => some true
  | .text "alias" => some false
  | .number (.int 0) => some true
  | .number (.int 1) => some false
  | _ => none

/-- The body of a definition is settled before its parts are read, so an unquoted number is no
name there. -/
def TypeDef.Body.ofEntries? (entries : List (String × Document)) : Option TypeDef.Body := do
  let isStruct ← member? entries "kind" none TypeDef.isStructKind?
  if isStruct then
    let fields ← member? entries "fields" (some []) (listOf? FieldDef.ofDocument?)
    return .struct fields
  else
    let underlying ← member? entries "underlying" none TypeRef.ofDocument?
    let constants ← member? entries "constants" (some []) (listOf? ConstantDef.ofDocument?)
    return .alias underlying constants

def TypeDef.ofDocument? (document : Document) : Option TypeDef := do
  let entries ← document.entries?
  let name ← member? entries "name" none text?
  let tags ← member? entries "tags" (some []) (listOf? text?)
  let isHead := fun entry : String × Document => entry.1 == "name" || entry.1 == "tags"
  let body ← TypeDef.Body.ofEntries? (← settleEntries? (entries.filter fun e => !isHead e))
  return ⟨name, tags, body⟩

def Universe.ofDocument? (document : Document) : Option Universe := do
  return Catalog.ofList (← listOf? TypeDef.ofDocument? document)

def GateSnapshot.ofDocument? (document : Document) : Option GateSnapshot := do
  let entries ← document.entries?
  let gates ← entries.mapM fun (name, enabled) => do return (name, ← enabled.bool?)
  return Catalog.ofList gates

def GateRegistry.ofDocument? (document : Document) : Option GateRegistry := do
  return Catalog.ofList (← listOf? text? document)

def Path.ofDocument? (document : Document) : Option Path := do
  let text ← document.text?
  (Path.parse text).toOption

def ViolationKind.ofDocument? : Document → Option ViolationKind :=
  choice? (ViolationKind.all.map fun kind => (kind.name, kind))

def Violation.ofDocument? (document : Document) : Option Violation := do
  let entries ← document.record? ["path", "kind", "bad_value", "detail", "origin",
    "covered_by_declarative", "declarative_native"]
  let path ← member? entries "path" none Path.ofDocument?
  let kind ← member? entries "kind" none ViolationKind.ofDocument?
  let badValue ← member? entries "bad_value" (some none) (optional? value?)
  let detail ← member? entries "detail" (some "") text?
  let origin ← member? entries "origin" (some "") text?
  let covered ← member? entries "covered_by_declarative" (some false) bool?
  let native ← member? entries "declarative_native" (some false) bool?
  return ⟨path, kind, badValue, detail, origin, covered, native⟩

def violationsOfDocument? (document : Document) : Option (List Violation) :=
  listOf? Violation.ofDocument? document

end TaggedSchema
