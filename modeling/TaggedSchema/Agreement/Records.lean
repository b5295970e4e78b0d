import TaggedSchema.Agreement.Report
import TaggedSchema.Document.Definitions
import TaggedSchema.Document.Records
import TaggedSchema.Document.Yaml.Reader

/-!
# Reading and writing matchers, substitutions and reports
-/

namespace TaggedSchema

open Document

def Matcher.ofDocument? (document : Document) : Option Matcher := do
  let entries ← document.record? ["by_origin", "by_value", "by_detail"]
  let byOrigin ← member? entries "by_origin" (some false) bool?
  let byValue ← member? entries "by_value" (some false) bool?
  let byDetail ← member? entries "by_detail" (some false) bool?
  return ⟨byOrigin, byValue, byDetail⟩

/-- A substitution whose pattern cannot be read is refused with the document. -/
def Substitution.ofDocument? (document : Document) : Option Substitution := do
  let entries ← document.record? ["pattern", "replacement"]
  let pattern ← member? entries "pattern" none text?
  let replacement ← member? entries "replacement" none text?
  (Substitution.make pattern replacement).toOption

def Normalizer.ofDocument? (document : Document) : Option Normalizer :=
  listOf? Substitution.ofDocument? document

/-- The substitutions in a YAML text. A blank text has none. -/
def Normalizer.ofYaml? : String → Option Normalizer :=
  readYaml? [] Normalizer.ofDocument?

def Substitution.toDocument (substitution : Substitution) : Document :=
  table [("pattern", text substitution.pattern.source),
    ("replacement", text substitution.replacement)]

def Normalizer.toDocument (normalizer : Normalizer) : Document :=
  list (normalizer.map Substitution.toDocument)

def MatchedPair.toDocument (pair : MatchedPair) : Document :=
  table [("declarative", pair.declarative.toDocument), ("reference", pair.reference.toDocument)]

def Report.toDocument (report : Report) : Document :=
  table [("matched", list (report.matched.map MatchedPair.toDocument)),
    ("unmatched_declarative", violationsDocument report.unmatchedDeclarative),
    ("unmatched_reference", violationsDocument report.unmatchedReference),
    ("passthrough", violationsDocument report.passthrough),
    ("ignored_declarative", violationsDocument report.ignored)]

end TaggedSchema
