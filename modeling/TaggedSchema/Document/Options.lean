import TaggedSchema.Document.Definitions
import TaggedSchema.Document.Yaml.Reader
import TaggedSchema.Options

/-!
# Reading and writing options

Every member of the options has a default, so an empty record is a valid one.
-/

namespace TaggedSchema

open Document

def Options.ofDocument? (document : Document) : Option Options := do
  let entries ← document.record? ["namespace", "allow_unknown_tags", "feature_gates"]
  let fallback := Options.default
  let qualifier ← member? entries "namespace" (some fallback.qualifier) (optional? text?)
  let allowUnknownTags ←
    member? entries "allow_unknown_tags" (some fallback.allowUnknownTags) bool?
  let gates ←
    member? entries "feature_gates" (some fallback.gates) (optional? GateRegistry.ofDocument?)
  return ⟨qualifier, allowUnknownTags, gates⟩

/-- The options in a YAML text. A blank text stands for the defaults. -/
def Options.ofYaml? : String → Option Options :=
  readYaml? .default Options.ofDocument?

end TaggedSchema
