import TaggedSchema.Path.Parser
import TaggedSchema.Pattern.Replacement

/-!
# Normalizing paths

Paths that differ between two validators for a known reason are changed before violations are
compared.
-/

namespace TaggedSchema

/-- All matches of a pattern in the text of a path are replaced. -/
structure Substitution where
  pattern : Pattern
  replacement : String

def Substitution.apply (substitution : Substitution) (text : String) : String :=
  substitution.pattern.replaceAll substitution.replacement text

/-- Why substitutions cannot be used. -/
inductive SubstitutionError where
  | invalidPattern (source : String)
  deriving DecidableEq

/-- A substitution from the texts of its pattern and its replacement. -/
def Substitution.make (source replacement : String) : Except SubstitutionError Substitution :=
  match Pattern.parse? source with
  | some pattern => .ok ⟨pattern, replacement⟩
  | none => .error (.invalidPattern source)

/-- Substitutions in the order in which they are applied. -/
abbrev Normalizer := List Substitution

namespace Normalizer

def apply (normalizer : Normalizer) (text : String) : String :=
  normalizer.foldl (fun text substitution => substitution.apply text) text

/-- The path that the changed text spells. A path whose text does not change, or becomes none
that can be read, stays as it is. -/
def normalize (normalizer : Normalizer) (path : Path) : Path :=
  let text := path.toText
  let changed := normalizer.apply text
  if changed = text then path
  else
    match Path.parse changed with
    | .ok normalized => normalized
    | .error _ => path

end Normalizer

end TaggedSchema
