import TaggedSchema.Gate

/-!
# Options

What the compiler takes for granted about tags and gates.
-/

namespace TaggedSchema

structure Options where
  /-- Only tags with this qualifier are compiled; without one, all are. -/
  qualifier : Option String
  /-- Whether tags with unknown names are passed over. -/
  allowUnknownTags : Bool
  /-- The gates that exist, if only those may be named. -/
  gates : Option GateRegistry

def Options.default : Options := ⟨some "k8s", false, none⟩

instance : Inhabited Options := ⟨.default⟩

end TaggedSchema
