import TaggedSchema.Proofs.Results
import TaggedSchema.Proofs.Universe.Signatures
import TaggedSchema.Rule.Build

/-!
# Definitions without tags that do not apply

Under a view of the gates, a tag with a condition in it that does not hold can be taken out of its
definition. What is left has the same names and fields, and every reference leads where it led.
-/

namespace TaggedSchema

namespace Tag

/-- Whether the tag is a condition that holds, or no condition. -/
def holds (gates : GateView) (tag : Tag) : Bool :=
  match Directive.ofName? tag.name, tag.gateName with
  | some (.conditional polarity), .ok gate => (Compiler.condition polarity gate).holds gates
  | _, _ => true

/-- Whether all conditions in the tag hold, at every depth. -/
def stands (gates : GateView) : Tag → Bool
  | composed head inner => holds gates (composed head inner) && inner.stands gates
  | tag => tag.holds gates

/-- The lines without those of tags that do not stand. -/
def standingLines (gates : GateView) (scope : Scope) (lines : List String) : List String :=
  lines.filter fun line => !isTagLine line || (parse scope line).toOption.all (stands gates)

theorem parseLines_standingLines {scope : Scope} {lines : List String} {tags : List Tag}
    (h : parseLines scope lines = .ok tags) (gates : GateView) :
    parseLines scope (standingLines gates scope lines) = .ok (tags.filter (stands gates)) := by
  -- Lines that are no tags stay, but they are not parsed.
  have hlines : (standingLines gates scope lines).filter isTagLine =
      (lines.filter isTagLine).filter fun line =>
        (parse scope line).toOption.all (stands gates) := by
    rw [standingLines, List.filter_filter, List.filter_filter]
    apply List.filter_congr
    intro line _
    cases isTagLine line <;> simp
  rw [parseLines, mapM_succeeds_iff] at h ⊢
  rw [hlines]
  generalize lines.filter isTagLine = given at h ⊢
  induction h with
  | nil => exact .nil
  | @cons line tag lines tags hline hrest ih =>
    have hstands : (parse scope line).toOption.all (stands gates) = tag.stands gates := by
      rw [hline]
      rfl
    rw [List.filter_cons, List.filter_cons, hstands]
    split
    next => exact .cons hline ih
    next => exact ih

end Tag

/-! ## Definitions -/

def FieldDef.pruned (gates : GateView) (field : FieldDef) : FieldDef :=
  { field with tags := Tag.standingLines gates .field field.tags }

def ConstantDef.pruned (gates : GateView) (constant : ConstantDef) : ConstantDef :=
  { constant with tags := Tag.standingLines gates .constant constant.tags }

def TypeDef.Body.pruned (gates : GateView) : TypeDef.Body → TypeDef.Body
  | .struct fields => .struct (fields.map (FieldDef.pruned gates))
  | .alias underlying constants => .alias underlying (constants.map (ConstantDef.pruned gates))

def TypeDef.pruned (gates : GateView) (type : TypeDef) : TypeDef where
  name := type.name
  tags := Tag.standingLines gates .type type.tags
  body := type.body.pruned gates

/-- The definitions without the tags that do not stand. -/
def Universe.pruned (types : Universe) (gates : GateView) : Universe :=
  types.mapEntries (TypeDef.pruned gates) fun _ => rfl

variable {gates : GateView}

theorem TypeDef.fields_pruned (type : TypeDef) :
    (type.pruned gates).fields = type.fields.map (FieldDef.pruned gates) := by
  rw [fields, fields, pruned]
  cases type.body <;> rfl

theorem TypeDef.field?_pruned (type : TypeDef) (jsonName : String) :
    (type.pruned gates).field? jsonName = (type.field? jsonName).map (FieldDef.pruned gates) := by
  rw [field?, fields_pruned, List.find?_map]
  rfl

theorem TypeDef.untagged_pruned (type : TypeDef) :
    (type.pruned gates).untagged = type.untagged := by
  have hfield : FieldDef.untagged ∘ FieldDef.pruned gates = FieldDef.untagged := rfl
  have hconstant : ConstantDef.untagged ∘ ConstantDef.pruned gates = ConstantDef.untagged := rfl
  obtain ⟨name, tags, body⟩ := type
  cases body <;> simp [pruned, untagged, Body.pruned, Body.untagged, hfield, hconstant]

theorem TypeDef.isAlias_pruned (type : TypeDef) : (type.pruned gates).isAlias = type.isAlias := by
  rw [← isAlias_untagged, untagged_pruned, isAlias_untagged]

namespace Universe

theorem get?_pruned (types : Universe) (gates : GateView) (name : String) :
    (types.pruned gates).get? name = (types.get? name).map (TypeDef.pruned gates) :=
  types.get?_mapEntries _ name

theorem sameSignatures_pruned (types : Universe) (gates : GateView) :
    SameSignatures types (types.pruned gates) :=
  sameSignatures_mapEntries types _ TypeDef.untagged_pruned

end Universe

end TaggedSchema
