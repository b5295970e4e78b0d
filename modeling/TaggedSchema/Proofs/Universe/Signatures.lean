import TaggedSchema.Proofs.Universe.References

/-!
# Definitions up to their tags

Two universes have the same signatures if they differ in tags only. Then references lead to the
same shapes, and fields have the same names and types.
-/

namespace TaggedSchema

def FieldDef.untagged (field : FieldDef) : FieldDef := { field with tags := [] }

def ConstantDef.untagged (constant : ConstantDef) : ConstantDef := { constant with tags := [] }

def TypeDef.Body.untagged : TypeDef.Body → TypeDef.Body
  | .struct fields => .struct (fields.map FieldDef.untagged)
  | .alias underlying constants => .alias underlying (constants.map ConstantDef.untagged)

/-- A definition without its own tags and those of its fields and constants. -/
def TypeDef.untagged (type : TypeDef) : TypeDef := ⟨type.name, [], type.body.untagged⟩

namespace TypeDef

variable {type type' : TypeDef}

theorem untagged_untagged (type : TypeDef) : type.untagged.untagged = type.untagged := by
  obtain ⟨name, tags, body⟩ := type
  cases body <;> simp [untagged, Body.untagged, FieldDef.untagged, ConstantDef.untagged]

theorem fields_untagged (type : TypeDef) :
    type.untagged.fields = type.fields.map FieldDef.untagged := by
  rw [fields, fields, untagged]
  cases type.body <;> rfl

theorem field?_untagged (type : TypeDef) (jsonName : String) :
    type.untagged.field? jsonName = (type.field? jsonName).map FieldDef.untagged := by
  rw [field?, fields_untagged, List.find?_map]
  rfl

theorem isAlias_untagged (type : TypeDef) : type.untagged.isAlias = type.isAlias := by
  rw [isAlias, isAlias, untagged]
  cases type.body <;> rfl

theorem underlying?_untagged (type : TypeDef) : type.untagged.underlying? = type.underlying? := by
  rw [underlying?, underlying?, untagged]
  cases type.body <;> rfl

end TypeDef

namespace Universe

/-- The constants of the definition with this name. -/
def constants? (types : Universe) (name : String) : Option (List ConstantDef) :=
  (types.get? name).map TypeDef.constants

/-- The definitions are the same but for tags. -/
structure SameSignatures (types types' : Universe) : Prop where
  entries : types'.entries.map TypeDef.untagged = types.entries.map TypeDef.untagged

namespace SameSignatures

variable {types types' : Universe}

theorem get? (h : SameSignatures types types') (name : String) :
    (types'.get? name).map TypeDef.untagged = (types.get? name).map TypeDef.untagged := by
  have hname (type : TypeDef) : type.untagged.name = type.name := rfl
  rw [Catalog.get?, Catalog.get?, ← Catalog.findEntry_map hname, h.entries,
    Catalog.findEntry_map hname]

theorem references (h : SameSignatures types types') : SameReferences types types' where
  size := by simpa [Catalog.size] using congrArg List.length h.entries
  names name := by
    have hget := congrArg (Option.map TypeDef.underlying?) (h.get? name)
    simpa [Function.comp_def, TypeDef.underlying?_untagged] using hget

end SameSignatures

/-- Changing definitions leaves the signatures if it only changes tags. -/
theorem sameSignatures_mapEntries (types : Universe) {change : TypeDef → TypeDef}
    (hname : ∀ type, (change type).name = type.name)
    (huntagged : ∀ type, (change type).untagged = type.untagged) :
    SameSignatures types (types.mapEntries change hname) where
  entries := by
    change (types.entries.map change).map TypeDef.untagged = _
    rw [List.map_map]
    exact List.map_congr_left fun type _ => huntagged type

/-! ## Taking the tags off one definition -/

def untagAt (name : String) (type : TypeDef) : TypeDef :=
  if type.name = name then type.untagged else type

/-- The definitions, of which the one with this name has no tags any more. -/
def untag (types : Universe) (name : String) : Universe :=
  types.mapEntries (untagAt name) fun type => by rw [untagAt]; split <;> rfl

variable {types : Universe} {name other : String}

theorem get?_untag (types : Universe) (name wanted : String) :
    (types.untag name).get? wanted = (types.get? wanted).map (untagAt name) :=
  types.get?_mapEntries _ wanted

theorem get?_untag_of_ne (h : other ≠ name) : (types.untag name).get? other = types.get? other := by
  rw [get?_untag]
  cases hget : types.get? other with
  | none => rfl
  | some type =>
    have hname : type.name ≠ name := fun hsame => h (Catalog.name_of_findEntry hget ▸ hsame)
    rw [Option.map_some, untagAt, if_neg hname]

theorem get?_untag_self :
    (types.untag name).get? name = (types.get? name).map TypeDef.untagged := by
  rw [get?_untag]
  cases hget : types.get? name with
  | none => rfl
  | some type => rw [Option.map_some, untagAt, if_pos (Catalog.name_of_findEntry hget)]; rfl

theorem sameSignatures_untag (types : Universe) (name : String) :
    SameSignatures types (types.untag name) := by
  refine sameSignatures_mapEntries types _ fun type => ?_
  rw [untagAt]
  split
  next => exact type.untagged_untagged
  next => rfl

end Universe

end TaggedSchema
