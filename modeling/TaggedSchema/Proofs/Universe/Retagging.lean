import Mathlib.Data.List.Basic
import TaggedSchema.Proofs.Universe.Signatures

/-!
# Giving a field other tags

A universe in which one field of one struct has other tags is the same but for these tags: all
definitions keep their signatures, their own tags and their constants.
-/

namespace TaggedSchema

/-- The field with these tags instead of its own. -/
def FieldDef.retag (tags : List String) (field : FieldDef) : FieldDef := { field with tags }

theorem FieldDef.map_untagged_modify (position : Nat) (tags : List String)
    (fields : List FieldDef) :
    (fields.modify position (FieldDef.retag tags)).map FieldDef.untagged =
      fields.map FieldDef.untagged := by
  induction fields generalizing position with
  | nil => rw [List.modify_nil]
  | cons field fields ih =>
    cases position with
    | zero => rfl
    | succ position => rw [List.modify_succ_cons, List.map_cons, List.map_cons, ih]

namespace TypeDef

/-- Only structs have fields. -/
theorem body_of_mem_fields {type : TypeDef} {field : FieldDef} (h : field ∈ type.fields) :
    type.body = .struct type.fields := by
  cases hbody : type.body with
  | struct => rw [TypeDef.fields, hbody]
  | «alias» =>
    rw [TypeDef.fields, hbody] at h
    cases h

/-- If the definition is the struct `owner`, its field at the position has these tags. -/
def retagAt (owner : String) (position : Nat) (tags : List String) (type : TypeDef) : TypeDef :=
  match type.body with
  | .struct fields =>
    if type.name = owner then
      { type with body := .struct (fields.modify position (FieldDef.retag tags)) }
    else type
  | .alias .. => type

variable {owner : String} {position : Nat} {tags : List String}

theorem retagAt_of_ne {type : TypeDef} (h : type.name ≠ owner) :
    type.retagAt owner position tags = type := by
  rw [retagAt]
  split
  next => rw [if_neg h]
  next => rfl

theorem retagAt_of_alias {type : TypeDef} {underlying : TypeRef} {constants : List ConstantDef}
    (h : type.body = .alias underlying constants) : type.retagAt owner position tags = type := by
  rw [retagAt, h]

theorem retagAt_of_struct {type : TypeDef} {fields : List FieldDef} (hname : type.name = owner)
    (h : type.body = .struct fields) :
    type.retagAt owner position tags =
      { type with body := .struct (fields.modify position (FieldDef.retag tags)) } := by
  simp only [retagAt, h, if_pos hname]

theorem getElem?_fields_retagAt {type : TypeDef} {field : FieldDef} (hname : type.name = owner)
    (hfield : type.fields[position]? = some field) :
    (type.retagAt owner position tags).fields[position]? = some (field.retag tags) := by
  have hbody := body_of_mem_fields (List.mem_of_getElem? hfield)
  rw [retagAt_of_struct hname hbody, fields, List.getElem?_modify_eq, hfield]
  rfl

/-- A definition is left as it is, or it is a struct of which one field is changed. -/
theorem retagAt_cases (owner : String) (position : Nat) (tags : List String) (type : TypeDef) :
    type.retagAt owner position tags = type ∨
      ∃ fields, type.name = owner ∧ type.body = .struct fields ∧
        type.retagAt owner position tags =
          { type with body := .struct (fields.modify position (FieldDef.retag tags)) } := by
  by_cases hname : type.name = owner
  · cases hbody : type.body with
    | struct fields => exact .inr ⟨fields, hname, rfl, retagAt_of_struct hname hbody⟩
    | «alias» => exact .inl (retagAt_of_alias hbody)
  · exact .inl (retagAt_of_ne hname)

theorem name_retagAt (type : TypeDef) : (type.retagAt owner position tags).name = type.name := by
  rcases type.retagAt_cases owner position tags with h | ⟨_, -, -, h⟩ <;> rw [h]

theorem tags_retagAt (type : TypeDef) : (type.retagAt owner position tags).tags = type.tags := by
  rcases type.retagAt_cases owner position tags with h | ⟨_, -, -, h⟩ <;> rw [h]

theorem constants_retagAt (type : TypeDef) :
    (type.retagAt owner position tags).constants = type.constants := by
  rcases type.retagAt_cases owner position tags with h | ⟨_, -, hbody, h⟩
  · rw [h]
  · rw [h, constants, constants, hbody]

theorem untagged_retagAt (type : TypeDef) :
    (type.retagAt owner position tags).untagged = type.untagged := by
  rcases type.retagAt_cases owner position tags with h | ⟨fields, -, hbody, h⟩
  · rw [h]
  · have hfields := FieldDef.map_untagged_modify position tags fields
    rw [h, untagged, untagged, hbody, Body.untagged, Body.untagged, hfields]

end TypeDef

namespace Universe

/-- The definitions, where the field at the position of the struct `owner` has these tags. -/
def retag (types : Universe) (owner : String) (position : Nat) (tags : List String) : Universe :=
  types.mapEntries (TypeDef.retagAt owner position tags) TypeDef.name_retagAt

variable (types : Universe) (owner : String) (position : Nat) (tags : List String)

theorem get?_retag (name : String) : (types.retag owner position tags).get? name =
    (types.get? name).map (TypeDef.retagAt owner position tags) :=
  types.get?_mapEntries _ name

theorem sameSignatures_retag : SameSignatures types (types.retag owner position tags) :=
  sameSignatures_mapEntries types _ TypeDef.untagged_retagAt

theorem constants?_retag (name : String) :
    (types.retag owner position tags).constants? name = types.constants? name := by
  rw [constants?, constants?, get?_retag, Option.map_map]
  congr 1
  funext type
  exact type.constants_retagAt

end Universe

/-- Lines that stand one behind the other at a field of a struct. -/
structure FieldLines (types : Universe) where
  type : TypeDef
  position : Nat
  field : FieldDef
  front : List String
  lines : List String
  back : List String
  type_known : types.get? type.name = some type
  field_position : type.fields[position]? = some field
  field_tags : field.tags = front ++ lines ++ back

/-- The definitions with other lines in the place of these. -/
def FieldLines.replaced {types : Universe} (a : FieldLines types) (lines' : List String) :
    Universe :=
  types.retag a.type.name a.position (a.front ++ lines' ++ a.back)

end TaggedSchema
