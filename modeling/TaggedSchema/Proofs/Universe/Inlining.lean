import TaggedSchema.Proofs.Results
import TaggedSchema.Proofs.Universe.References

/-!
# Aliases in fields

A field whose type is an alias can have what the alias stands for as its type, with the tags of the
alias behind its own. Every reference has the same shape as before.
-/

namespace TaggedSchema

/-- A field of a struct whose type is an alias. -/
structure AliasField (types : Universe) where
  owner : TypeDef
  before : List FieldDef
  field : FieldDef
  after : List FieldDef
  aliasType : TypeDef
  underlying : TypeRef
  constants : List ConstantDef
  owner_known : types.get? owner.name = some owner
  owner_body : owner.body = .struct (before ++ field :: after)
  alias_known : types.get? aliasType.name = some aliasType
  alias_body : aliasType.body = .alias underlying constants
  field_type : field.type = .named aliasType.name

namespace AliasField

variable {types : Universe} (a : AliasField types)

/-- The field without the alias. -/
def newField : FieldDef :=
  { a.field with type := a.underlying, tags := a.field.tags ++ a.aliasType.tags }

def newOwner : TypeDef :=
  { a.owner with body := .struct (a.before ++ a.newField :: a.after) }

/-- The definitions where the field is without the alias. -/
def inlined : Universe := types.insert a.newOwner

/-- What becomes of a definition. -/
def replace (type : TypeDef) : TypeDef :=
  if type.name = a.owner.name then a.newOwner else type

/-- A field and what becomes of it. -/
inductive Replaces : FieldDef → FieldDef → Prop
  | same (field : FieldDef) : Replaces field field
  | inlined : Replaces a.field a.newField

/-- A reference and one that may stand in its place. -/
inductive Stands : TypeRef → TypeRef → Prop
  | same (ref : TypeRef) : Stands ref ref
  | inlined : Stands (.named a.aliasType.name) a.underlying

variable {a}

theorem Replaces.name {field field' : FieldDef} (h : a.Replaces field field') :
    field'.name = field.name := by
  cases h <;> rfl

theorem Replaces.jsonName {field field' : FieldDef} (h : a.Replaces field field') :
    field'.jsonName = field.jsonName := by
  cases h <;> rfl

theorem Replaces.type {field field' : FieldDef} (h : a.Replaces field field') :
    a.Stands field.type field'.type := by
  cases h with
  | same => exact .same _
  | inlined =>
    rw [a.field_type]
    exact .inlined

variable (a)

/-! ## Definitions -/

theorem replace_name (type : TypeDef) : (a.replace type).name = type.name := by
  rw [replace]
  split
  next hname => exact hname.symm
  next => rfl

theorem inlined_entries : a.inlined.entries = types.entries.map a.replace :=
  Catalog.insertEntry_of_mem types.sorted (List.mem_of_find?_eq_some a.owner_known) rfl

theorem inlined_get? (name : String) : a.inlined.get? name = (types.get? name).map a.replace := by
  rw [Catalog.get?, inlined_entries, Catalog.findEntry_map a.replace_name]
  rfl

theorem inlined_size : a.inlined.size = types.size := by
  rw [Catalog.size, inlined_entries, List.length_map]
  rfl

variable {a} {name : String} {type : TypeDef}

/-- Only the struct that has the field is changed. -/
theorem replace_cases (h : types.get? name = some type) :
    a.replace type = type ∨ type = a.owner ∧ a.replace type = a.newOwner := by
  rw [replace]
  split
  next hname =>
    have hknown := a.owner_known
    rw [← hname, Catalog.name_of_findEntry h, h] at hknown
    exact .inr ⟨Option.some.inj hknown, rfl⟩
  next => exact .inl rfl

theorem replace_tags (h : types.get? name = some type) : (a.replace type).tags = type.tags := by
  rcases a.replace_cases h with hsame | ⟨rfl, hnew⟩
  · rw [hsame]
  · rw [hnew]
    rfl

theorem replace_of_alias (h : types.get? name = some type) {underlying : TypeRef}
    {constants : List ConstantDef} (hbody : type.body = .alias underlying constants) :
    a.replace type = type := by
  rcases a.replace_cases h with hsame | ⟨rfl, -⟩
  · exact hsame
  · cases hbody.symm.trans a.owner_body

theorem replace_of_struct (h : types.get? name = some type) {fields : List FieldDef}
    (hbody : type.body = .struct fields) :
    ∃ fields', (a.replace type).body = .struct fields' ∧
      List.Forall₂ a.Replaces fields fields' := by
  have hsame (fields : List FieldDef) : List.Forall₂ a.Replaces fields fields :=
    List.forall₂_same.mpr fun field _ => .same field
  rcases a.replace_cases h with hreplace | ⟨rfl, hnew⟩
  · rw [hreplace]
    exact ⟨fields, hbody, hsame fields⟩
  · rw [hnew]
    cases hbody.symm.trans a.owner_body
    exact ⟨_, rfl, List.rel_append (hsame _) (.cons .inlined (hsame _))⟩

theorem replace_fields (h : types.get? name = some type) :
    List.Forall₂ a.Replaces type.fields (a.replace type).fields := by
  cases hbody : type.body with
  | struct fields =>
    obtain ⟨fields', hbody', hfields⟩ := a.replace_of_struct h hbody
    rw [TypeDef.fields, TypeDef.fields, hbody, hbody']
    exact hfields
  | _ =>
    rw [a.replace_of_alias h hbody, TypeDef.fields, hbody]
    exact .nil

theorem replace_field? (h : types.get? name = some type) (jsonName : String) :
    Option.Rel a.Replaces (type.field? jsonName) ((a.replace type).field? jsonName) :=
  find?_of_forall₂ (replace_fields h) fun field field' hfield => by rw [hfield.jsonName]

/-! ## References -/

theorem sameReferences : Universe.SameReferences types a.inlined where
  size := a.inlined_size
  names name := by
    rw [a.inlined_get?, Option.map_map]
    cases hget : types.get? name with
    | none => rfl
    | some type =>
      refine congrArg some ?_
      cases hbody : type.body with
      | struct fields =>
        obtain ⟨fields', hbody', -⟩ := a.replace_of_struct hget hbody
        rw [TypeDef.underlying?_eq_none_iff.mpr ⟨fields, hbody⟩]
        exact TypeDef.underlying?_eq_none_iff.mpr ⟨fields', hbody'⟩
      | _ => rw [Function.comp_apply, a.replace_of_alias hget hbody]

theorem resolve_inlined (ref : TypeRef) : a.inlined.resolve ref = types.resolve ref :=
  sameReferences.resolve ref

/-- Where a name that was met first stands in the way of nothing, it need not have been met. -/
theorem follow_without {spare : Nat} {met behind : List String} {nullable : Bool} {ref : TypeRef}
    {resolved : Resolved} (hmet : met = name :: behind)
    (h : types.follow spare met nullable ref = .ok resolved) :
    ∃ named, resolved.named = name :: named ∧
      types.follow (spare + 1) behind nullable ref =
        .ok ⟨resolved.shape, resolved.nullable, named⟩ := by
  -- A name that was not met is not among fewer names.
  have hnotBehind {met behind : List String} (hmet : met = name :: behind) {next : String}
      (hnew : ¬met.contains next = true) : ¬behind.contains next = true := by
    rw [hmet, List.contains_cons, Bool.or_eq_true, not_or] at hnew
    exact hnew.2
  fun_induction Universe.follow types spare met nullable ref generalizing behind with
  | case1 spare met nullable ref shape hpointee =>
    cases h
    refine ⟨behind, hmet, ?_⟩
    rw [Universe.follow.eq_def, hpointee]
  | case2 | case3 | case6 => cases h
  | case4 spare met nullable ref next hpointee hnew type hget fields hbody =>
    cases h
    refine ⟨behind ++ [next], by rw [hmet, List.cons_append], ?_⟩
    rw [Universe.follow.eq_def, hpointee]
    simp only [if_neg (hnotBehind hmet hnew), hget, hbody]
  | case5 met nullable ref next hpointee hnew type hget underlying constants spare hbody ih =>
    rw [Universe.follow.eq_def, hpointee]
    simp only [if_neg (hnotBehind hmet hnew), hget, hbody]
    exact ih (by rw [hmet, List.cons_append]) h

/-- What the alias stands for has the shape of the alias. -/
theorem resolve_alias {resolved : Resolved}
    (h : types.resolve (.named a.aliasType.name) = .ok resolved) :
    ∃ named, resolved.named = a.aliasType.name :: named ∧
      types.resolve a.underlying = .ok ⟨resolved.shape, resolved.nullable, named⟩ := by
  rw [Universe.resolve, Universe.follow.eq_def] at h
  simp only [TypeRef.pointee, List.contains_nil, Bool.false_eq_true, if_false, a.alias_known,
    a.alias_body] at h
  rw [Universe.resolve]
  cases hsize : types.size with
  | zero =>
    rw [hsize] at h
    cases h
  | succ spare =>
    rw [hsize] at h
    exact follow_without rfl h

theorem Stands.shape {ref ref' : TypeRef} {resolved resolved' : Resolved} (h : a.Stands ref ref')
    (hresolve : types.resolve ref = .ok resolved)
    (hresolve' : a.inlined.resolve ref' = .ok resolved') : resolved'.shape = resolved.shape := by
  rw [resolve_inlined] at hresolve'
  cases h with
  | same =>
    cases hresolve.symm.trans hresolve'
    rfl
  | inlined =>
    obtain ⟨named, -, hunderlying⟩ := resolve_alias hresolve
    cases hunderlying.symm.trans hresolve'
    rfl

end AliasField

end TaggedSchema
