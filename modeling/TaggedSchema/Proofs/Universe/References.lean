import Mathlib.Data.List.Basic
import Mathlib.Data.Option.Basic
import TaggedSchema.Proofs.Catalog
import TaggedSchema.Universe.Resolve

/-!
# What references depend on

A reference is resolved by the names of the definitions and by what the aliases among them stand
for. Nothing else of a definition matters, be it tags, fields or constants. Each name that is met
on the way leads to the same shape.
-/

namespace TaggedSchema

/-- What a definition stands for if it is an alias. -/
def TypeDef.underlying? (type : TypeDef) : Option TypeRef :=
  match type.body with
  | .struct _ => none
  | .alias underlying _ => some underlying

theorem TypeDef.underlying?_eq_none_iff {type : TypeDef} :
    type.underlying? = none ↔ ∃ fields, type.body = .struct fields := by
  rw [underlying?]
  cases type.body with
  | struct fields => exact ⟨fun _ => ⟨fields, rfl⟩, fun _ => rfl⟩
  | _ => exact ⟨nofun, fun ⟨_, h⟩ => nomatch h⟩

theorem TypeDef.underlying?_eq_some_iff {type : TypeDef} {underlying : TypeRef} :
    type.underlying? = some underlying ↔
      ∃ constants, type.body = .alias underlying constants := by
  rw [underlying?]
  cases type.body with
  | struct fields => exact ⟨nofun, fun ⟨_, h⟩ => nomatch h⟩
  | _ => simp

namespace Universe

/-- The same names are defined, and stand for the same if they are aliases. -/
structure SameReferences (types types' : Universe) : Prop where
  size : types'.size = types.size
  names : ∀ name, (types'.get? name).map TypeDef.underlying? =
    (types.get? name).map TypeDef.underlying?

namespace SameReferences

variable {types types' : Universe} {name : String} {type : TypeDef}

theorem get?_none (h : SameReferences types types') (hget : types.get? name = none) :
    types'.get? name = none := by
  have hnames := h.names name
  rwa [hget, Option.map_none, Option.map_eq_none_iff] at hnames

theorem get?_some (h : SameReferences types types') (hget : types.get? name = some type) :
    ∃ type', types'.get? name = some type' ∧ type'.underlying? = type.underlying? := by
  have hnames := h.names name
  rwa [hget, Option.map_some, Option.map_eq_some_iff] at hnames

theorem get?_struct (h : SameReferences types types') (hget : types.get? name = some type)
    {fields : List FieldDef} (hbody : type.body = .struct fields) :
    ∃ type' fields', types'.get? name = some type' ∧ type'.body = .struct fields' := by
  obtain ⟨type', hget', hsame⟩ := h.get?_some hget
  rw [TypeDef.underlying?_eq_none_iff.mpr ⟨fields, hbody⟩] at hsame
  obtain ⟨fields', hbody'⟩ := TypeDef.underlying?_eq_none_iff.mp hsame
  exact ⟨type', fields', hget', hbody'⟩

theorem get?_alias (h : SameReferences types types') (hget : types.get? name = some type)
    {underlying : TypeRef} {constants : List ConstantDef}
    (hbody : type.body = .alias underlying constants) :
    ∃ type' constants', types'.get? name = some type' ∧
      type'.body = .alias underlying constants' := by
  obtain ⟨type', hget', hsame⟩ := h.get?_some hget
  rw [TypeDef.underlying?_eq_some_iff.mpr ⟨constants, hbody⟩] at hsame
  obtain ⟨constants', hbody'⟩ := TypeDef.underlying?_eq_some_iff.mp hsame
  exact ⟨type', constants', hget', hbody'⟩

/-- The induction is on the aliases that may be met. -/
theorem follow (h : SameReferences types types') (spare : Nat) (met : List String)
    (nullable : Bool) (ref : TypeRef) :
    types'.follow spare met nullable ref = types.follow spare met nullable ref := by
  fun_induction Universe.follow types spare met nullable ref with
  | case1 spare met nullable ref shape hpointee => rw [Universe.follow.eq_def, hpointee]
  | case2 spare met nullable ref name hpointee hmet =>
    rw [Universe.follow.eq_def, hpointee]
    exact if_pos hmet
  | case3 spare met nullable ref name hpointee hnew hget =>
    rw [Universe.follow.eq_def, hpointee]
    simp only [if_neg hnew, h.get?_none hget]
  | case4 spare met nullable ref name hpointee hnew type hget fields hbody =>
    obtain ⟨type', fields', hget', hbody'⟩ := h.get?_struct hget hbody
    rw [Universe.follow.eq_def, hpointee]
    simp only [if_neg hnew, hget', hbody']
  | case5 met nullable ref name hpointee hnew type hget underlying constants spare hbody ih =>
    obtain ⟨type', constants', hget', hbody'⟩ := h.get?_alias hget hbody
    rw [Universe.follow.eq_def, hpointee]
    simp only [if_neg hnew, hget', hbody', ih]
  | case6 met nullable ref name hpointee hnew type hget underlying constants hbody =>
    obtain ⟨type', constants', hget', hbody'⟩ := h.get?_alias hget hbody
    rw [Universe.follow.eq_def, hpointee]
    simp only [if_neg hnew, hget', hbody']

/-- References have the shapes that they had. -/
theorem resolve (h : SameReferences types types') (ref : TypeRef) :
    types'.resolve ref = types.resolve ref := by
  rw [Universe.resolve, h.follow, h.size, Universe.resolve]

end SameReferences

/-! ## The names on the way -/

variable {types : Universe} {resolved : Resolved}

/-- With fewer names met and more aliases to spare, a reference still has its shape. -/
theorem follow_shape {spare spare' : Nat} {met met' : List String} {nullable nullable' : Bool}
    {ref : TypeRef} (h : types.follow spare met nullable ref = .ok resolved)
    (hspare : spare ≤ spare') (hmet : met' ⊆ met) :
    ∃ resolved', types.follow spare' met' nullable' ref = .ok resolved' ∧
      resolved'.shape = resolved.shape := by
  have hnotMet {met met' : List String} (hmet : met' ⊆ met) {next : String}
      (hnew : ¬met.contains next = true) : ¬met'.contains next = true := by
    rw [List.contains_iff_mem] at hnew ⊢
    exact fun hnext => hnew (hmet hnext)
  fun_induction Universe.follow types spare met nullable ref
    generalizing spare' met' nullable' with
  | case1 spare met nullable ref shape hpointee =>
    cases h
    rw [Universe.follow.eq_def, hpointee]
    exact ⟨_, rfl, rfl⟩
  | case2 | case3 | case6 => cases h
  | case4 spare met nullable ref next hpointee hnew type hget fields hbody =>
    cases h
    rw [Universe.follow.eq_def, hpointee]
    simp only [if_neg (hnotMet hmet hnew), hget, hbody]
    exact ⟨_, rfl, rfl⟩
  | case5 met nullable ref next hpointee hnew type hget underlying constants spare hbody ih =>
    obtain ⟨more, rfl⟩ : ∃ more, spare' = more + 1 := ⟨spare' - 1, by omega⟩
    rw [Universe.follow.eq_def, hpointee]
    simp only [if_neg (hnotMet hmet hnew), hget, hbody]
    have hmore : met' ++ [next] ⊆ met ++ [next] :=
      List.append_subset_of_subset_of_subset
        (List.Subset.trans hmet (List.subset_append_left _ _))
        (List.subset_append_right _ _)
    exact ih h (Nat.le_of_succ_le_succ hspare) hmore

theorem follow_named {spare : Nat} {met : List String} {nullable : Bool} {ref : TypeRef}
    (h : types.follow spare met nullable ref = .ok resolved) (hspare : spare ≤ types.size)
    {name : String} (hname : name ∈ resolved.named) (hnew : name ∉ met) :
    ∃ resolved', types.resolve (.named name) = .ok resolved' ∧
      resolved'.shape = resolved.shape := by
  fun_induction Universe.follow types spare met nullable ref with
  | case1 spare met nullable ref shape hpointee =>
    cases h
    exact absurd hname hnew
  | case2 | case3 | case6 => cases h
  | case4 spare met nullable ref next hpointee hnext type hget fields hbody =>
    cases h
    rcases List.mem_append.mp hname with hname | hname
    · exact absurd hname hnew
    · rw [List.mem_singleton.mp hname, Universe.resolve, Universe.follow.eq_def]
      simp only [TypeRef.pointee, List.contains_nil, Bool.false_eq_true, if_false, hget, hbody]
      exact ⟨_, rfl, rfl⟩
  | case5 met nullable ref next hpointee hnext type hget underlying constants spare hbody ih =>
    by_cases hsame : name = next
    · obtain ⟨more, hsize⟩ : ∃ more, types.size = more + 1 := ⟨types.size - 1, by omega⟩
      rw [hsame, Universe.resolve, Universe.follow.eq_def, hsize]
      simp only [TypeRef.pointee, List.contains_nil, Bool.false_eq_true, if_false, hget, hbody]
      exact follow_shape h (by omega) (List.subset_append_right met [next])
    · refine ih h (by omega) ?_
      rw [List.mem_append, List.mem_singleton, not_or]
      exact ⟨hnew, hsame⟩

/-- Every name that is met leads to the shape. -/
theorem resolve_named {ref : TypeRef} (h : types.resolve ref = .ok resolved) {name : String}
    (hname : name ∈ resolved.named) :
    ∃ resolved', types.resolve (.named name) = .ok resolved' ∧
      resolved'.shape = resolved.shape :=
  follow_named h (Nat.le_refl _) hname List.not_mem_nil

end Universe

end TaggedSchema
