import TaggedSchema.Proofs.Rule.Failures
import TaggedSchema.Proofs.Universe.Acyclic
import TaggedSchema.Schema.Compile

/-!
# Planning ends

The plan of a reference is made from plans of the references inside it. Where no alias contains
itself, these lie only finitely deep inside each other, and the bound on their depth is never
reached, whatever the rules are and whatever structs contain.
-/

namespace TaggedSchema

/-! ## List metadata -/

namespace ListMetadata

theorem addType_ends (m : ListMetadata) (type : ListType) (tag : String) :
    Ends (m.addType type tag) := by
  rw [addType]
  split
  next =>
    split
    next => exact .ok _
    next => exact .error trivial
  next => exact .ok _

theorem add_ends (m : ListMetadata) (rule : Rule) : Ends (m.add rule) := by
  rw [add.eq_def]
  split
  next => exact m.addType_ends _ _
  all_goals exact .ok _

theorem finish_ends (m : ListMetadata) : Ends m.finish := by
  rw [finish]
  split
  next => exact .error trivial
  next =>
    split
    next => exact .error trivial
    next =>
      split
      next => exact .error trivial
      next =>
        split
        next => exact .error trivial
        next => exact .ok _

end ListMetadata

theorem ListSemantics.ofRules_ends (rules : List Rule) : Ends (ListSemantics.ofRules rules) :=
  (FailsWith.foldlM ListMetadata.add_ends _ _).bind fun metadata _ => metadata.finish_ends

namespace Compiler

variable {c : Compiler} {ref : TypeRef} {here : List Rule} {depth depth' : Nat}
variable {inside inside' : TypeRef → List Rule → Except BuildError Plan}

theorem aliasRules_ends (name : String) : Ends (c.aliasRules name) := by
  rw [aliasRules]
  split
  next =>
    split
    next => exact typeRules_ends _
    next => exact .ok _
  next => exact .ok _

/-! ## One level of a plan -/

/-- The plan of a reference with these rules at it, where `inside` makes the plans of the references
inside it. -/
def planLevel (c : Compiler) (inside : TypeRef → List Rule → Except BuildError Plan)
    (ref : TypeRef) (here : List Rule) : Except BuildError Plan := do
  let resolved ← c.resolve ref
  let inherited ← resolved.named.mapM c.aliasRules
  let rules := here ++ inherited.flatten
  let access : Access := ⟨resolved.nullable, resolved.named⟩
  match resolved.shape with
  | .scalar kind => return .scalar access kind
  | .struct name => return .struct access name
  | .slice element =>
    let semantics ← ListSemantics.ofRules rules
    let element ← inside element (rulesWithin Place.isEachVal rules)
    return .list access element semantics
  | .map key value =>
    let key ← inside key (rulesWithin Place.isEachKey rules)
    let value ← inside value (rulesWithin Place.isEachVal rules)
    return .map access key value

theorem planWithin_succ : c.planWithin (depth + 1) = c.planLevel (c.planWithin depth) := rfl

/-- Only plans of references inside are asked for. -/
theorem planLevel_congr (h : ∀ inner, c.types.InsideOf inner ref → inside inner = inside' inner) :
    c.planLevel inside ref here = c.planLevel inside' ref here := by
  refine bind_congr_of_ok fun resolved hresolve => bind_congr fun inherited => ?_
  have hresolved := mapError_succeeds_iff.mp hresolve
  dsimp only
  split
  next => rfl
  next => rfl
  next element hshape => rw [h element (Universe.insideOf_element hresolved hshape)]
  next key value hshape =>
    rw [h key (Universe.insideOf_key hresolved hshape),
      h value (Universe.insideOf_value hresolved hshape)]

theorem planLevel_ends
    (h : ∀ inner, c.types.InsideOf inner ref → ∀ here, Ends (inside inner here)) :
    Ends (c.planLevel inside ref here) := by
  refine (resolve_ends ref).bind fun resolved hresolve => ?_
  have hresolved := mapError_succeeds_iff.mp hresolve
  refine (FailsWith.mapM aliasRules_ends _).bind fun inherited _ => ?_
  dsimp only
  split
  next => exact .ok _
  next => exact .ok _
  next element hshape =>
    have helement := h element (Universe.insideOf_element hresolved hshape)
    exact (ListSemantics.ofRules_ends _).bind fun semantics _ =>
      (helement _).bind fun element _ => .ok _
  next key value hshape =>
    have hkey := h key (Universe.insideOf_key hresolved hshape)
    have hvalue := h value (Universe.insideOf_value hresolved hshape)
    exact (hkey _).bind fun key _ => (hvalue _).bind fun value _ => .ok _

/-! ## Depth -/

/-- A greater bound on the depth changes nothing. -/
theorem planWithin_eq_of_le (h : c.types.NestsWithin depth ref) (hle : depth ≤ depth') :
    c.planWithin depth' ref = c.planWithin depth ref := by
  induction depth generalizing ref depth' with
  | zero => cases h
  | succ depth ih =>
    cases depth' with
    | zero => cases hle
    | succ depth' =>
      funext here
      rw [planWithin_succ, planWithin_succ]
      exact planLevel_congr fun inner hinner => ih (h inner hinner) (Nat.le_of_succ_le_succ hle)

/-- Where references lie only so deep inside each other, the bound is not reached. -/
theorem planWithin_ends (h : c.types.NestsWithin depth ref) (here : List Rule) :
    Ends (c.planWithin depth ref here) := by
  induction depth generalizing ref here with
  | zero => cases h
  | succ depth ih => exact planLevel_ends fun inner hinner => ih (h inner hinner)

theorem depthBound_eq (c : Compiler) (ref : TypeRef) :
    c.depthBound ref = ref.size + c.types.aliasSize + 1 := by
  have hsum (entries : List TypeDef) :
      entries.foldr (fun type bound => expansion type + bound) (ref.size + 1) =
        ref.size + ((entries.filterMap TypeDef.underlying?).map TypeRef.size).sum + 1 := by
    induction entries with
    | nil => rfl
    | cons type entries ih =>
      rw [List.foldr_cons, ih, List.filterMap_cons, expansion, TypeDef.underlying?]
      cases type.body with
      | struct fields => exact Nat.zero_add _
      | «alias» underlying constants =>
        dsimp only
        rw [List.map_cons, List.sum_cons]
        omega
  exact hsum c.types.entries

section

variable (h : c.types.Acyclic)

include h

theorem nestsWithin_depthBound (ref : TypeRef) : c.types.NestsWithin (c.depthBound ref) ref := by
  rw [depthBound_eq]
  exact h.nestsWithin ref

theorem planWithin_eq_plan (hdepth : c.types.NestsWithin depth ref) :
    c.planWithin depth ref = c.plan ref := by
  have hbound := nestsWithin_depthBound h ref
  rcases Nat.le_total depth (c.depthBound ref) with hle | hle
  · exact (planWithin_eq_of_le hdepth hle).symm
  · exact planWithin_eq_of_le hbound hle

theorem plan_ends (ref : TypeRef) (here : List Rule) : Ends (c.plan ref here) :=
  planWithin_ends (nestsWithin_depthBound h ref) here

/-- Each plan is made from the plans of the references inside. -/
theorem planLevel_plan : c.planLevel c.plan = c.plan := by
  funext ref here
  have hbound := nestsWithin_depthBound h ref
  rw [depthBound_eq] at hbound
  -- The references inside have bounds of their own, and what is left of this one will do as well.
  rw [← planWithin_eq_plan h hbound, planWithin_succ]
  exact planLevel_congr fun inner hinner => (planWithin_eq_plan h (hbound inner hinner)).symm

/-- The induction is on the references inside each other. -/
theorem eq_plan_of_planLevel (hlevel : c.planLevel inside = inside) : inside = c.plan := by
  funext ref
  induction ref using h.wellFounded.induction with
  | h ref ih =>
    funext here
    rw [← hlevel, ← planLevel_plan h]
    exact planLevel_congr ih

end

end Compiler

/-! ## Definitions -/

namespace Unions

theorem update_ends {name : String} {change : UnionGroup → Except BuildError UnionGroup}
    (hchange : ∀ group, Ends (change group)) (groups : List UnionGroup) :
    Ends (update name change groups) := by
  induction groups with
  | nil => exact (hchange _).bind fun _ _ => .ok _
  | cons group groups ih =>
    rw [update]
    split
    next => exact (hchange _).bind fun _ _ => .ok _
    next => exact ih.bind fun _ _ => .ok _

theorem add_ends (u : Unions) (field : String) (selector : Option ItemSelector) (rule : Rule) :
    Ends (u.add field selector rule) := by
  rw [add.eq_def]
  split
  next =>
    refine (update_ends (fun group => ?_) _).bind fun _ _ => .ok _
    split
    next => exact .error trivial
    next => exact .ok _
  next => exact (update_ends (fun _ => .ok _) _).bind fun _ _ => .ok _
  next =>
    refine (update_ends (fun group => ?_) _).bind fun _ _ => .ok _
    split
    next => exact .error trivial
    next => exact .ok _
  next => exact .ok _

theorem addFieldRule_ends (field : String) (u : Unions) (rule : Rule) :
    Ends (addFieldRule field u rule) := by
  refine (u.add_ends field none rule).bind fun u _ => ?_
  split
  next => exact u.add_ends _ _ _
  next => exact .ok _

end Unions

/-- The errors stay what they are when they are said to be those of a type or a field. -/
theorem Ends.placed {α : Type} {x : Except BuildError α} (h : Ends x) (type : String)
    (field : Option String) :
    FailsWith (fun error => error.cause.IsFound)
      (x.mapError fun cause => CompileError.mk type field cause) :=
  h.mapError fun _ hfound => hfound

namespace Compiler

section

variable {c : Compiler} (h : c.types.Acyclic)

include h

theorem field_ends (u : Unions) (field : FieldDef) : Ends (c.field u field) :=
  (fieldRules_ends field).bind fun rules _ => (plan_ends h field.type rules).bind fun _ _ =>
    (FailsWith.foldlM (Unions.addFieldRule_ends field.jsonName) rules u).bind fun _ _ => .ok _

theorem fields_ends (type : String) (u : Unions) (fields : List FieldDef) :
    FailsWith (fun error => error.cause.IsFound) (c.fields type u fields) := by
  induction fields generalizing u with
  | nil => exact .ok _
  | cons field rest ih =>
    exact ((field_ends h u field).placed type field.name).bind fun _ _ =>
      (ih _).bind fun _ _ => .ok _

theorem structBody_ends (type : String) (fields : List FieldDef) :
    FailsWith (fun error => error.cause.IsFound) (c.structBody type fields) := by
  refine (fields_ends h type .empty fields).bind fun _ _ => ?_
  dsimp only
  split
  next => exact .error trivial
  next => exact .ok _

theorem definition_ends (type : TypeDef) :
    FailsWith (fun error => error.cause.IsFound) (c.definition type) := by
  refine ((typeRules_ends type).placed type.name none).bind fun rules _ => ?_
  dsimp only
  split
  next fields _ => exact ((structBody_ends h type.name fields).map _).bind fun _ _ => .ok _
  next => exact (((plan_ends h _ _).placed type.name none).map _).bind fun _ _ => .ok _

end

/-- Where no alias contains itself, every plan is made in finitely many steps. References do not
lie inside each other without end, a plan depends on the plans of the references inside and is the
only one that does so, and the bound on their depth is not reached, in a plan or in what is compiled
with it. -/
theorem planning_ends (c : Compiler) (h : c.types.Acyclic) :
    WellFounded c.types.InsideOf ∧
      (∀ ref here inside inside',
        (∀ inner, c.types.InsideOf inner ref → inside inner = inside' inner) →
          c.planLevel inside ref here = c.planLevel inside' ref here) ∧
      (∀ inside, c.planLevel inside = inside ↔ inside = c.plan) ∧
      (∀ ref here endless, c.plan ref here ≠ .error (.endless endless)) ∧
      ∀ error ∈ (compile c.types c.options).errors, ∀ endless, error.cause ≠ .endless endless := by
  refine ⟨h.wellFounded, fun _ _ _ _ => planLevel_congr, fun inside => ?_, ?_, ?_⟩
  · constructor
    · exact eq_plan_of_planLevel h
    · rintro rfl
      exact planLevel_plan h
  · intro ref here endless herror
    exact plan_ends h ref here _ herror
  · rintro error herror endless hcause
    obtain ⟨result, hresult, hfailed⟩ := List.mem_filterMap.mp herror
    obtain ⟨type, -, rfl⟩ := List.mem_map.mp hresult
    have hfound : error.cause.IsFound := by
      cases hdefinition : c.definition type with
      | ok compiled =>
        rw [hdefinition] at hfailed
        cases hfailed
      | error other =>
        rw [hdefinition] at hfailed
        cases hfailed
        exact definition_ends h type _ hdefinition
    rw [hcause] at hfound
    exact hfound

/-- Nodes lead to each other, and to rows of nodes. -/
def gridTypes : Universe := Catalog.ofList
  [⟨"Grid", [], .alias (.map (.named "Key") (.pointer (.named "Row"))) []⟩,
    ⟨"Key", [], .alias (.scalar .string) []⟩,
    ⟨"Node", [], .struct [⟨"Next", none, .pointer (.named "Node"), []⟩,
      ⟨"Grid", none, .named "Grid", []⟩]⟩,
    ⟨"Row", ["+k8s:eachVal=+k8s:immutable"], .alias (.slice (.named "Node")) []⟩]

theorem planning_ends_grid :
    let c : Compiler := ⟨gridTypes, .default⟩
    c.types.Acyclic ∧ c.planLevel c.plan = c.plan ∧
      (∀ endless, c.plan (.named "Grid") [] ≠ .error (.endless endless)) ∧
      c.plan (.named "Grid") [] = .ok (.map ⟨false, ["Grid"]⟩ (.scalar ⟨false, ["Key"]⟩ .string)
        (.list ⟨true, ["Row"]⟩ (.struct ⟨false, ["Node"]⟩ "Node") .atomic)) := by
  intro c
  have hacyclic : c.types.Acyclic := by
    refine Universe.acyclic_of_rank
      (fun name => if name = "Grid" then 2 else if name = "Row" then 1 else 0) ?_
    decide +kernel
  obtain ⟨-, -, hlevel, hends, -⟩ := planning_ends c hacyclic
  refine ⟨hacyclic, (hlevel c.plan).mpr rfl, hends _ _, ?_⟩
  decide +kernel

end Compiler

end TaggedSchema
