import TaggedSchema.Proofs.Rule.Accepted

/-!
# Gates that rules name

Whether a rule is active, and what it allows, depends only on the gates that its conditions name.
Where there is a registry, the builder accepts no condition on any other gate.
-/

namespace TaggedSchema

/-! ## The gates of a rule -/

def Exclusion.gates : Exclusion → List String
  | always _ => []
  | guarded condition inner _ => condition.gate :: inner.gates

def EnumMember.gates (member : EnumMember) : List String :=
  member.exclusions.flatMap Exclusion.gates

def Constraint.gates : Constraint → List String
  | enumeration members => members.flatMap EnumMember.gates
  | _ => []

/-- The gates of all conditions of the rule, at every depth. -/
def Rule.gates : Rule → List String
  | leaf constraint _ => constraint.gates
  | within _ inner _ => inner.gates
  | guarded condition inner _ => condition.gate :: inner.gates

/-- The views do not differ on these gates. -/
def AgreeOn (names : List String) (gates gates' : GateView) : Prop :=
  ∀ gate ∈ names, gates' gate = gates gate

/-! ## Views that agree -/

variable {gates gates' : GateView}

theorem AgreeOn.mono {names others : List String} (h : AgreeOn names gates gates')
    (hsubset : others ⊆ names) : AgreeOn others gates gates' :=
  fun gate hgate => h gate (hsubset hgate)

/-- What is known of all names of some members is known of the names of each. -/
theorem AgreeOn.of_flatMap {α : Type} {members : List α} {names : α → List String}
    (h : AgreeOn (members.flatMap names) gates gates') {member : α} (hmember : member ∈ members) :
    AgreeOn (names member) gates gates' :=
  h.mono fun _ hgate => List.mem_flatMap.mpr ⟨member, hmember, hgate⟩

theorem Condition.holds_congr {condition : Condition}
    (h : gates' condition.gate = gates condition.gate) :
    condition.holds gates' = condition.holds gates := by
  rw [holds, holds, h]

theorem Exclusion.isActive_congr {exclusion : Exclusion}
    (h : AgreeOn exclusion.gates gates gates') : exclusion.isActive gates' = exclusion.isActive gates := by
  induction exclusion with
  | always tag => rfl
  | guarded condition inner tag ih =>
    obtain ⟨hgate, hinner⟩ := List.forall_mem_cons.mp h
    rw [isActive, isActive, Condition.holds_congr hgate, ih hinner]

theorem EnumMember.isExcluded_congr {member : EnumMember} (h : AgreeOn member.gates gates gates') :
    member.isExcluded gates' = member.isExcluded gates := by
  rw [isExcluded, isExcluded, Bool.eq_iff_iff, List.any_eq_true, List.any_eq_true]
  apply exists_congr
  intro exclusion
  apply and_congr_right
  intro hexclusion
  rw [Exclusion.isActive_congr (AgreeOn.of_flatMap h hexclusion)]

theorem allowedValues_congr {members : List EnumMember}
    (h : AgreeOn (members.flatMap EnumMember.gates) gates gates') :
    allowedValues gates' members = allowedValues gates members := by
  rw [allowedValues, allowedValues]
  congr 1
  apply List.filter_congr
  intro member hmember
  rw [EnumMember.isExcluded_congr (h.of_flatMap hmember)]

theorem Rule.resolve_congr {rule : Rule} (h : AgreeOn rule.gates gates gates') :
    rule.resolve gates' = rule.resolve gates := by
  induction rule with
  | leaf constraint tag => rfl
  | within place inner tag => rfl
  | guarded condition inner tag ih =>
    obtain ⟨hgate, hinner⟩ := List.forall_mem_cons.mp h
    rw [resolve, resolve, Condition.holds_congr hgate, ih hinner]

theorem activeRules_congr {rules : List Rule}
    (h : ∀ rule ∈ rules, AgreeOn rule.gates gates gates') :
    activeRules gates' rules = activeRules gates rules :=
  List.filterMap_congr fun rule hrule => Rule.resolve_congr (h rule hrule)

/-- The rule under its conditions names no more gates than the rule with them. -/
theorem Rule.gates_subset_of_resolve {rule active : Rule} (h : rule.resolve gates = some active) :
    active.gates ⊆ rule.gates := by
  induction rule with
  | leaf constraint tag =>
    cases h
    exact List.Subset.refl _
  | within place inner tag =>
    cases h
    exact List.Subset.refl _
  | guarded condition inner tag ih =>
    rw [resolve, Option.ite_none_right_eq_some] at h
    exact List.subset_cons_of_subset _ (ih h.2)

/-! ## Registered gates -/

namespace Compiler

variable {c : Compiler} {registry : GateRegistry}

section

variable (hregistry : c.options.gates = some registry)

include hregistry

theorem gate_registered {tag : Tag} {gate : String} (h : c.gate tag = .ok gate) :
    registry.contains gate = true := by
  rw [Compiler.gate, bind_succeeds_iff] at h
  obtain ⟨named, -, h⟩ := h
  simp only [hregistry] at h
  split at h
  next hcontains =>
    cases h
    exact hcontains
  next => cases h

theorem Excludes.registered {tag : Tag} {exclusion : Exclusion} (h : c.Excludes tag exclusion) :
    ∀ gate ∈ exclusion.gates, registry.contains gate = true := by
  induction h with
  | always => exact fun _ hgate => (nomatch hgate)
  | guarded hname hgate hinner ih =>
    exact List.forall_mem_cons.mpr ⟨gate_registered hregistry hgate, ih⟩

theorem enumMember_registered {constant : ConstantDef} {member : EnumMember}
    (h : c.enumMember constant = .ok member) :
    ∀ gate ∈ member.gates, registry.contains gate = true := by
  simp only [enumMember, bind_succeeds_iff, pure_succeeds_iff] at h
  obtain ⟨tags, -, exclusions, hexclusions, rfl⟩ := h
  intro gate hgate
  obtain ⟨exclusion, hexclusion, hgate⟩ := List.mem_flatMap.mp hgate
  obtain ⟨_, hbuilt, rfl⟩ := List.mem_filterMap.mp hexclusion
  obtain ⟨tag, -, htag⟩ := exists_input_of_mapM hexclusions hbuilt
  exact (exclusion_excludes htag).registered hregistry gate hgate

theorem constraint_registered {tag : Tag} {target : TypeRef} {around : Surroundings}
    {name : SimpleTag} {constraint : Constraint}
    (h : c.constraint tag target around name = .ok constraint) :
    ∀ gate ∈ constraint.gates, registry.contains gate = true := by
  intro gate hgate
  cases constraint with
  | enumeration members =>
    -- No other tag is built into an enumeration.
    cases constraint_tag h
    obtain ⟨_, _, _, constants, _, _, -, -, -, -, -, hmembers, ⟨⟩⟩ := enumeration_eq_ok h
    obtain ⟨member, hmember, hgate⟩ := List.mem_flatMap.mp hgate
    obtain ⟨constant, -, hconstant⟩ := exists_input_of_mapM hmembers hmember
    exact enumMember_registered hregistry hconstant gate hgate
  | _ => cases hgate

/-- All conditions of an accepted rule are on registered gates. -/
theorem Accepts.registered {scope : Scope} {target : TypeRef} {around : Surroundings} {rule : Rule}
    (h : c.Accepts scope target around rule) :
    ∀ gate ∈ rule.gates, registry.contains gate = true := by
  induction h with
  | leaf hscope hsettled hbuilt => exact constraint_registered hregistry hbuilt
  | guarded hgate hinner ih =>
    exact List.forall_mem_cons.mpr ⟨gate_registered hregistry hgate, ih⟩
  | element hresolve hshape hinner ih => exact ih
  | entry hresolve hshape hinner ih => exact ih
  | key hresolve hshape hinner ih => exact ih
  | subfield hstruct hfield hinner ih => exact ih
  | item hstruct helement hselects hkeys hinner ih => exact ih

end

end Compiler

end TaggedSchema
