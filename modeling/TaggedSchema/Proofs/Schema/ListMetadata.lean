import Mathlib.Data.List.Nodup
import TaggedSchema.Proofs.Results
import TaggedSchema.Schema.Plan

/-!
# What rules say about a list

The semantics of a list are what the rules at it say, and nothing else: one list type, all key
fields, the last mode of uniqueness, and whether the check is made elsewhere. Semantics that are
accepted do not contradict themselves.
-/

namespace TaggedSchema

namespace Constraint

/-- The list type that the constraint gives. -/
@[simp] def listType? : Constraint → Option ListType
  | listType type => some type
  | _ => none

/-- The key field that the constraint names. -/
@[simp] def mapKey? : Constraint → Option String
  | listMapKey name => some name
  | _ => none

/-- The mode of uniqueness that the constraint asks for. -/
@[simp] def uniqueMode? : Constraint → Option UniqueMode
  | unique mode => some mode
  | _ => none

/-- Whether the constraint says that equal elements are looked for elsewhere. -/
@[simp] def isCustomUnique : Constraint → Bool
  | customUnique => true
  | _ => false

theorem mapKey?_eq_some_iff {constraint : Constraint} {name : String} :
    constraint.mapKey? = some name ↔ constraint = .listMapKey name := by
  cases constraint <;> simp

end Constraint

namespace Rule

/-- What the rules say, as far as `facet` tells it. Only constraints without a condition count. -/
def said {α : Type} (facet : Constraint → Option α) (rules : List Rule) : List α :=
  (rules.filterMap constraint?).filterMap facet

variable {α : Type} {facet : Constraint → Option α} {rules : List Rule}

@[simp] theorem said_append_leaf {constraint : Constraint} {tag : String} :
    said facet (rules ++ [leaf constraint tag]) =
      said facet rules ++ (facet constraint).toList := by
  cases h : facet constraint <;> simp [said, constraint?, h]

@[simp] theorem hasConstraint_append_leaf {p : Constraint → Bool} {constraint : Constraint}
    {tag : String} : hasConstraint (rules ++ [leaf constraint tag]) p =
      (hasConstraint rules p || p constraint) := by
  simp [hasConstraint, asks]

section

variable {rule : Rule} (hother : rule.asks Constraint.isListMetadata = false)

include hother

theorem said_append_other
    (hfacet : ∀ constraint, constraint.isListMetadata = false → facet constraint = none) :
    said facet (rules ++ [rule]) = said facet rules := by
  cases rule with
  | leaf constraint tag => simp [hfacet constraint hother]
  | within | guarded => simp [said, constraint?]

theorem hasConstraint_append_other {p : Constraint → Bool}
    (hp : ∀ constraint, constraint.isListMetadata = false → p constraint = false) :
    hasConstraint (rules ++ [rule]) p = hasConstraint rules p := by
  cases rule with
  | leaf constraint tag => simp [hp constraint hother]
  | within | guarded => simp [hasConstraint, asks]

end

theorem mem_said_iff {said' : α} :
    said' ∈ said facet rules ↔
      ∃ constraint tag, leaf constraint tag ∈ rules ∧ facet constraint = some said' := by
  simp only [said, List.mem_filterMap]
  constructor
  · rintro ⟨constraint, ⟨rule, hrule, hconstraint⟩, hsaid⟩
    cases rule with
    | leaf constraint' tag =>
      cases hconstraint
      exact ⟨constraint, tag, hrule, hsaid⟩
    | _ => cases hconstraint
  · rintro ⟨constraint, tag, hrule, hsaid⟩
    exact ⟨constraint, ⟨_, hrule, rfl⟩, hsaid⟩

end Rule

namespace ListSemantics

/-- The semantics are what the rules say. -/
structure SaidBy (semantics : ListSemantics) (rules : List Rule) : Prop where
  listType : ∀ type ∈ Rule.said Constraint.listType? rules, semantics.listType = type
  atomic : Rule.said Constraint.listType? rules = [] → semantics.listType = .atomic
  keys : ∀ name, name ∈ semantics.keys ↔ name ∈ Rule.said Constraint.mapKey? rules
  nodup : semantics.keys.Nodup
  /-- Of several modes the last one counts. -/
  unique : semantics.unique = (Rule.said Constraint.uniqueMode? rules).getLast?
  customUnique : semantics.customUnique = hasConstraint rules Constraint.isCustomUnique

/-- Keys go with map identity and only with it, uniqueness is said once, and only a check that
would be made is replaced. -/
structure Consistent (semantics : ListSemantics) : Prop where
  keys : semantics.identity = .keys ↔ semantics.keys ≠ []
  nodup : semantics.keys.Nodup
  unique : semantics.unique.isSome = true → semantics.listType = .atomic
  customUnique : semantics.customUnique = true → semantics.identity ≠ .positional

end ListSemantics

namespace ListMetadata

variable {m m' : ListMetadata} {rules : List Rule} {rule : Rule} {semantics : ListSemantics}

/-- What is known of a list is what the rules say, and each part of it has a tag that said it. -/
structure Gathers (m : ListMetadata) (rules : List Rule) : Prop where
  said : m.semantics.SaidBy rules
  typeTag : m.typeTag = none ↔ Rule.said Constraint.listType? rules = []
  keyTag : m.keyTag = none ↔ m.semantics.keys = []
  uniqueTag : m.uniqueTag = none ↔ m.semantics.unique = none
  customTag : m.customTag = none ↔ m.semantics.customUnique = false

theorem gathers_empty : empty.Gathers [] where
  said := ⟨nofun, fun _ => rfl, fun _ => Iff.rfl, List.nodup_nil, rfl, rfl⟩
  typeTag := ⟨fun _ => rfl, fun _ => rfl⟩
  keyTag := ⟨fun _ => rfl, fun _ => rfl⟩
  uniqueTag := ⟨fun _ => rfl, fun _ => rfl⟩
  customTag := ⟨fun _ => rfl, fun _ => rfl⟩

/-- A list type is only taken in if it is the one that was given before. -/
theorem addType_eq_ok {type : ListType} {tag : String} (h : m.addType type tag = .ok m') :
    (m.typeTag = none ∨ m.semantics.listType = type) ∧
      m' = { m with semantics := { m.semantics with listType := type }, typeTag := some tag } := by
  rw [addType] at h
  split at h
  next =>
    split at h
    next hsame =>
      cases h
      exact ⟨.inr hsame, rfl⟩
    next => cases h
  next hnone =>
    cases h
    exact ⟨.inl hnone, rfl⟩

theorem Gathers.addType {type : ListType} {tag : String} (hm : m.Gathers rules)
    (h : m.addType type tag = .ok m') :
    m'.Gathers (rules ++ [Rule.leaf (.listType type) tag]) := by
  obtain ⟨hbefore, rfl⟩ := addType_eq_ok h
  have hsame : ∀ other ∈ Rule.said Constraint.listType? rules, type = other := by
    intro other hother
    rcases hbefore with hnone | hsame
    · rw [hm.typeTag.mp hnone] at hother
      cases hother
    · exact hsame.symm.trans (hm.said.listType other hother)
  obtain ⟨⟨-, -, hkeys, hnodup, hunique, hcustom⟩, -, hkeyTag, huniqueTag, hcustomTag⟩ := hm
  refine ⟨⟨?listType, ?atomic, ?keys, hnodup, ?unique, ?custom⟩, ?typeTag, hkeyTag, huniqueTag,
    hcustomTag⟩
  case listType =>
    intro other hother
    rw [Rule.said_append_leaf, List.mem_append] at hother
    rcases hother with hother | hother
    · exact hsame other hother
    · exact (List.mem_singleton.mp hother).symm
  case atomic => simp
  case keys => simpa using hkeys
  case unique => simpa using hunique
  case custom => simpa using hcustom
  case typeTag => simp

@[simp] theorem addKey_semantics {name tag : String} :
    (m.addKey name tag).semantics = { m.semantics with
      keys :=
        if name ∈ m.semantics.keys then m.semantics.keys else m.semantics.keys ++ [name] } := by
  simp [addKey]

theorem Gathers.addKey {name tag : String} (hm : m.Gathers rules) :
    (m.addKey name tag).Gathers (rules ++ [Rule.leaf (.listMapKey name) tag]) := by
  obtain ⟨⟨htype, hatomic, hkeys, hnodup, hunique, hcustom⟩, htypeTag, -, huniqueTag,
    hcustomTag⟩ := hm
  have hadded : ∀ key, key ∈ (m.addKey name tag).semantics.keys ↔
      key ∈ m.semantics.keys ∨ key = name := by
    intro key
    rw [addKey_semantics]
    split
    next hmem => exact ⟨.inl, fun h => h.elim id fun hsame => hsame ▸ hmem⟩
    next => simp
  have hdistinct : (m.addKey name tag).semantics.keys.Nodup := by
    rw [addKey_semantics]
    split
    next => exact hnodup
    next hmem => simpa using hnodup.concat hmem
  refine ⟨⟨?listType, ?atomic, ?keys, hdistinct, ?unique, ?custom⟩, ?typeTag, ?keyTag, huniqueTag,
    hcustomTag⟩
  case keys =>
    intro key
    rw [hadded, hkeys, Rule.said_append_leaf, List.mem_append]
    exact or_congr Iff.rfl List.mem_singleton.symm
  case keyTag =>
    have hmem : name ∈ (m.addKey name tag).semantics.keys := (hadded name).mpr (.inr rfl)
    exact ⟨nofun, fun hnil => absurd hmem (hnil ▸ List.not_mem_nil)⟩
  case listType => simpa using htype
  case atomic => simpa using hatomic
  case unique => simpa using hunique
  case custom => simpa using hcustom
  case typeTag =>
    have htypes : Rule.said Constraint.listType? (rules ++ [Rule.leaf (.listMapKey name) tag]) =
        Rule.said Constraint.listType? rules := by simp
    rw [htypes]
    exact htypeTag

theorem Gathers.addUnique {mode : UniqueMode} {tag : String} (hm : m.Gathers rules) :
    { m with semantics := { m.semantics with unique := some mode }, uniqueTag := some tag }.Gathers
      (rules ++ [Rule.leaf (.unique mode) tag]) := by
  obtain ⟨⟨htype, hatomic, hkeys, hnodup, -, hcustom⟩, htypeTag, hkeyTag, -, hcustomTag⟩ := hm
  refine ⟨⟨?listType, ?atomic, ?keys, hnodup, ?unique, ?custom⟩, ?typeTag, hkeyTag, ?uniqueTag,
    hcustomTag⟩
  case listType => simpa using htype
  case atomic => simpa using hatomic
  case keys => simpa using hkeys
  case unique => simp
  case custom => simpa using hcustom
  case typeTag => simpa using htypeTag
  case uniqueTag => exact ⟨nofun, nofun⟩

theorem Gathers.addCustom {tag : String} (hm : m.Gathers rules) :
    { m with semantics := { m.semantics with customUnique := true }, customTag := some tag }.Gathers
      (rules ++ [Rule.leaf .customUnique tag]) := by
  obtain ⟨⟨htype, hatomic, hkeys, hnodup, hunique, -⟩, htypeTag, hkeyTag, huniqueTag, -⟩ := hm
  refine ⟨⟨?listType, ?atomic, ?keys, hnodup, ?unique, ?custom⟩, ?typeTag, hkeyTag, huniqueTag,
    ?customTag⟩
  case listType => simpa using htype
  case atomic => simpa using hatomic
  case keys => simpa using hkeys
  case unique => simpa using hunique
  case custom => simp
  case typeTag => simpa using htypeTag
  case customTag => exact ⟨nofun, nofun⟩

/-- A rule that is no constraint on how the list is identified changes nothing that is said. -/
theorem Gathers.addOther (hm : m.Gathers rules)
    (hother : rule.asks Constraint.isListMetadata = false) : m.Gathers (rules ++ [rule]) := by
  obtain ⟨⟨htype, hatomic, hkeys, hnodup, hunique, hcustom⟩, htypeTag, hkeyTag, huniqueTag,
    hcustomTag⟩ := hm
  have htypes : Rule.said Constraint.listType? (rules ++ [rule]) = _ :=
    Rule.said_append_other hother (by rintro ⟨⟩ <;> simp [Constraint.isListMetadata])
  have hnames : Rule.said Constraint.mapKey? (rules ++ [rule]) = _ :=
    Rule.said_append_other hother (by rintro ⟨⟩ <;> simp [Constraint.isListMetadata])
  have hmodes : Rule.said Constraint.uniqueMode? (rules ++ [rule]) = _ :=
    Rule.said_append_other hother (by rintro ⟨⟩ <;> simp [Constraint.isListMetadata])
  have hcustoms : hasConstraint (rules ++ [rule]) Constraint.isCustomUnique = _ :=
    Rule.hasConstraint_append_other hother (by rintro ⟨⟩ <;> simp [Constraint.isListMetadata])
  refine ⟨⟨?type, ?atomic, ?keys, hnodup, ?mode, ?custom⟩, ?typeTag, hkeyTag, huniqueTag,
    hcustomTag⟩
  case type => rwa [htypes]
  case atomic => rwa [htypes]
  case keys => rwa [hnames]
  case mode => rwa [hmodes]
  case custom => rwa [hcustoms]
  case typeTag => rwa [htypes]

/-- The step: what is known after one more rule. -/
theorem Gathers.add (hm : m.Gathers rules) (h : m.add rule = .ok m') :
    m'.Gathers (rules ++ [rule]) := by
  rw [ListMetadata.add.eq_def] at h
  split at h
  next type tag => exact hm.addType h
  next name tag =>
    cases h
    exact hm.addKey
  next mode tag =>
    cases h
    exact hm.addUnique
  next tag =>
    cases h
    exact hm.addCustom
  next htype hkey hunique hcustom =>
    cases h
    refine hm.addOther ?_
    cases rule with
    | leaf constraint tag => cases constraint <;> simp_all [Rule.asks, Constraint.isListMetadata]
    | within | guarded => rfl

/-- The run: what is known after all rules. -/
theorem gathers_of_foldlM (h : rules.foldlM ListMetadata.add .empty = .ok m) : m.Gathers rules :=
  foldlM_keeps Gathers (fun _ _ _ _ hm hadd => hm.add hadd) gathers_empty h

theorem exists_of_tag {tag : Option String} {unsaid : Prop} (h : tag = none ↔ unsaid)
    (hsaid : ¬unsaid) : ∃ text, tag = some text :=
  Option.ne_none_iff_exists'.mp fun hnone => hsaid (h.mp hnone)

/-- Only what does not contradict itself is accepted. -/
theorem Gathers.finish (hm : m.Gathers rules) (h : m.finish = .ok semantics) :
    semantics = m.semantics ∧ semantics.Consistent := by
  rw [ListMetadata.finish] at h
  split at h
  next => cases h
  next hkeyTag =>
    split at h
    next => cases h
    next hkeys =>
      split at h
      next => cases h
      next huniqueTag =>
        split at h
        next => cases h
        next hcustomTag =>
          cases h
          simp only [Option.filter_eq_none_iff] at hkeyTag huniqueTag hcustomTag
          refine ⟨rfl, ⟨⟨?present, ?keyed⟩, hm.said.nodup, ?unique, ?custom⟩⟩
          case present => simpa using hkeys
          case keyed =>
            intro hne
            obtain ⟨tag, htag⟩ := exists_of_tag hm.keyTag hne
            simpa using hkeyTag tag htag
          case unique =>
            intro hsome
            obtain ⟨tag, htag⟩ := exists_of_tag hm.uniqueTag (Option.isSome_iff_ne_none.mp hsome)
            simpa using huniqueTag tag htag
          case custom =>
            intro hcustom
            obtain ⟨tag, htag⟩ := exists_of_tag hm.customTag (ne_false_of_eq_true hcustom)
            simpa using hcustomTag tag htag

end ListMetadata

open ListMetadata in
/-- Accepted semantics are what the rules say and do not contradict themselves. -/
theorem ListSemantics.ofRules_eq_ok {rules : List Rule} {semantics : ListSemantics}
    (h : ListSemantics.ofRules rules = .ok semantics) :
    semantics.SaidBy rules ∧ semantics.Consistent := by
  rw [ListSemantics.ofRules, bind_succeeds_iff] at h
  obtain ⟨m, hrun, hfinish⟩ := h
  have hm := gathers_of_foldlM hrun
  obtain ⟨rfl, hconsistent⟩ := hm.finish hfinish
  exact ⟨hm.said, hconsistent⟩

end TaggedSchema
