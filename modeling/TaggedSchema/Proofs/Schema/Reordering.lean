import TaggedSchema.Proofs.Rule.Typing
import TaggedSchema.Proofs.Schema.Signatures

/-!
# Plans from rules in another order

Rules say the same about a list in every order, but for the mode of uniqueness, of which the last
one counts. With another mode the keys of the list do not fit any more, so that rules in another
order have a plan if and only if the same mode is the last one at every list, and then it is the
same plan but for the order of keys.
-/

namespace TaggedSchema

variable {rules rules' : List Rule}

theorem perm_eq_nil_iff {α : Type} {as bs : List α} (hperm : bs.Perm as) : bs = [] ↔ as = [] := by
  rw [← List.perm_nil, ← List.perm_nil, hperm.congr_left]

namespace Rule

/-- The mode of uniqueness that counts, which is the last one. -/
def lastMode? (rules : List Rule) : Option UniqueMode :=
  (said Constraint.uniqueMode? rules).getLast?

theorem said_perm {α : Type} (facet : Constraint → Option α) (hperm : rules'.Perm rules) :
    (said facet rules').Perm (said facet rules) :=
  (hperm.filterMap constraint?).filterMap facet

theorem said_subset {α : Type} (facet : Constraint → Option α) (hsubset : rules ⊆ rules') :
    said facet rules ⊆ said facet rules' := by
  intro value hvalue
  obtain ⟨constraint, tag, hrule, hsaid⟩ := mem_said_iff.mp hvalue
  exact mem_said_iff.mpr ⟨constraint, tag, hsubset hrule, hsaid⟩

/-- If all modes are the same, so is the last one in every order. -/
theorem lastMode?_perm (hperm : rules'.Perm rules)
    (hagree : ∀ mode ∈ said Constraint.uniqueMode? rules,
      ∀ mode' ∈ said Constraint.uniqueMode? rules, mode' = mode) :
    lastMode? rules' = lastMode? rules := by
  have hsaid := said_perm Constraint.uniqueMode? hperm
  cases hmode : lastMode? rules with
  | none =>
    rw [lastMode?, List.getLast?_eq_none_iff] at hmode ⊢
    exact (perm_eq_nil_iff hsaid).mpr hmode
  | some mode =>
    have hmem := List.mem_of_getLast? hmode
    obtain ⟨mode', hmode'⟩ := List.getLast?_isSome.mpr (List.ne_nil_of_mem (hsaid.mem_iff.mpr hmem))
      |> Option.isSome_iff_exists.mp
    rw [lastMode?, hmode', hagree mode hmem mode' (hsaid.mem_iff.mp (List.mem_of_getLast? hmode'))]

end Rule

/-! ## Lists -/

namespace ListSemantics

variable {semantics semantics' : ListSemantics}

/-- The semantics are the same but for the order of keys. -/
structure Reorders (semantics semantics' : ListSemantics) : Prop where
  listType : semantics'.listType = semantics.listType
  keys : semantics'.keys.Perm semantics.keys
  unique : semantics'.unique = semantics.unique
  customUnique : semantics'.customUnique = semantics.customUnique

theorem Reorders.identity (h : semantics.Reorders semantics') :
    semantics'.identity = semantics.identity := by
  rw [ListSemantics.identity, ListSemantics.identity, h.listType, h.unique]

theorem Reorders.consistent (h : semantics.Reorders semantics')
    (hconsistent : semantics.Consistent) : semantics'.Consistent where
  keys := by
    rw [h.identity, hconsistent.keys, Ne, Ne, perm_eq_nil_iff h.keys]
  nodup := h.keys.nodup_iff.mpr hconsistent.nodup
  unique := by
    rw [h.unique, h.listType]
    exact hconsistent.unique
  customUnique := by
    rw [h.customUnique, h.identity]
    exact hconsistent.customUnique

namespace SaidBy

variable (h : semantics.SaidBy rules)

include h

theorem listType_perm (h' : semantics'.SaidBy rules') (hperm : rules'.Perm rules) :
    semantics'.listType = semantics.listType := by
  have hsaid := Rule.said_perm Constraint.listType? hperm
  cases htypes : Rule.said Constraint.listType? rules with
  | nil =>
    rw [htypes, List.perm_nil] at hsaid
    rw [h.atomic htypes, h'.atomic hsaid]
  | cons type types =>
    have hmem : type ∈ Rule.said Constraint.listType? rules := htypes ▸ List.mem_cons_self
    rw [h.listType type hmem, h'.listType type (hsaid.mem_iff.mpr hmem)]

theorem keys_perm (h' : semantics'.SaidBy rules') (hperm : rules'.Perm rules) :
    semantics'.keys.Perm semantics.keys := by
  rw [List.perm_ext_iff_of_nodup h'.nodup h.nodup]
  intro name
  rw [h.keys, h'.keys, (Rule.said_perm Constraint.mapKey? hperm).mem_iff]

theorem reorders (h' : semantics'.SaidBy rules') (hperm : rules'.Perm rules)
    (hmode : Rule.lastMode? rules' = Rule.lastMode? rules) : semantics.Reorders semantics' where
  listType := h.listType_perm h' hperm
  keys := h.keys_perm h' hperm
  unique := h'.unique.trans (hmode.trans h.unique.symm)
  customUnique := by
    rw [h.customUnique, h'.customUnique, hasConstraint, hperm.any_eq, hasConstraint]

/-- Rules in another order say the same unless another mode of uniqueness is the last one. -/
theorem perm (hperm : rules'.Perm rules)
    (hmode : Rule.lastMode? rules' = Rule.lastMode? rules) : semantics.SaidBy rules' where
  listType type htype := h.listType type ((Rule.said_perm _ hperm).mem_iff.mp htype)
  atomic hnone := by
    have hsaid := Rule.said_perm Constraint.listType? hperm
    rw [hnone, List.nil_perm] at hsaid
    exact h.atomic hsaid
  keys name := by rw [h.keys, (Rule.said_perm Constraint.mapKey? hperm).mem_iff]
  nodup := h.nodup
  unique := h.unique.trans hmode.symm
  customUnique := by rw [h.customUnique, hasConstraint, ← hperm.any_eq, hasConstraint]

end SaidBy

theorem identity_eq_keys_iff (hatomic : semantics.listType = .atomic) :
    semantics.identity = .keys ↔ semantics.unique = some .map := by
  rw [identity, hatomic]
  cases semantics.unique with
  | none => simp
  | some mode => cases mode <;> simp

/-- With the same keys and the same list type, only one mode of uniqueness is consistent. -/
theorem SaidBy.lastMode_eq (h : semantics.SaidBy rules) (h' : semantics'.SaidBy rules')
    (hperm : rules'.Perm rules) (hconsistent : semantics.Consistent)
    (hconsistent' : semantics'.Consistent) : Rule.lastMode? rules' = Rule.lastMode? rules := by
  have hkeys : semantics'.identity = .keys ↔ semantics.identity = .keys := by
    rw [hconsistent.keys, hconsistent'.keys, Ne, Ne, perm_eq_nil_iff (h.keys_perm h' hperm)]
  have hnone : semantics'.unique = none ↔ semantics.unique = none := by
    rw [h.unique, h'.unique, List.getLast?_eq_none_iff, List.getLast?_eq_none_iff,
      perm_eq_nil_iff (Rule.said_perm Constraint.uniqueMode? hperm)]
  change (Rule.said _ rules').getLast? = (Rule.said _ rules).getLast?
  rw [← h.unique, ← h'.unique]
  cases hmode : semantics.unique with
  | none => exact hnone.mpr hmode
  | some mode =>
    have hatomic := hconsistent.unique (by rw [hmode]; rfl)
    have hatomic' := (h.listType_perm h' hperm).trans hatomic
    obtain ⟨mode', hmode'⟩ := Option.ne_none_iff_exists'.mp fun hnone' =>
      Option.some_ne_none mode (hmode.symm.trans (hnone.mp hnone'))
    rw [identity_eq_keys_iff hatomic, identity_eq_keys_iff hatomic', hmode, hmode'] at hkeys
    rw [hmode']
    cases mode <;> cases mode' <;> simp at hkeys ⊢

end ListSemantics

namespace ListMetadata

variable {m : ListMetadata} {semantics : ListSemantics} {rule : Rule} {taken : List Rule}

theorem said_of_tag {tag : Option String} {text : String} {unsaid : Prop} (h : tag = none ↔ unsaid)
    (htag : tag = some text) : ¬unsaid :=
  fun hunsaid => Option.some_ne_none text (htag.symm.trans (h.mpr hunsaid))

/-- Rules that agree on the list type are taken in. -/
theorem Gathers.exists_add (hm : m.Gathers taken)
    (hsaid : semantics.SaidBy (taken ++ rule :: rules)) : ∃ m', m.add rule = .ok m' := by
  rw [ListMetadata.add.eq_def]
  split
  next type tag =>
    rw [ListMetadata.addType]
    split
    next previous hprevious =>
      obtain ⟨other, hother⟩ := List.exists_mem_of_ne_nil _ (said_of_tag hm.typeTag hprevious)
      have hsame : m.semantics.listType = type := calc
        m.semantics.listType = other := hm.said.listType other hother
        _ = semantics.listType :=
          (hsaid.listType other (Rule.said_subset _ (List.subset_append_left _ _) hother)).symm
        _ = type := hsaid.listType type
          (Rule.mem_said_iff.mpr ⟨_, tag, List.mem_append_right _ List.mem_cons_self, rfl⟩)
      exact ⟨_, if_pos hsame⟩
    next => exact ⟨_, rfl⟩
  all_goals exact ⟨_, rfl⟩

theorem Gathers.exists_foldlM (hm : m.Gathers taken)
    (hsaid : semantics.SaidBy (taken ++ rules)) :
    ∃ m', rules.foldlM ListMetadata.add m = .ok m' := by
  induction rules generalizing m taken with
  | nil => exact ⟨m, rfl⟩
  | cons rule rules ih =>
    obtain ⟨next, hnext⟩ := hm.exists_add hsaid
    rw [List.append_cons] at hsaid
    obtain ⟨m', hrun⟩ := ih (hm.add hnext) hsaid
    exact ⟨m', by rw [List.foldlM_cons, bind_succeeds_iff]; exact ⟨next, hnext, hrun⟩⟩

/-- What is consistent is accepted. -/
theorem Gathers.finish_of_consistent (hm : m.Gathers rules)
    (hconsistent : m.semantics.Consistent) : m.finish = .ok m.semantics := by
  rw [ListMetadata.finish]
  split
  next tag hkeyTag =>
    obtain ⟨htag, hunkeyed⟩ := Option.filter_eq_some_iff.mp hkeyTag
    simp [hconsistent.keys.mpr (said_of_tag hm.keyTag htag)] at hunkeyed
  next =>
    split
    next hkeyed => exact absurd (List.isEmpty_iff.mp hkeyed.2) (hconsistent.keys.mp hkeyed.1)
    next =>
      split
      next tag huniqueTag =>
        obtain ⟨htag, hlistType⟩ := Option.filter_eq_some_iff.mp huniqueTag
        have hunique := Option.isSome_iff_ne_none.mpr (said_of_tag hm.uniqueTag htag)
        simp [hconsistent.unique hunique] at hlistType
      next =>
        split
        next tag hcustomTag =>
          obtain ⟨htag, hpositional⟩ := Option.filter_eq_some_iff.mp hcustomTag
          have hcustom := eq_true_of_ne_false (said_of_tag hm.customTag htag)
          exact absurd (beq_iff_eq.mp hpositional) (hconsistent.customUnique hcustom)
        next => rfl

end ListMetadata

namespace ListSemantics

variable {semantics semantics' : ListSemantics}

open ListMetadata in
/-- Rules have semantics if they say some that are consistent. -/
theorem exists_ofRules_iff :
    (∃ semantics, ofRules rules = .ok semantics) ↔
      ∃ semantics : ListSemantics, semantics.SaidBy rules ∧ semantics.Consistent := by
  constructor
  · rintro ⟨semantics, h⟩
    exact ⟨semantics, ofRules_eq_ok h⟩
  · rintro ⟨semantics, hsaid, hconsistent⟩
    obtain ⟨m, hrun⟩ : ∃ m, rules.foldlM ListMetadata.add .empty = .ok m :=
      gathers_empty.exists_foldlM hsaid
    have hm := gathers_of_foldlM hrun
    have hfinish := hm.finish_of_consistent
      ((hsaid.reorders hm.said (.refl rules) rfl).consistent hconsistent)
    exact ⟨m.semantics, by rw [ofRules, bind_succeeds_iff]; exact ⟨m, hrun, hfinish⟩⟩

/-- In another order rules have semantics if the same mode of uniqueness is the last one. -/
theorem exists_ofRules_perm_iff (hperm : rules'.Perm rules) (h : ofRules rules = .ok semantics) :
    (∃ semantics', ofRules rules' = .ok semantics') ↔
      Rule.lastMode? rules' = Rule.lastMode? rules := by
  obtain ⟨hsaid, hconsistent⟩ := ofRules_eq_ok h
  constructor
  · rintro ⟨semantics', h'⟩
    obtain ⟨hsaid', hconsistent'⟩ := ofRules_eq_ok h'
    exact hsaid.lastMode_eq hsaid' hperm hconsistent hconsistent'
  · intro hmode
    exact exists_ofRules_iff.mpr ⟨semantics, hsaid.perm hperm hmode, hconsistent⟩

theorem ofRules_reorders (hperm : rules'.Perm rules) (h : ofRules rules = .ok semantics)
    (h' : ofRules rules' = .ok semantics') : semantics.Reorders semantics' :=
  (ofRules_eq_ok h).1.reorders (ofRules_eq_ok h').1 hperm
    ((exists_ofRules_perm_iff hperm h).mp ⟨semantics', h'⟩)

end ListSemantics

/-! ## References -/

/-- The same reference, at which the rules stand in another order. -/
structure RuledRef.Reorders (r r' : RuledRef) : Prop where
  ref : r'.ref = r.ref
  rules : r'.rules.Perm r.rules

theorem RuledRef.Reorders.symm {r r' : RuledRef} (h : r.Reorders r') : r'.Reorders r :=
  ⟨h.ref.symm, h.rules.symm⟩

namespace Compiler

variable {c : Compiler} {r r' s : RuledRef} {place : Place} {places : List Place}

section

variable (h : r.Reorders r')

include h

theorem exists_read?_perm (hread : c.read? r = some rules) :
    ∃ rules', c.read? r' = some rules' ∧ rules'.Perm rules := by
  obtain ⟨resolved, inherited, hresolve, hinherited, rfl⟩ := read?_eq_some_iff.mp hread
  rw [← h.ref] at hresolve
  exact ⟨_, read?_eq_some_iff.mpr ⟨resolved, inherited, hresolve, hinherited, rfl⟩,
    h.rules.append_right _⟩

/-- The step: inside there are the same references, with the rules there in another order. -/
theorem exists_at?_perm (hstep : c.at? r place = some s) :
    ∃ s', c.at? r' place = some s' ∧ s.Reorders s' := by
  obtain ⟨resolved, rules, ref, hresolve, hread, hat, rfl⟩ := at?_eq_some_iff.mp hstep
  obtain ⟨rules', hread', hperm⟩ := exists_read?_perm h hread
  rw [← h.ref] at hresolve
  exact ⟨_, at?_eq_some_iff.mpr ⟨resolved, rules', ref, hresolve, hread', hat, rfl⟩, rfl,
    hperm.filterMap _⟩

/-- The run: so it is at every depth. -/
theorem exists_inside?_perm (hinside : c.inside? r places = some s) :
    ∃ s', c.inside? r' places = some s' ∧ s.Reorders s' := by
  induction places generalizing r r' with
  | nil =>
    cases hinside
    exact ⟨r', rfl, h⟩
  | cons place places ih =>
    obtain ⟨t, ht, hinside⟩ := inside?_cons_eq_some_iff.mp hinside
    obtain ⟨t', ht', hreorders⟩ := exists_at?_perm h ht
    obtain ⟨s', hs', hreorders⟩ := ih hreorders hinside
    exact ⟨s', inside?_cons_eq_some_iff.mpr ⟨t', ht', hs'⟩, hreorders⟩

/-- Rules of a list are read in another order unless another mode of uniqueness is the last one. -/
theorem reads_perm_iff (hreads : c.Reads r) :
    c.Reads r' ↔ (c.types.IsList r.ref → ∀ rules rules', c.read? r = some rules →
      c.read? r' = some rules' → Rule.lastMode? rules' = Rule.lastMode? rules) := by
  obtain ⟨resolved, rules, hresolve, hread, hmade⟩ := hreads
  obtain ⟨rules', hread', hperm⟩ := exists_read?_perm h hread
  have hresolve' : c.resolve r'.ref = .ok resolved := h.ref ▸ hresolve
  constructor
  · rintro ⟨_, _, hsame, hsame', hmade'⟩ ⟨element, _, hlist, hshape⟩ _ _ hrules hrules'
    cases hread.symm.trans hrules
    cases hread'.symm.trans hrules'
    cases hread'.symm.trans hsame'
    cases hresolve'.symm.trans hsame
    cases (mapError_succeeds_iff.mp hresolve).symm.trans hlist
    obtain ⟨semantics, hsemantics⟩ := hmade element hshape
    exact (ListSemantics.exists_ofRules_perm_iff hperm hsemantics).mp (hmade' element hshape)
  · intro hmodes
    refine ⟨resolved, rules', hresolve', hread', fun element hshape => ?_⟩
    obtain ⟨semantics, hsemantics⟩ := hmade element hshape
    exact (ListSemantics.exists_ofRules_perm_iff hperm hsemantics).mpr
      (hmodes ⟨element, hasShape_of_resolve hresolve hshape⟩ rules rules' hread hread')

end

/-- At every list in the reference, the same mode of uniqueness is the last one of both. -/
def SameModes (c : Compiler) (r r' : RuledRef) : Prop :=
  ∀ places s s' rules rules', c.inside? r places = some s → c.inside? r' places = some s' →
    c.types.IsList s.ref → c.read? s = some rules → c.read? s' = some rules' →
      Rule.lastMode? rules' = Rule.lastMode? rules

theorem SameModes.symm (h : r.Reorders r') (hmodes : c.SameModes r r') : c.SameModes r' r := by
  intro places s' s rules' rules hs' hs hlist hread' hread
  obtain ⟨_, hsame, hreorders⟩ := exists_inside?_perm h hs
  cases hs'.symm.trans hsame
  rw [hreorders.ref] at hlist
  exact (hmodes places s s' rules rules' hs hs' hlist hread hread').symm

/-- If at no list two different modes are said, the order makes no difference. -/
theorem sameModes_of_agree (h : r.Reorders r')
    (hagree : ∀ places s rules, c.inside? r places = some s → c.read? s = some rules →
      ∀ mode ∈ Rule.said Constraint.uniqueMode? rules,
        ∀ mode' ∈ Rule.said Constraint.uniqueMode? rules, mode' = mode) :
    c.SameModes r r' := by
  intro places s s' rules rules' hs hs' _ hread hread'
  obtain ⟨_, hsame, hreorders⟩ := exists_inside?_perm h hs
  cases hs'.symm.trans hsame
  obtain ⟨_, hsame, hperm⟩ := exists_read?_perm hreorders hread
  cases hread'.symm.trans hsame
  exact Rule.lastMode?_perm hperm (hagree places s rules hs hread)

theorem readsInside_perm_iff (h : r.Reorders r') (hreads : c.ReadsInside r) :
    c.ReadsInside r' ↔ c.SameModes r r' := by
  constructor
  · intro hreads' places s s' rules rules' hs hs' hlist hread hread'
    obtain ⟨_, hsame, hreorders⟩ := exists_inside?_perm h hs
    cases hs'.symm.trans hsame
    exact (reads_perm_iff hreorders (hreads places s hs)).mp (hreads' places s' hs') hlist
      rules rules' hread hread'
  · intro hmodes places s' hs'
    obtain ⟨s, hs, hreorders⟩ := exists_inside?_perm h.symm hs'
    exact (reads_perm_iff hreorders.symm (hreads places s hs)).mpr
      fun hlist rules rules' => hmodes places s s' rules rules' hs hs' hlist

/-! ## Plans -/

/-- A reference has a plan with its rules in another order unless a mode of uniqueness is another
one. -/
theorem exists_plan_perm_iff {ref : TypeRef} {plan : Plan} (hperm : rules'.Perm rules)
    (hplan : c.plan ref rules = .ok plan) :
    (∃ plan', c.plan ref rules' = .ok plan') ↔ c.SameModes ⟨ref, rules⟩ ⟨ref, rules'⟩ := by
  have halike : c.Alike c := ⟨rfl, ⟨rfl⟩⟩
  have hreorders : RuledRef.Reorders ⟨ref, rules⟩ ⟨ref, rules'⟩ := ⟨rfl, hperm⟩
  have hreads := (halike.exists_plan_iff hplan).mp ⟨plan, hplan⟩
  rw [← readsInside_perm_iff hreorders hreads]
  exact halike.exists_planWithin_iff hplan

section

variable {plan plan' : Plan}

theorem IsPlanOf.plansAs_reorder (h : c.IsPlanOf r plan) (h' : c.IsPlanOf r' plan')
    (hreorders : r.Reorders r') :
    ∃ access rules rules' shape, c.PlansAs access rules shape plan ∧
      c.PlansAs access rules' shape plan' ∧ rules'.Perm rules := by
  obtain ⟨resolved, rules, hresolve, hread, hplans⟩ := h.read
  obtain ⟨_, _, hresolve', hread', hplans'⟩ := h'.read
  rw [hreorders.ref] at hresolve'
  cases hresolve.symm.trans hresolve'
  obtain ⟨_, hsame, hperm⟩ := exists_read?_perm hreorders hread
  cases hread'.symm.trans hsame
  exact ⟨_, _, _, _, hplans, hplans', hperm⟩

/-- The lists are the same but for the order of keys. The induction is on the plan. -/
theorem IsPlanOf.lists_reorder (h : c.IsPlanOf r plan) (h' : c.IsPlanOf r' plan')
    (hreorders : r.Reorders r') :
    List.Forall₂ ListSemantics.Reorders plan.lists plan'.lists := by
  induction plan generalizing r r' plan' with
  | scalar | struct =>
    obtain ⟨_, _, _, _, hplans, hplans', -⟩ := h.plansAs_reorder h' hreorders
    cases hplans
    cases hplans'
    exact .nil
  | list access element semantics ih =>
    obtain ⟨_, _, _, _, hplans, hplans', hperm⟩ := h.plansAs_reorder h' hreorders
    cases hplans with
    | @slice ref _ _ hsemantics hinner =>
      cases hplans' with
      | slice hsemantics' hinner' =>
        exact .cons (ListSemantics.ofRules_reorders hperm hsemantics hsemantics')
          (@ih ⟨ref, _⟩ ⟨ref, _⟩ _ hinner hinner' ⟨rfl, hperm.filterMap _⟩)
  | map access key value ihKey ihValue =>
    obtain ⟨_, _, _, _, hplans, hplans', hperm⟩ := h.plansAs_reorder h' hreorders
    cases hplans with
    | @map ref ref' _ _ hkey hvalue =>
      cases hplans' with
      | map hkey' hvalue' =>
        exact List.rel_append (@ihKey ⟨ref, _⟩ ⟨ref, _⟩ _ hkey hkey' ⟨rfl, hperm.filterMap _⟩)
          (@ihValue ⟨ref', _⟩ ⟨ref', _⟩ _ hvalue hvalue' ⟨rfl, hperm.filterMap _⟩)

end

end Compiler

end TaggedSchema
