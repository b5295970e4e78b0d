import TaggedSchema.Proofs.Rule.Signatures
import TaggedSchema.Proofs.Schema.Places

/-!
# Plans and the tags of other definitions

A plan is made if the rules at its reference and at all places inside can be read, which takes the
type tags of the aliases that are met there. A reference that has a plan against some definitions
has one against definitions with other tags if these can be read, and the same one if the aliases
that it meets lend the same rules.
-/

namespace TaggedSchema

/-- The plan meets the name on the way to one of its values. -/
def Plan.Meets (plan : Plan) (name : String) : Prop :=
  ∃ places part, plan.inside? places = some part ∧ name ∈ part.access.named

namespace Plan

variable {plan inner : Plan} {name : String} {place : Place}

theorem meets_of_named (h : name ∈ plan.access.named) : plan.Meets name :=
  ⟨[], plan, rfl, h⟩

theorem meets_of_at? (hat : plan.at? place = some inner) (h : inner.Meets name) :
    plan.Meets name := by
  obtain ⟨places, part, hpart, hname⟩ := h
  exact ⟨place :: places, part, inside?_cons_eq_some_iff.mpr ⟨inner, hat, hpart⟩, hname⟩

end Plan

namespace Compiler

variable {c c' : Compiler} {r s : RuledRef} {ref : TypeRef} {plan : Plan} {place : Place}
variable {depth : Nat} {here here' : List Rule} {name : String}

/-! ## Which plans are made -/

/-- The rules at the reference are built, and what they say about a list is consistent. -/
def Reads (c : Compiler) (r : RuledRef) : Prop :=
  ∃ resolved rules, c.resolve r.ref = .ok resolved ∧ c.read? r = some rules ∧
    ∀ element, resolved.shape = .slice element →
      ∃ semantics, ListSemantics.ofRules rules = .ok semantics

/-- So they are at all places inside. -/
def ReadsInside (c : Compiler) (r : RuledRef) : Prop :=
  ∀ places s, c.inside? r places = some s → c.Reads s

theorem readsInside_iff :
    c.ReadsInside r ↔ c.Reads r ∧ ∀ place s, c.at? r place = some s → c.ReadsInside s := by
  constructor
  · intro h
    refine ⟨h [] r rfl, fun place s hs places t ht => ?_⟩
    exact h (place :: places) t (inside?_cons_eq_some_iff.mpr ⟨s, hs, ht⟩)
  · rintro ⟨hreads, hinside⟩ places s hs
    cases places with
    | nil =>
      cases hs
      exact hreads
    | cons place places =>
      obtain ⟨t, ht, hs⟩ := inside?_cons_eq_some_iff.mp hs
      exact hinside place t ht places s hs

theorem at?_iff {resolved : Resolved} {rules : List Rule}
    (hresolve : c.resolve r.ref = .ok resolved) (hread : c.read? r = some rules) :
    c.at? r place = some s ↔ ∃ inner, resolved.shape.at? place = some inner ∧
      s = ⟨inner, rulesWithin place.isLike rules⟩ := by
  rw [at?_eq_some_iff, hresolve, hread]
  constructor
  · rintro ⟨_, _, inner, ⟨⟩, ⟨⟩, hat, rfl⟩
    exact ⟨inner, hat, rfl⟩
  · rintro ⟨inner, hat, rfl⟩
    exact ⟨_, _, inner, rfl, rfl, hat, rfl⟩

/-- The step: a plan is made if the rules at the reference are read and a plan is made for all that
lies inside. -/
theorem exists_planWithin_succ_iff :
    (∃ plan, c.planWithin (depth + 1) ref here = .ok plan) ↔
      c.Reads ⟨ref, here⟩ ∧ ∀ place s, c.at? ⟨ref, here⟩ place = some s →
        ∃ plan, c.planWithin depth s.ref s.rules = .ok plan := by
  constructor
  · rintro ⟨plan, h⟩
    simp only [planWithin, bind_succeeds_iff] at h
    obtain ⟨resolved, hresolve, inherited, hinherited, h⟩ := h
    have hread : c.read? ⟨ref, here⟩ = some (here ++ inherited.flatten) :=
      read?_eq_some_iff.mpr ⟨resolved, inherited, hresolve, hinherited, rfl⟩
    refine ⟨⟨resolved, _, hresolve, hread, fun element hshape => ?_⟩, fun place s hs => ?_⟩
    · simp only [hshape, bind_succeeds_iff] at h
      obtain ⟨semantics, hsemantics, -⟩ := h
      exact ⟨semantics, hsemantics⟩
    · obtain ⟨inner, hat, rfl⟩ := (at?_iff hresolve hread).mp hs
      generalize resolved.shape = shape at h hat
      cases shape with
      | scalar | struct => cases hat
      | slice element =>
        simp only [bind_succeeds_iff] at h
        obtain ⟨-, -, plan, hplan, -⟩ := h
        cases place with
        | eachVal =>
          cases hat
          exact ⟨plan, hplan⟩
        | _ => cases hat
      | map key value =>
        simp only [bind_succeeds_iff] at h
        obtain ⟨keyPlan, hkey, valuePlan, hvalue, -⟩ := h
        cases place with
        | eachKey =>
          cases hat
          exact ⟨keyPlan, hkey⟩
        | eachVal =>
          cases hat
          exact ⟨valuePlan, hvalue⟩
        | _ => cases hat
  · rintro ⟨⟨resolved, rules, hresolve, hread, hlist⟩, hinside⟩
    obtain ⟨resolved', inherited, hresolve', hinherited, rfl⟩ := read?_eq_some_iff.mp hread
    cases hresolve.symm.trans hresolve'
    have hpart {place : Place} {inner : TypeRef} (hat : resolved.shape.at? place = some inner) :
        ∃ plan, c.planWithin depth inner
          (rulesWithin place.isLike (here ++ inherited.flatten)) = .ok plan :=
      hinside place _ ((at?_iff hresolve hread).mpr ⟨inner, hat, rfl⟩)
    simp only [planWithin, bind_succeeds_iff]
    suffices hshape : ∃ plan, _ from by
      obtain ⟨plan, hplan⟩ := hshape
      exact ⟨plan, resolved, hresolve, inherited, hinherited, hplan⟩
    generalize resolved.shape = shape at hlist hpart
    cases shape with
    | scalar | struct => exact ⟨_, rfl⟩
    | slice element =>
      obtain ⟨semantics, hsemantics⟩ := hlist element rfl
      obtain ⟨plan, hplan⟩ := @hpart .eachVal element rfl
      simp only [bind_succeeds_iff]
      exact ⟨_, semantics, hsemantics, plan, hplan, rfl⟩
    | map key value =>
      obtain ⟨keyPlan, hkey⟩ := @hpart .eachKey key rfl
      obtain ⟨valuePlan, hvalue⟩ := @hpart .eachVal value rfl
      simp only [bind_succeeds_iff]
      exact ⟨_, keyPlan, hkey, valuePlan, hvalue, rfl⟩

/-! ## Plans against definitions that differ in tags -/

/-- A reference that has a plan has one against definitions with other tags if the rules that are
read for it and inside it make sense there. -/
theorem Alike.exists_planWithin_iff (h : c.Alike c')
    (hplan : c'.planWithin depth ref here' = .ok plan) :
    (∃ plan, c.planWithin depth ref here = .ok plan) ↔ c.ReadsInside ⟨ref, here⟩ := by
  induction depth generalizing ref here here' plan with
  | zero => cases hplan
  | succ depth ih =>
    obtain ⟨⟨resolved', rules', hresolve', hread', -⟩, hinside'⟩ :=
      exists_planWithin_succ_iff.mp ⟨plan, hplan⟩
    rw [exists_planWithin_succ_iff, readsInside_iff]
    refine and_congr_right fun hreads => forall_congr' fun place => forall_congr' fun s => ?_
    refine imp_congr_right fun hs => ?_
    -- What lies inside is the same, so there is a plan of it with the rules there.
    obtain ⟨resolved, rules, hresolve, hread, -⟩ := hreads
    obtain ⟨inner, hat, rfl⟩ := (at?_iff hresolve hread).mp hs
    cases ((h.resolve ref).symm.trans hresolve').symm.trans hresolve
    obtain ⟨plan', hplan'⟩ := hinside' place _ ((at?_iff hresolve' hread').mpr ⟨inner, hat, rfl⟩)
    exact ih hplan'

/-- The plan is the same if the names that it meets lend the same rules. -/
theorem Alike.planWithin (h : c.Alike c') (hplan : c'.planWithin depth ref here = .ok plan)
    (hsame : ∀ name, plan.Meets name → c'.aliasRules name = c.aliasRules name) :
    c.planWithin depth ref here = .ok plan := by
  induction depth generalizing ref here plan with
  | zero => cases hplan
  | succ depth ih =>
    simp only [Compiler.planWithin, bind_succeeds_iff] at hplan ⊢
    obtain ⟨resolved, hresolve, inherited, hinherited, hplan⟩ := hplan
    have hlent (hnamed : plan.access.named = resolved.named) :
        resolved.named.mapM c.aliasRules = .ok inherited := by
      have hall : ∀ name ∈ resolved.named, c'.aliasRules name = c.aliasRules name :=
        fun name hname => hsame name (Plan.meets_of_named (hnamed ▸ hname))
      rw [mapM_succeeds_iff] at hinherited ⊢
      refine ((List.forall₂_and_left _ _).mpr ⟨hall, hinherited⟩).imp ?_
      exact fun name lent hlent => hlent.1.symm.trans hlent.2
    have hinside {inner : Plan} (place : Place) (hat : plan.at? place = some inner) :
        ∀ name, inner.Meets name → c'.aliasRules name = c.aliasRules name :=
      fun name hname => hsame name (Plan.meets_of_at? hat hname)
    refine ⟨resolved, (h.resolve ref).symm.trans hresolve, inherited, ?_⟩
    split at hplan
    next =>
      cases hplan
      exact ⟨hlent rfl, rfl⟩
    next =>
      cases hplan
      exact ⟨hlent rfl, rfl⟩
    next element hshape =>
      simp only [bind_succeeds_iff, pure_succeeds_iff] at hplan ⊢
      obtain ⟨semantics, hsemantics, inner, hinner, rfl⟩ := hplan
      exact ⟨hlent rfl, semantics, hsemantics, inner, ih hinner (hinside .eachVal rfl), rfl⟩
    next key value hshape =>
      simp only [bind_succeeds_iff, pure_succeeds_iff] at hplan ⊢
      obtain ⟨keyPlan, hkey, valuePlan, hvalue, rfl⟩ := hplan
      exact ⟨hlent rfl, keyPlan, ih hkey (hinside .eachKey rfl), valuePlan,
        ih hvalue (hinside .eachVal rfl), rfl⟩

/-- A name that is met where rules are read lends some. -/
theorem Alike.lends_of_meets (h : c.Alike c') (hplan : c'.Plans ref here' plan)
    (hreads : c.ReadsInside ⟨ref, here⟩) (hmeets : plan.Meets name) :
    ∃ lent, c.aliasRules name = .ok lent := by
  obtain ⟨places, part, hpart, hname⟩ := hmeets
  induction places generalizing ref here here' plan with
  | nil =>
    cases hpart
    obtain ⟨resolved', rules', hresolve', -, hplans⟩ := IsPlanOf.read (r := ⟨ref, here'⟩) hplan
    obtain ⟨⟨resolved, rules, hresolve, hread, -⟩, -⟩ := readsInside_iff.mp hreads
    cases ((h.resolve ref).symm.trans hresolve').symm.trans hresolve
    obtain ⟨_, inherited, hresolve, hinherited, -⟩ := read?_eq_some_iff.mp hread
    cases ((h.resolve ref).symm.trans hresolve').symm.trans hresolve
    rw [hplans.access_eq] at hname
    obtain ⟨lent, -, hlent⟩ := exists_output_of_mapM hinherited hname
    exact ⟨lent, hlent⟩
  | cons place places ih =>
    obtain ⟨next, hnext, hpart⟩ := Plan.inside?_cons_eq_some_iff.mp hpart
    obtain ⟨t, ht, hplan⟩ := IsPlanOf.step (r := ⟨ref, here'⟩) hplan hnext
    obtain ⟨resolved', rules', inner, hresolve', hread', hat, rfl⟩ := at?_eq_some_iff.mp ht
    obtain ⟨⟨resolved, rules, hresolve, hread, -⟩, hinside⟩ := readsInside_iff.mp hreads
    cases ((h.resolve ref).symm.trans hresolve').symm.trans hresolve
    exact ih hplan (hinside place _ ((at?_iff hresolve hread).mpr ⟨inner, hat, rfl⟩)) hpart

theorem expansion_untagged (type : TypeDef) : expansion type.untagged = expansion type := by
  rw [expansion, expansion, TypeDef.untagged]
  cases type.body <;> rfl

theorem Alike.depthBound (h : c.Alike c') (ref : TypeRef) :
    c'.depthBound ref = c.depthBound ref := by
  have hbound (types : Universe) (start : Nat) :
      types.entries.foldr (fun type bound => expansion type + bound) start =
        (types.entries.map TypeDef.untagged).foldr (fun type bound => expansion type + bound)
          start := by
    simp only [List.foldr_map, expansion_untagged]
  rw [Compiler.depthBound, Compiler.depthBound, hbound, h.types.entries, ← hbound]

theorem Alike.exists_plan_iff (h : c.Alike c') (hplan : c'.plan ref here = .ok plan) :
    (∃ plan, c.plan ref here = .ok plan) ↔ c.ReadsInside ⟨ref, here⟩ := by
  rw [Compiler.plan, h.depthBound] at hplan
  exact h.exists_planWithin_iff hplan

theorem Alike.plan_eq (h : c.Alike c') (hplan : c'.plan ref here = .ok plan)
    (hsame : ∀ name, plan.Meets name → c'.aliasRules name = c.aliasRules name) :
    c.plan ref here = .ok plan := by
  rw [Compiler.plan, h.depthBound] at hplan
  exact h.planWithin hplan hsame

end Compiler

end TaggedSchema
