import TaggedSchema.Proofs.Tag.Reading
import TaggedSchema.Proofs.Results
import TaggedSchema.Rule.Build

/-!
# Tags in other scopes

The same text reads as the same tag in every scope, up to the scope that the tag keeps. No rule
depends on the scope that a tag keeps.
-/

namespace TaggedSchema

namespace Tag

/-- The tag as it is read in another scope. -/
def withScope (scope : Scope) : Tag → Tag
  | bare head => bare { head with scope }
  | valued head value => valued { head with scope } value
  | composed head inner => composed { head with scope } (inner.withScope scope)

theorem Spells.withScope {scope : Scope} {text : List Char} {tag : Tag}
    (h : Spells scope text tag) (scope' : Scope) : Spells scope' text (tag.withScope scope') := by
  have hinScope {text behind : List Char} {head : Head} (h : SpellsHead scope text behind head) :
      SpellsHead scope' text behind { head with scope := scope' } := by
    cases h with
    | mk hplus hname harguments => exact .mk hplus hname harguments
  induction h with
  | bare hbefore hhead hafter => exact .bare hbefore (hinScope hhead) hafter
  | composed hbefore hgap hhead hinner ih => exact .composed hbefore hgap (hinScope hhead) ih
  | string hbefore hgap hafter hhead hstring =>
    exact .string hbefore hgap hafter (hinScope hhead) hstring
  | text hbefore hgap hblank hplus hquote hbacktick hhead =>
    exact .text hbefore hgap hblank hplus hquote hbacktick (hinScope hhead)

theorem parse_withScope {scope : Scope} {input : String} {tag : Tag}
    (h : parse scope input = .ok tag) (scope' : Scope) :
    parse scope' input = .ok (tag.withScope scope') := by
  rw [parse_succeeds_iff] at h ⊢
  exact read_complete ((read_sound h).withScope scope')

theorem parseLines_withScope {scope : Scope} {lines : List String} {tags : List Tag}
    (h : parseLines scope lines = .ok tags) (scope' : Scope) :
    parseLines scope' lines = .ok (tags.map (withScope scope')) := by
  rw [parseLines, mapM_succeeds_iff] at h ⊢
  exact List.forall₂_map_right_iff.mpr (h.imp fun _ _ hparse => parse_withScope hparse scope')

theorem parseLines_append_iff {scope : Scope} {first second : List String} {tags : List Tag} :
    parseLines scope (first ++ second) = .ok tags ↔
      ∃ tags₁ tags₂, parseLines scope first = .ok tags₁ ∧ parseLines scope second = .ok tags₂ ∧
        tags = tags₁ ++ tags₂ := by
  simp only [parseLines, List.filter_append, List.mapM_append, bind_succeeds_iff,
    pure_succeeds_iff]
  constructor
  · rintro ⟨tags₁, htags₁, tags₂, htags₂, rfl⟩
    exact ⟨tags₁, tags₂, htags₁, htags₂, rfl⟩
  · rintro ⟨tags₁, tags₂, htags₁, htags₂, rfl⟩
    exact ⟨tags₁, htags₁, tags₂, htags₂, rfl⟩

end Tag

namespace Compiler

variable (c : Compiler)

theorem constraint_withScope (tag : Tag) (scope : Scope) (target : TypeRef) (around : Surroundings)
    (name : SimpleTag) :
    c.constraint (tag.withScope scope) target around name =
      c.constraint tag target around name := by
  cases tag <;> cases name <;> rfl

theorem wrapped_withScope (tag : Tag) (s : Scope) (nested : Builder) :
    c.wrapped (tag.withScope s) nested = c.wrapped tag nested := by
  cases tag with
  | bare head | valued head value => rfl
  | composed head inner =>
    -- Only whether there is a tag inside matters, not which one it is.
    have hbelongs (space : String) :
        (inner.withScope s).belongsTo space = inner.belongsTo space := by
      cases inner <;> rfl
    funext scope target around wrap
    simp only [wrapped, Compiler.inner, Tag.withScope, Tag.inner?, hbelongs]
    cases c.options.qualifier with
    | none => rfl
    | some qualifier =>
      simp only
      split <;> rfl

theorem directive_withScope (tag : Tag) (s : Scope) (nested : Builder) (scope : Scope)
    (target : TypeRef) (around : Surroundings) (directive : Directive) :
    c.directive (tag.withScope s) nested scope target around directive =
      c.directive tag nested scope target around directive := by
  cases directive with
  | simple name =>
    simp only [directive, constraint_withScope]
    cases tag <;> rfl
  | _ =>
    simp only [directive, wrapped_withScope]
    cases tag <;> rfl

theorem step_withScope (tag : Tag) (s : Scope) (nested : Builder) :
    c.step (tag.withScope s) nested = c.step tag nested := by
  funext scope target around
  have hname : (tag.withScope s).name = tag.name := by cases tag <;> rfl
  have hraw : (tag.withScope s).raw = tag.raw := by cases tag <;> rfl
  simp only [step, unknown, hname, hraw, directive_withScope]

theorem build_withScope (tag : Tag) (s : Scope) : c.build (tag.withScope s) = c.build tag := by
  induction tag with
  | bare head => exact c.step_withScope (.bare head) s _
  | valued head value => exact c.step_withScope (.valued head value) s _
  | composed head inner ih =>
    rw [Tag.withScope, build, ih]
    exact c.step_withScope (.composed head inner) s _

theorem compiles_withScope (tag : Tag) (s : Scope) :
    c.compiles (tag.withScope s) = c.compiles tag := by
  cases tag <;> rfl

end Compiler

end TaggedSchema
