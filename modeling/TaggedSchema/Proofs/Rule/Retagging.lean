import TaggedSchema.Proofs.Rule.Signatures
import TaggedSchema.Proofs.Tag.Scopes
import TaggedSchema.Proofs.Universe.Retagging

/-!
# Rules of a field with other tags

The rules of a field are those of its lines, one after the other. Putting other lines in the place
of some changes the rules of these lines, and those before and behind them are the same.
-/

namespace TaggedSchema.Compiler

variable {c c' : Compiler} {field : FieldDef} {lines first second : List String}
variable {rules rules' : List Rule}

theorem BuildsRules.unique {tags : List Tag} {scope : Scope} {target : TypeRef}
    {around : Surroundings} (h : c.BuildsRules tags scope target around rules)
    (h' : c.BuildsRules tags scope target around rules') : rules' = rules := by
  obtain ⟨built, hbuilt, rfl⟩ := h
  obtain ⟨built', hbuilt', rfl⟩ := h'
  cases hbuilt.symm.trans hbuilt'
  rfl

/-- The lines at the field are tags that are built into these rules. -/
def BuildsLines (c : Compiler) (field : FieldDef) (lines : List String) (rules : List Rule) :
    Prop :=
  ∃ tags, Tag.parseLines .field lines = .ok tags ∧
    c.BuildsRules tags .field field.type ⟨false, some field.name⟩ rules

/-- Only the tags that are compiled count. -/
theorem BuildsLines.compiledTags (h : c.BuildsLines field lines rules) :
    c.BuildsRules (c.compiledTags .field lines) .field field.type ⟨false, some field.name⟩
      rules := by
  obtain ⟨tags, htags, hbuilds⟩ := h
  rw [compiledTags_of_parseLines htags]
  exact buildsRules_filter_compiles.mpr hbuilds

theorem fieldRules_eq_ok_iff :
    c.fieldRules field = .ok rules ↔
      c.BuildsLines field field.tags rules ∧ check rules = .ok () := by
  simp only [fieldRules, bind_succeeds_iff, mapError_succeeds_iff, rules_eq_ok_iff, BuildsLines]
  constructor
  · rintro ⟨tags, htags, hbuilds, hcheck⟩
    exact ⟨⟨tags, htags, hbuilds⟩, hcheck⟩
  · rintro ⟨⟨tags, htags, hbuilds⟩, hcheck⟩
    exact ⟨tags, htags, hbuilds, hcheck⟩

theorem buildsLines_append_iff :
    c.BuildsLines field (first ++ second) rules ↔
      ∃ rules₁ rules₂, c.BuildsLines field first rules₁ ∧ c.BuildsLines field second rules₂ ∧
        rules = rules₁ ++ rules₂ := by
  simp only [BuildsLines, Tag.parseLines_append_iff]
  constructor
  · rintro ⟨_, ⟨tags₁, tags₂, htags₁, htags₂, rfl⟩, hbuilds⟩
    obtain ⟨rules₁, rules₂, hrules₁, hrules₂, rfl⟩ := buildsRules_append_iff.mp hbuilds
    exact ⟨rules₁, rules₂, ⟨tags₁, htags₁, hrules₁⟩, ⟨tags₂, htags₂, hrules₂⟩, rfl⟩
  · rintro ⟨rules₁, rules₂, ⟨tags₁, htags₁, hrules₁⟩, ⟨tags₂, htags₂, hrules₂⟩, rfl⟩
    exact ⟨tags₁ ++ tags₂, ⟨tags₁, tags₂, htags₁, htags₂, rfl⟩,
      buildsRules_append_iff.mpr ⟨rules₁, rules₂, hrules₁, hrules₂, rfl⟩⟩

theorem BuildsLines.unique (h : c.BuildsLines field lines rules)
    (h' : c.BuildsLines field lines rules') : rules' = rules := by
  obtain ⟨tags, htags, hbuilds⟩ := h
  obtain ⟨tags', htags', hbuilds'⟩ := h'
  cases htags.symm.trans htags'
  exact hbuilds.unique hbuilds'

theorem Alike.buildsLines_iff (h : c.Alike c') :
    c'.BuildsLines field lines rules ↔ c.BuildsLines field lines rules := by
  have hbuild : (fun tag => c'.build tag .field field.type ⟨false, some field.name⟩) =
      fun tag => c.build tag .field field.type ⟨false, some field.name⟩ := by
    funext tag
    exact h.build tag _ _ _ fun hscope => absurd hscope (by decide)
  simp only [BuildsLines, BuildsRules, h.compiles, hbuild]

/-- The rules of a field of which some lines have been replaced: those of the lines before and
behind stay. -/
theorem Alike.fieldRules_replaced (h : c.Alike c') {front lines' back : List String}
    (htags : field.tags = front ++ lines ++ back) (hrules : c.fieldRules field = .ok rules)
    (hrules' : c'.fieldRules (field.retag (front ++ lines' ++ back)) = .ok rules') :
    ∃ before between between' after, c.BuildsLines field lines between ∧
      c.BuildsLines field lines' between' ∧ rules = before ++ between ++ after ∧
        rules' = before ++ between' ++ after := by
  have hlines := (fieldRules_eq_ok_iff.mp hrules).1
  have hlines' : c'.BuildsLines field (front ++ lines' ++ back) rules' :=
    (fieldRules_eq_ok_iff.mp hrules').1
  rw [htags] at hlines
  rw [h.buildsLines_iff] at hlines'
  obtain ⟨_, after, hfirst, hafter, rfl⟩ := buildsLines_append_iff.mp hlines
  obtain ⟨before, between, hbefore, hbetween, rfl⟩ := buildsLines_append_iff.mp hfirst
  obtain ⟨_, after', hfirst', hafter', rfl⟩ := buildsLines_append_iff.mp hlines'
  obtain ⟨before', between', hbefore', hbetween', rfl⟩ := buildsLines_append_iff.mp hfirst'
  rw [hbefore.unique hbefore', hafter.unique hafter']
  exact ⟨before, between, between', after, hbetween, hbetween', rfl, rfl⟩

end TaggedSchema.Compiler
