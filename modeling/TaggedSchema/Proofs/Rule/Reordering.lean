import TaggedSchema.Proofs.Rule.Retagging

/-!
# Rules in another order

Tags in another order are built into the same rules in another order. What these have to satisfy
together does not depend on the order either.
-/

namespace TaggedSchema

variable {rules rules' : List Rule}

theorem hasConstraint_perm (hperm : rules'.Perm rules) (p : Constraint → Bool) :
    hasConstraint rules' p = hasConstraint rules p :=
  hperm.any_eq

namespace Compiler

/-! ## Checks -/

/-- The tags that write the presence rules among these. -/
def presenceTags (rules : List Rule) : List SimpleTag :=
  ((rules.filterMap Rule.constraint?).filter isPresence).map Constraint.tag

/-- No presence rule is repeated if all have different tags, none of which has been seen before. -/
theorem firstRepeated_eq_none_iff {seen : List SimpleTag} :
    firstRepeated seen rules = none ↔
      (presenceTags rules).Nodup ∧ ∀ tag ∈ presenceTags rules, tag ∉ seen := by
  induction rules generalizing seen with
  | nil => simp [firstRepeated, presenceTags]
  | cons rule rules ih =>
    cases rule with
    | within | guarded => exact ih
    | leaf constraint tag =>
      rw [firstRepeated]
      cases hpresence : isPresence constraint with
      | false =>
        have hothers : presenceTags (.leaf constraint tag :: rules) = presenceTags rules := by
          simp [presenceTags, Rule.constraint?, hpresence]
        rw [hothers]
        exact ih
      | true =>
        have hothers : presenceTags (.leaf constraint tag :: rules) =
            constraint.tag :: presenceTags rules := by
          simp [presenceTags, Rule.constraint?, hpresence]
        rw [hothers, List.nodup_cons, List.forall_mem_cons]
        by_cases hseen : constraint.tag ∈ seen
        · simp [hseen]
        · have hrest : ¬seen.contains constraint.tag = true := by simpa using hseen
          rw [Bool.not_true, if_neg Bool.false_ne_true, if_neg hrest, ih]
          simp only [List.mem_cons, not_or, forall_and]
          constructor
          · rintro ⟨hnodup, hnew, hothers⟩
            exact ⟨⟨fun hmem => hnew _ hmem rfl, hnodup⟩, hseen, hothers⟩
          · rintro ⟨⟨hnew, hnodup⟩, -, hothers⟩
            exact ⟨hnodup, fun tag hmem hsame => hnew (hsame ▸ hmem), hothers⟩

/-- Whether rules go together does not depend on their order. -/
theorem check_perm (hperm : rules'.Perm rules) (h : check rules = .ok ()) :
    check rules' = .ok () := by
  rw [check_eq_ok_iff, firstRepeated_eq_none_iff] at h ⊢
  have htags : (presenceTags rules').Perm (presenceTags rules) :=
    ((hperm.filterMap _).filter _).map _
  simp only [hasConstraint_perm hperm, hperm.mem_iff, htags.nodup_iff, htags.mem_iff]
  exact h

/-! ## Lines -/

variable {c c' : Compiler} {field : FieldDef} {lines lines' : List String}

/-- Lines in another order are built into the same rules in another order. -/
theorem BuildsLines.perm (hperm : lines'.Perm lines) (h : c.BuildsLines field lines rules) :
    ∃ rules', c.BuildsLines field lines' rules' ∧ rules'.Perm rules := by
  obtain ⟨tags, htags, built, hbuilt, rfl⟩ := h
  obtain ⟨tags', htags', hsame⟩ := exists_mapM_perm (hperm.filter _) htags
  obtain ⟨built', hbuilt', hsame'⟩ := exists_mapM_perm (hsame.filter _) hbuilt
  exact ⟨_, ⟨tags', htags', built', hbuilt', rfl⟩, hsame'.filterMap _⟩

end Compiler

end TaggedSchema
