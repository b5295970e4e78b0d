import TaggedSchema.Proofs.Agreement.Verdict

/-!
# What an agreement does with violations

Every violation that goes into an agreement comes out of it once: it is paired, left over, passed
through or ignored. What is paired matches, and nothing that is left over could have been paired.
-/

namespace TaggedSchema

/-- The report accounts for the violations that the rules have found and for those of the
reference. -/
structure Report.AccountsFor (report : Report) (m : Matcher) (found reference : List Violation) :
    Prop where
  /-- What is not expected from the rules is passed through, in its order. -/
  passthrough : report.passthrough = reference.filter fun violation => !violation.isExpected
  /-- What is expected is paired or left over, with its multiplicity. -/
  expected : (report.matched.map MatchedPair.reference ++ report.unmatchedReference).Perm
    (reference.filter Violation.isExpected)
  /-- What the rules have found is paired, left over or ignored, with its multiplicity. -/
  found : (report.matched.map MatchedPair.declarative ++ report.unmatchedDeclarative ++
    report.ignored).Perm found
  matched : ∀ pair ∈ report.matched, m.relates pair.declarative pair.reference = true
  ignored : ∀ violation ∈ report.ignored, violation.native = false ∧
    ∀ expected ∈ reference, expected.isExpected = true → m.relates violation expected = false
  unmatched : ∀ violation ∈ report.unmatchedDeclarative, ∀ expected ∈ report.unmatchedReference,
    m.relates violation expected = false

namespace Matcher

variable (m : Matcher) {expected : List Violation}

/-- What is not held against the expected violations is not native and matches none of them. -/
theorem isCandidate_eq_false_iff {violation : Violation} :
    m.isCandidate expected violation = false ↔
      violation.native = false ∧ ∀ other ∈ expected, m.relates violation other = false := by
  rw [isCandidate, Bool.or_eq_false_iff, List.any_eq_false]
  simp only [Bool.not_eq_true]

end Matcher

/-- The report by the lists that it is made from. -/
theorem agreement_eq (normalizer : Normalizer) (m : Matcher)
    (declarative reference : List Violation) :
    agreement normalizer m declarative reference =
      let found := declarative.map normalizer.relocate
      let expected := reference.filter Violation.isExpected
      let pairing := m.pairUp (found.filter (m.isCandidate expected)) expected
      { matcher := m
        matched := pairing.pairs
        unmatchedDeclarative := pairing.declarative
        unmatchedReference := pairing.reference
        passthrough := reference.filter fun violation => !violation.isExpected
        ignored := found.filter fun violation => !m.isCandidate expected violation } := by
  simp only [agreement, List.partition_eq_filter_filter]
  rfl

/-- An agreement moves the violations of the rules to where the reference would report them, and
changes nothing else of them. After that it accounts for all violations on both sides. -/
theorem agreement_accountsFor (normalizer : Normalizer) (m : Matcher)
    (declarative reference : List Violation) :
    (agreement normalizer m declarative reference).AccountsFor m
      (declarative.map fun violation =>
        { violation with path := normalizer.normalize violation.path }) reference := by
  rw [agreement_eq]
  refine ⟨rfl, m.pairUp_reference_perm _ _, ?_, m.pairUp_related _ _, ?_, ?_⟩
  · have hcandidates := m.pairUp_declarative_perm ((declarative.map normalizer.relocate).filter
      (m.isCandidate (reference.filter Violation.isExpected)))
      (reference.filter Violation.isExpected)
    exact (hcandidates.append_right _).trans (List.filter_append_perm _ _)
  · intro violation hviolation
    obtain ⟨-, hnot⟩ := List.mem_filter.mp hviolation
    rw [Bool.not_eq_true', m.isCandidate_eq_false_iff] at hnot
    obtain ⟨hnative, hnone⟩ := hnot
    refine ⟨hnative, fun expected hmem hexpected => ?_⟩
    exact hnone expected (List.mem_filter.mpr ⟨hmem, hexpected⟩)
  · intro violation hviolation expected hexpected
    exact eq_false_of_ne_true (m.pairUp_separated _ _ violation hviolation expected hexpected)

end TaggedSchema
