import TaggedSchema.Proofs.Agreement.Conservation

/-!
# Stricter matching

A matcher that asks for more relates fewer violations, so its classes are finer. The looser one
still leaves as few reference violations as any pairing could, although the two of them may choose
quite different partners.
-/

namespace TaggedSchema

namespace Matcher

/-- Whether whatever a matcher asks for is asked for by the other too. -/
def IsLooserThan (m strict : Matcher) : Prop :=
  (m.byOrigin = true → strict.byOrigin = true) ∧ (m.byValue = true → strict.byValue = true) ∧
    (m.byDetail = true → strict.byDetail = true)

instance (m strict : Matcher) : Decidable (m.IsLooserThan strict) :=
  inferInstanceAs (Decidable (_ ∧ _ ∧ _))

variable {m strict : Matcher}

theorem IsLooserThan.relates (hlooser : m.IsLooserThan strict) {a b : Violation}
    (h : strict.relates a b = true) : m.relates a b = true := by
  obtain ⟨horigin, hvalue, hdetail⟩ := hlooser
  obtain ⟨hkind, hpath, horigins, hvalues, hdetails⟩ := strict.relates_iff.mp h
  exact m.relates_iff.mpr ⟨hkind, hpath, fun hby => horigins (horigin hby),
    fun hby => hvalues (hvalue hby), fun hby => hdetails (hdetail hby)⟩

theorem IsLooserThan.isCandidate (hlooser : m.IsLooserThan strict) {expected : List Violation}
    {violation : Violation} (h : strict.isCandidate expected violation = true) :
    m.isCandidate expected violation = true := by
  rw [Matcher.isCandidate, Bool.or_eq_true] at h ⊢
  refine h.imp_right fun hany => ?_
  obtain ⟨other, hmem, hrelated⟩ := List.any_eq_true.mp hany
  exact List.any_eq_true.mpr ⟨other, hmem, hlooser.relates hrelated⟩

/-- What the stricter matcher holds against the expected violations, the looser one does too. -/
theorem IsLooserThan.candidates_sublist (hlooser : m.IsLooserThan strict)
    (found expected : List Violation) :
    (found.filter (strict.isCandidate expected)).Sublist
      (found.filter (m.isCandidate expected)) :=
  List.monotone_filter_right found fun _ => hlooser.isCandidate

variable (m)

/-- Whether a violation matches one of those that the pairing leaves of the reference. -/
def isShort (as bs : List Violation) (violation : Violation) : Bool :=
  (m.pairUp as bs).reference.any fun other => m.relates other violation

theorem isShort_congr (as bs : List Violation) {a b : Violation} (h : m.relates a b = true) :
    m.isShort as bs a = m.isShort as bs b := by
  simp only [isShort, m.relates_congr h]

theorem isShort_of_mem {as bs : List Violation} {violation : Violation}
    (h : violation ∈ (m.pairUp as bs).reference) : m.isShort as bs violation = true :=
  List.any_eq_true.mpr ⟨violation, h, m.relates_refl violation⟩

/-- A violation of the rules that is left matches nothing that is left of the reference. -/
theorem not_isShort_of_mem {as bs : List Violation} {violation : Violation}
    (h : violation ∈ (m.pairUp as bs).declarative) : ¬ m.isShort as bs violation = true := by
  intro hshort
  obtain ⟨other, hmem, hrelated⟩ := List.any_eq_true.mp hshort
  exact m.pairUp_separated as bs violation h other hmem (m.relates_symm hrelated)

/-- In the classes of which something of the reference is left, the rules have found nothing that
could still be paired. What is left is thus as much as these classes are larger there. -/
theorem countP_isShort (as bs : List Violation) :
    as.countP (m.isShort as bs) + (m.pairUp as bs).reference.length =
      bs.countP (m.isShort as bs) := by
  have hdeclarative := (m.pairUp_declarative_perm as bs).countP_eq (m.isShort as bs)
  have hreference := (m.pairUp_reference_perm as bs).countP_eq (m.isShort as bs)
  have hpairs := m.countP_pairs (m.isShort_congr as bs) (m.pairUp_related as bs)
  have hnone : (m.pairUp as bs).declarative.countP (m.isShort as bs) = 0 :=
    List.countP_eq_zero.mpr fun _ => m.not_isShort_of_mem
  have hall : (m.pairUp as bs).reference.countP (m.isShort as bs) =
      (m.pairUp as bs).reference.length :=
    List.countP_eq_length.mpr fun _ => m.isShort_of_mem
  rw [List.countP_append] at hdeclarative hreference
  omega

/-- Each expected violation is paired or left. -/
theorem length_pairs_add_length_reference (as bs : List Violation) :
    (m.pairUp as bs).pairs.length + (m.pairUp as bs).reference.length = bs.length := by
  have hlength := (m.pairUp_reference_perm as bs).length_eq
  rwa [List.length_append, List.length_map] at hlength

variable {m}

/-- The pairing of the looser matcher leaves no more than that of the stricter one, which has no
more to choose from. -/
theorem IsLooserThan.length_reference_le (hlooser : m.IsLooserThan strict)
    {as as' : List Violation} (hsublist : as'.Sublist as) (bs : List Violation) :
    (m.pairUp as bs).reference.length ≤ (strict.pairUp as' bs).reference.length := by
  have hshort := m.countP_isShort as bs
  have hpairs := m.countP_pairs (m.isShort_congr as bs) fun pair hpair =>
    hlooser.relates (strict.pairUp_related as' bs pair hpair)
  have hdeclarative := (strict.pairUp_declarative_perm as' bs).countP_eq (m.isShort as bs)
  have hreference := (strict.pairUp_reference_perm as' bs).countP_eq (m.isShort as bs)
  rw [List.countP_append] at hdeclarative hreference
  -- What the stricter matcher pairs in these classes it has to take from what was found.
  have hfound : as'.countP (m.isShort as bs) ≤ as.countP (m.isShort as bs) :=
    hsublist.countP_le
  have hleft : (strict.pairUp as' bs).reference.countP (m.isShort as bs) ≤
      (strict.pairUp as' bs).reference.length :=
    List.countP_le_length
  omega

end Matcher

/-- A matcher that asks for more leaves at least as many expected violations without a partner, and
pairs at most as many. -/
theorem stricter_matching_finds_no_more (normalizer : Normalizer)
    (declarative reference : List Violation) (m strict : Matcher)
    (hlooser : m.IsLooserThan strict) :
    (agreement normalizer m declarative reference).unmatchedReference.length ≤
        (agreement normalizer strict declarative reference).unmatchedReference.length ∧
      (agreement normalizer strict declarative reference).matched.length ≤
        (agreement normalizer m declarative reference).matched.length := by
  rw [agreement_eq, agreement_eq]
  let found := declarative.map normalizer.relocate
  let expected := reference.filter Violation.isExpected
  have hleft := hlooser.length_reference_le (hlooser.candidates_sublist found expected) expected
  have hpaired := m.length_pairs_add_length_reference (found.filter (m.isCandidate expected))
    expected
  have hstrict := strict.length_pairs_add_length_reference
    (found.filter (strict.isCandidate expected)) expected
  refine ⟨hleft, ?_⟩
  show (strict.pairUp (found.filter (strict.isCandidate expected)) expected).pairs.length ≤
    (m.pairUp (found.filter (m.isCandidate expected)) expected).pairs.length
  omega

/-- A missing value that the reference reports under another name is lost when names have to
agree. -/
theorem stricter_matching_finds_no_more_of_origins :
    Matcher.IsLooserThan .lenient ⟨true, false, false⟩ ∧
      (agreement [] .lenient [.required .root "required"]
          [(Violation.required .root "presence").markCovered]).unmatchedReference.length ≤
        (agreement [] ⟨true, false, false⟩ [.required .root "required"]
          [(Violation.required .root "presence").markCovered]).unmatchedReference.length ∧
      (agreement [] ⟨true, false, false⟩ [.required .root "required"]
          [(Violation.required .root "presence").markCovered]).matched.length ≤
        (agreement [] .lenient [.required .root "required"]
          [(Violation.required .root "presence").markCovered]).matched.length :=
  ⟨by decide, stricter_matching_finds_no_more [] [.required .root "required"]
    [(Violation.required .root "presence").markCovered] .lenient ⟨true, false, false⟩ (by decide)⟩

end TaggedSchema
