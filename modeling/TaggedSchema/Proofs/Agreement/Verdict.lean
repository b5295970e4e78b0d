import TaggedSchema.Proofs.Agreement.Pairing

/-!
# The verdict of an agreement

Two validators agree when every class of matching violations has as many members on one side as on
the other. The order in which violations are listed has no part in that.
-/

namespace TaggedSchema

/-- A violation at the place where the reference would report it. -/
def Normalizer.relocate (normalizer : Normalizer) (violation : Violation) : Violation :=
  violation.relocate (normalizer.normalize violation.path)

/-- Whether a violation of the rules is held against the expected ones. -/
def Matcher.isCandidate (m : Matcher) (expected : List Violation) (violation : Violation) : Bool :=
  violation.native || expected.any (m.relates violation)

namespace Matcher

variable (m : Matcher)

/-- All violations of an expected class are candidates. -/
theorem classSize_candidates_of_expected {member : Violation} {expected : List Violation}
    (h : 0 < m.classSize member expected) (violations : List Violation) :
    m.classSize member (violations.filter (m.isCandidate expected)) =
      m.classSize member violations := by
  obtain ⟨b, hb, hmember⟩ := List.countP_pos_iff.mp h
  rw [classSize, List.countP_filter]
  apply List.countP_congr
  intro a _
  rw [Bool.and_eq_true, and_iff_left_iff_imp]
  intro hrelated
  have hpartner : m.relates a b = true := m.relates_trans (m.relates_symm hrelated) hmember
  rw [isCandidate, List.any_eq_true.mpr ⟨b, hb, hpartner⟩, Bool.or_true]

/-- Of a class that is not expected, only the violations in native fields are candidates. -/
theorem classSize_candidates_of_unexpected {member : Violation} {expected : List Violation}
    (h : m.classSize member expected = 0) (violations : List Violation) :
    m.classSize member (violations.filter (m.isCandidate expected)) =
      m.classSize member (violations.filter Violation.native) := by
  rw [classSize, classSize, List.countP_filter, List.countP_filter]
  apply List.countP_congr
  intro a _
  rw [Bool.and_eq_true, Bool.and_eq_true, and_congr_right_iff]
  intro hrelated
  have hnone : expected.any (m.relates a) = false := by
    rw [List.any_eq_false]
    intro b hb hpartner
    exact List.countP_eq_zero.mp h b hb (m.relates_trans hrelated hpartner)
  rw [isCandidate, hnone, Bool.or_false]

/-- How a class has to be filled. One that is expected has as many violations found as expected,
and of one that is not expected none is found in native fields. -/
def IsBalanced (found expected : List Violation) (member : Violation) : Prop :=
  (0 < m.classSize member expected →
    m.classSize member found = m.classSize member expected) ∧
  (m.classSize member expected = 0 → m.classSize member (found.filter Violation.native) = 0)

theorem isBalanced_iff_candidates (found expected : List Violation) (member : Violation) :
    m.IsBalanced found expected member ↔
      m.classSize member (found.filter (m.isCandidate expected)) =
        m.classSize member expected := by
  rcases Nat.eq_zero_or_pos (m.classSize member expected) with hzero | hpos
  · rw [m.classSize_candidates_of_unexpected hzero, IsBalanced, hzero]
    simp
  · rw [m.classSize_candidates_of_expected hpos, IsBalanced]
    simp [hpos, Nat.ne_of_gt hpos]

theorem isBalanced_perm {found found' expected expected' : List Violation}
    (hfound : found'.Perm found) (hexpected : expected'.Perm expected) (member : Violation) :
    m.IsBalanced found' expected' member ↔ m.IsBalanced found expected member := by
  rw [IsBalanced, IsBalanced, m.classSize_perm member hfound, m.classSize_perm member hexpected,
    m.classSize_perm member (hfound.filter _)]

end Matcher

theorem agreement_passes_iff (normalizer : Normalizer) (m : Matcher)
    (declarative reference : List Violation) :
    (agreement normalizer m declarative reference).passes = true ↔
      ∀ member, m.IsBalanced (declarative.map normalizer.relocate)
        (reference.filter Violation.isExpected) member := by
  simp only [m.isBalanced_iff_candidates, ← m.pairUp_leaves_nothing_iff]
  simp only [agreement, Report.passes, List.partition_eq_filter_filter, Bool.and_eq_true,
    List.isEmpty_iff]
  rfl

/-- The verdict is that of counting: matching is an equivalence, the validators agree when each of
its classes is balanced, and reordering either list does not change that. -/
theorem passes_iff_classes_balanced (normalizer : Normalizer) (m : Matcher)
    (declarative reference : List Violation) :
    (Equivalence fun a b => m.relates a b = true) ∧
      ((agreement normalizer m declarative reference).passes = true ↔
        ∀ member, m.IsBalanced (declarative.map normalizer.relocate)
          (reference.filter Violation.isExpected) member) ∧
      ∀ declarative' reference' : List Violation,
        declarative'.Perm declarative → reference'.Perm reference →
          (agreement normalizer m declarative' reference').passes =
            (agreement normalizer m declarative reference).passes := by
  refine ⟨m.relates_equivalence, agreement_passes_iff normalizer m declarative reference, ?_⟩
  intro declarative' reference' hdeclarative hreference
  rw [Bool.eq_iff_iff, agreement_passes_iff, agreement_passes_iff]
  exact forall_congr' (m.isBalanced_perm (hdeclarative.map _) (hreference.filter _))

end TaggedSchema
