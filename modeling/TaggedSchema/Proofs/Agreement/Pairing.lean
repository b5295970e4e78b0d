import Mathlib.Data.List.Perm.Basic
import TaggedSchema.Agreement.Report
import TaggedSchema.Proofs.Value.Equality

/-!
# Pairing violations

Matching is an equivalence, so which partner a violation is given does not matter for those that
come later. What the pairing leaves on the two sides has nothing in common, and each class of
matching violations loses equally many members on both sides.
-/

namespace TaggedSchema

namespace Matcher

variable (m : Matcher)

/-! ## Classes of matching violations -/

theorem relates_iff {a b : Violation} :
    m.relates a b = true ↔ a.kind = b.kind ∧ a.path.canonical = b.path.canonical ∧
      (m.byOrigin = true → a.origin = b.origin) ∧
      (m.byValue = true → (a.badValue == b.badValue) = true) ∧
      (m.byDetail = true → a.detail = b.detail) := by
  simp only [relates, Bool.and_eq_true, Bool.or_eq_true, Bool.not_eq_true', beq_iff_eq,
    ← Bool.not_eq_true, ← imp_iff_not_or, and_assoc]

theorem relates_refl (a : Violation) : m.relates a a = true :=
  m.relates_iff.mpr ⟨rfl, rfl, fun _ => rfl, fun _ => BEq.refl _, fun _ => rfl⟩

theorem relates_symm {a b : Violation} (h : m.relates a b = true) : m.relates b a = true := by
  obtain ⟨hkind, hpath, horigin, hvalue, hdetail⟩ := m.relates_iff.mp h
  exact m.relates_iff.mpr ⟨hkind.symm, hpath.symm, fun hby => (horigin hby).symm,
    fun hby => BEq.symm (hvalue hby), fun hby => (hdetail hby).symm⟩

theorem relates_trans {a b c : Violation} (hab : m.relates a b = true)
    (hbc : m.relates b c = true) : m.relates a c = true := by
  obtain ⟨hkind, hpath, horigin, hvalue, hdetail⟩ := m.relates_iff.mp hab
  obtain ⟨hkind', hpath', horigin', hvalue', hdetail'⟩ := m.relates_iff.mp hbc
  exact m.relates_iff.mpr ⟨hkind.trans hkind', hpath.trans hpath',
    fun hby => (horigin hby).trans (horigin' hby),
    fun hby => BEq.trans (hvalue hby) (hvalue' hby),
    fun hby => (hdetail hby).trans (hdetail' hby)⟩

theorem relates_equivalence : Equivalence fun a b => m.relates a b = true :=
  ⟨m.relates_refl, m.relates_symm, m.relates_trans⟩

/-- Violations that match have one class. -/
theorem relates_congr {a b : Violation} (h : m.relates a b = true) (c : Violation) :
    m.relates c a = m.relates c b :=
  Bool.eq_iff_iff.mpr
    ⟨fun hca => m.relates_trans hca h, fun hcb => m.relates_trans hcb (m.relates_symm h)⟩

/-- How many of the violations match `member`. -/
def classSize (member : Violation) (violations : List Violation) : Nat :=
  violations.countP (m.relates member)

theorem classSize_perm (member : Violation) {as bs : List Violation} (h : as.Perm bs) :
    m.classSize member as = m.classSize member bs :=
  h.countP_eq _

theorem classSize_append (member : Violation) (as bs : List Violation) :
    m.classSize member (as ++ bs) = m.classSize member as + m.classSize member bs :=
  List.countP_append

/-- A class is that of each of its members. -/
theorem classSize_pos_of_mem {member : Violation} {violations : List Violation}
    (h : member ∈ violations) : 0 < m.classSize member violations :=
  List.countP_pos_iff.mpr ⟨member, h, m.relates_refl member⟩

/-! ## What the pairing does -/

theorem pairUp_cons_of_find? {a b : Violation} {as bs : List Violation}
    (h : bs.find? (m.relates a) = some b) :
    m.pairUp (a :: as) bs =
      { m.pairUp as (bs.eraseP (m.relates a)) with
        pairs := ⟨a, b⟩ :: (m.pairUp as (bs.eraseP (m.relates a))).pairs } := by
  rw [pairUp, h]

theorem pairUp_cons_of_none {a : Violation} {as bs : List Violation}
    (h : bs.find? (m.relates a) = none) :
    m.pairUp (a :: as) bs =
      { m.pairUp as bs with declarative := a :: (m.pairUp as bs).declarative } := by
  rw [pairUp, h]

theorem perm_cons_eraseP {α : Type} {p : α → Bool} {a : α} {as : List α}
    (h : as.find? p = some a) : as.Perm (a :: as.eraseP p) := by
  induction as with
  | nil => cases h
  | cons b as ih =>
    by_cases hb : p b = true
    · rw [List.find?_cons_of_pos hb] at h
      cases h
      rw [List.eraseP_cons_of_pos hb]
    · rw [List.find?_cons_of_neg hb] at h
      rw [List.eraseP_cons_of_neg hb]
      exact ((ih h).cons b).trans (List.Perm.swap a b _)

/-- Each violation of the rules is paired or left, with its multiplicity. -/
theorem pairUp_declarative_perm (as bs : List Violation) :
    ((m.pairUp as bs).pairs.map MatchedPair.declarative ++ (m.pairUp as bs).declarative).Perm
      as := by
  induction as generalizing bs with
  | nil => exact .nil
  | cons a as ih =>
    cases hfind : bs.find? (m.relates a) with
    | some b =>
      rw [m.pairUp_cons_of_find? hfind]
      exact (ih _).cons a
    | none =>
      rw [m.pairUp_cons_of_none hfind]
      exact List.perm_middle.trans ((ih _).cons a)

/-- Each reference violation is paired or left, with its multiplicity. -/
theorem pairUp_reference_perm (as bs : List Violation) :
    ((m.pairUp as bs).pairs.map MatchedPair.reference ++ (m.pairUp as bs).reference).Perm bs := by
  induction as generalizing bs with
  | nil => exact .refl _
  | cons a as ih =>
    cases hfind : bs.find? (m.relates a) with
    | some b =>
      rw [m.pairUp_cons_of_find? hfind]
      exact ((ih _).cons b).trans (perm_cons_eraseP hfind).symm
    | none =>
      rw [m.pairUp_cons_of_none hfind]
      exact ih bs

theorem pairUp_related (as bs : List Violation) :
    ∀ pair ∈ (m.pairUp as bs).pairs, m.relates pair.declarative pair.reference = true := by
  induction as generalizing bs with
  | nil => exact List.forall_mem_nil _
  | cons a as ih =>
    cases hfind : bs.find? (m.relates a) with
    | some b =>
      rw [m.pairUp_cons_of_find? hfind]
      exact List.forall_mem_cons.mpr ⟨List.find?_some hfind, ih _⟩
    | none =>
      rw [m.pairUp_cons_of_none hfind]
      exact ih bs

theorem pairUp_reference_sublist (as bs : List Violation) :
    (m.pairUp as bs).reference.Sublist bs := by
  induction as generalizing bs with
  | nil => exact .refl _
  | cons a as ih =>
    cases hfind : bs.find? (m.relates a) with
    | some b =>
      rw [m.pairUp_cons_of_find? hfind]
      exact (ih _).trans List.eraseP_sublist
    | none =>
      rw [m.pairUp_cons_of_none hfind]
      exact ih bs

/-- Nothing that is left on one side matches anything that is left on the other. A violation is
left when nothing matches it, and what can be chosen from only shrinks later. -/
theorem pairUp_separated (as bs : List Violation) :
    ∀ a ∈ (m.pairUp as bs).declarative, ∀ b ∈ (m.pairUp as bs).reference,
      ¬ m.relates a b = true := by
  induction as generalizing bs with
  | nil => exact List.forall_mem_nil _
  | cons a as ih =>
    cases hfind : bs.find? (m.relates a) with
    | some b =>
      rw [m.pairUp_cons_of_find? hfind]
      exact ih _
    | none =>
      rw [m.pairUp_cons_of_none hfind]
      refine List.forall_mem_cons.mpr ⟨?_, ih bs⟩
      intro b hb
      exact List.find?_eq_none.mp hfind b ((m.pairUp_reference_sublist as bs).subset hb)

/-! ## When nothing is left -/

/-- What holds of all members of a class or of none holds of as many on both sides of the pairs. -/
theorem countP_pairs {p : Violation → Bool} (hp : ∀ {a b}, m.relates a b = true → p a = p b)
    {pairs : List MatchedPair}
    (h : ∀ pair ∈ pairs, m.relates pair.declarative pair.reference = true) :
    (pairs.map MatchedPair.declarative).countP p =
      (pairs.map MatchedPair.reference).countP p := by
  rw [List.countP_map, List.countP_map]
  apply List.countP_congr
  intro pair hpair
  rw [Function.comp_apply, Function.comp_apply, hp (h pair hpair)]

/-- Both sides of the pairs fill every class equally. -/
theorem classSize_pairs (member : Violation) {pairs : List MatchedPair}
    (h : ∀ pair ∈ pairs, m.relates pair.declarative pair.reference = true) :
    m.classSize member (pairs.map MatchedPair.declarative) =
      m.classSize member (pairs.map MatchedPair.reference) :=
  m.countP_pairs (fun hrelated => m.relates_congr hrelated member) h

/-- Two lists differ in a class by as much as the pairing leaves of them there. -/
theorem classSize_pairUp (member : Violation) (as bs : List Violation) :
    m.classSize member as + m.classSize member (m.pairUp as bs).reference =
      m.classSize member bs + m.classSize member (m.pairUp as bs).declarative := by
  have hdeclarative := m.classSize_perm member (m.pairUp_declarative_perm as bs)
  have hreference := m.classSize_perm member (m.pairUp_reference_perm as bs)
  have hpairs := m.classSize_pairs member (m.pairUp_related as bs)
  rw [classSize_append] at hdeclarative hreference
  omega

/-- The pairing leaves nothing exactly when every class is equally large on both sides. -/
theorem pairUp_leaves_nothing_iff (as bs : List Violation) :
    (m.pairUp as bs).declarative = [] ∧ (m.pairUp as bs).reference = [] ↔
      ∀ member, m.classSize member as = m.classSize member bs := by
  constructor
  · rintro ⟨hdeclarative, hreference⟩ member
    have hsize := m.classSize_pairUp member as bs
    rw [hdeclarative, hreference] at hsize
    exact Nat.add_right_cancel hsize
  · intro hsizes
    -- A violation left on one side has its class left on the other, against `pairUp_separated`.
    have hleft (member : Violation) : m.classSize member (m.pairUp as bs).reference =
        m.classSize member (m.pairUp as bs).declarative := by
      have hsize := m.classSize_pairUp member as bs
      have hsame := hsizes member
      omega
    constructor
    · apply List.eq_nil_iff_forall_not_mem.mpr
      intro a ha
      have hpos := m.classSize_pos_of_mem ha
      rw [← hleft a] at hpos
      obtain ⟨b, hb, hrelated⟩ := List.countP_pos_iff.mp hpos
      exact m.pairUp_separated as bs a ha b hb hrelated
    · apply List.eq_nil_iff_forall_not_mem.mpr
      intro b hb
      have hpos := m.classSize_pos_of_mem hb
      rw [hleft b] at hpos
      obtain ⟨a, ha, hrelated⟩ := List.countP_pos_iff.mp hpos
      exact m.pairUp_separated as bs a ha b hb (m.relates_symm hrelated)

end Matcher

end TaggedSchema
