import TaggedSchema.Proofs.Results
import TaggedSchema.Proofs.Value.Inside

/-!
# Equality of values

Equality of values is coarser than identity, since it does not tell the two zeros apart, but it is
an equivalence.
-/

namespace TaggedSchema

instance : EquivBEq Double :=
  equivBEq_of_iff_apply_eq Double.rank fun a b => by
    change (a.rank == b.rank) = true ↔ a.rank = b.rank
    exact beq_iff_eq

instance optionEquivBEq {α : Type} [BEq α] [EquivBEq α] : EquivBEq (Option α) where
  rfl := BEq.refl _
  symm {a b} h := by
    cases a with
    | none => cases b <;> exact h
    | some a =>
      cases b with
      | none => exact h
      | some b => exact BEq.symm (α := α) h
  trans {a b c} hab hbc := by
    cases b with
    | none =>
      cases a with
      | none => exact hbc
      | some a => exact nomatch hab
    | some b =>
      cases a with
      | none => exact nomatch hab
      | some a =>
        cases c with
        | none => exact hbc
        | some c => exact BEq.trans (α := α) hab hbc

/-- What is compared of a number. Numbers of different kinds differ. -/
def Number.comparand : Number → Int ⊕ Int
  | .int value => .inl value
  | .float value => .inr value.rank

instance : EquivBEq Number :=
  equivBEq_of_iff_apply_eq Number.comparand fun a b => by
    cases a with
    | int a =>
      cases b with
      | int b =>
        change (a == b) = true ↔ Sum.inl a = Sum.inl b
        rw [beq_iff_eq, Sum.inl.injEq]
      | float b => exact iff_of_false Bool.false_ne_true Sum.inl_ne_inr
    | float a =>
      cases b with
      | int b => exact iff_of_false Bool.false_ne_true Sum.inr_ne_inl
      | float b =>
        change (a.rank == b.rank) = true ↔ Sum.inr a.rank = Sum.inr b.rank
        rw [beq_iff_eq, Sum.inr.injEq]

/-- Numbers that are equal are both zero, or none of them is. -/
theorem Number.isZero_of_beq {a b : Number} (h : a == b) : a.isZero = b.isZero := by
  have hrank (d : Double) : d.isZero = (d.rank == 0) := by
    rw [Double.isZero, Double.rank]
    split <;> simp [Bool.beq_eq_decide_eq]
  cases a with
  | int x =>
    cases b with
    | int y =>
      obtain rfl : x = y := beq_iff_eq.mp h
      rfl
    | float y => cases h
  | float x =>
    cases b with
    | int y => cases h
    | float y =>
      have hsame : x.rank = y.rank := beq_iff_eq.mp h
      rw [isZero, isZero, hrank, hrank, hsame]

/-! ## Lists compared item by item -/

section Forall₂

variable {α : Type} {r : α → α → Prop} {as bs cs : List α}

theorem forall₂_symm (hsymm : ∀ a ∈ as, ∀ b, r a b → r b a) (h : List.Forall₂ r as bs) :
    List.Forall₂ r bs as := by
  induction h with
  | nil => exact .nil
  | cons hab _ ih =>
    obtain ⟨ha, has⟩ := List.forall_mem_cons.mp hsymm
    exact .cons (ha _ hab) (ih has)

theorem forall₂_trans (htrans : ∀ a ∈ as, ∀ b c, r a b → r b c → r a c)
    (hab : List.Forall₂ r as bs) (hbc : List.Forall₂ r bs cs) : List.Forall₂ r as cs := by
  induction hab generalizing cs with
  | nil => exact hbc
  | cons hab _ ih =>
    obtain ⟨ha, has⟩ := List.forall_mem_cons.mp htrans
    cases hbc with
    | cons hbc htail => exact .cons (ha _ _ hab hbc) (ih has htail)

theorem isEmpty_of_forall₂ (h : List.Forall₂ r as bs) : as.isEmpty = bs.isEmpty := by
  cases h <;> rfl

end Forall₂

namespace Value

/-- Members agree when they have one name and equal values. -/
def AgreeAt (a b : String × Value) : Prop := a.1 = b.1 ∧ a.2 == b.2

theorem equalItems_iff {as bs : List Value} :
    equalItems as bs = true ↔ List.Forall₂ (fun a b => a == b) as bs := by
  induction as generalizing bs with
  | nil => cases bs <;> simp [equalItems]
  | cons a as ih =>
    cases bs with
    | nil => simp [equalItems]
    | cons b bs =>
      rw [equalItems, Bool.and_eq_true, ih, List.forall₂_cons]
      rfl

theorem equalMembers_iff {as bs : List (String × Value)} :
    equalMembers as bs = true ↔ List.Forall₂ AgreeAt as bs := by
  induction as generalizing bs with
  | nil => cases bs <;> simp [equalMembers]
  | cons a as ih =>
    cases bs with
    | nil => simp [equalMembers]
    | cons b bs =>
      rw [equalMembers, Bool.and_eq_true, Bool.and_eq_true, ih, beq_iff_eq, List.forall₂_cons]
      rfl

theorem array_beq_array {as bs : List Value} :
    (array as == array bs) = true ↔ List.Forall₂ (fun a b => a == b) as bs :=
  equalItems_iff

theorem object_beq_object {as bs : List (String × Value)} :
    (object as == object bs) = true ↔ List.Forall₂ AgreeAt as bs :=
  equalMembers_iff

theorem beq_refl (value : Value) : (value == value) = true := by
  induction value using induct with
  | null => rfl
  | bool b => exact BEq.refl b
  | number n => exact BEq.refl n
  | string text => exact BEq.refl text
  | array items ih => exact array_beq_array.mpr (List.forall₂_same.mpr ih)
  | object members ih =>
    exact object_beq_object.mpr (List.forall₂_same.mpr fun entry hentry => ⟨rfl, ih entry hentry⟩)

theorem beq_symm {a b : Value} (h : a == b) : b == a := by
  induction a using induct generalizing b with
  | null => cases b <;> exact h
  | bool x =>
    cases b with
    | bool y => exact BEq.symm (α := Bool) h
    | _ => exact h
  | number x =>
    cases b with
    | number y => exact BEq.symm (α := Number) h
    | _ => exact h
  | string x =>
    cases b with
    | string y => exact BEq.symm (α := String) h
    | _ => exact h
  | array items ih =>
    cases b with
    | array others =>
      exact array_beq_array.mpr
        (forall₂_symm (fun item hitem _ => ih item hitem) (array_beq_array.mp h))
    | _ => exact h
  | object members ih =>
    cases b with
    | object others =>
      refine object_beq_object.mpr (forall₂_symm ?_ (object_beq_object.mp h))
      exact fun entry hentry _ hagree => ⟨hagree.1.symm, ih entry hentry hagree.2⟩
    | _ => exact h

theorem beq_trans {a b c : Value} (hab : a == b) (hbc : b == c) : a == c := by
  induction a using induct generalizing b c with
  | null =>
    cases b with
    | null => exact hbc
    | _ => exact nomatch hab
  | bool x =>
    cases b with
    | bool y =>
      cases c with
      | bool z => exact BEq.trans (α := Bool) hab hbc
      | _ => exact hbc
    | _ => exact nomatch hab
  | number x =>
    cases b with
    | number y =>
      cases c with
      | number z => exact BEq.trans (α := Number) hab hbc
      | _ => exact hbc
    | _ => exact nomatch hab
  | string x =>
    cases b with
    | string y =>
      cases c with
      | string z => exact BEq.trans (α := String) hab hbc
      | _ => exact hbc
    | _ => exact nomatch hab
  | array items ih =>
    cases b with
    | array others =>
      cases c with
      | array rest =>
        refine array_beq_array.mpr
          (forall₂_trans ?_ (array_beq_array.mp hab) (array_beq_array.mp hbc))
        exact fun item hitem _ _ => ih item hitem
      | _ => exact nomatch hbc
    | _ => exact nomatch hab
  | object members ih =>
    cases b with
    | object others =>
      cases c with
      | object rest =>
        refine object_beq_object.mpr
          (forall₂_trans ?_ (object_beq_object.mp hab) (object_beq_object.mp hbc))
        exact fun entry hentry _ _ hab hbc =>
          ⟨hab.1.trans hbc.1, ih entry hentry hab.2 hbc.2⟩
      | _ => exact nomatch hbc
    | _ => exact nomatch hab

instance : EquivBEq Value where
  rfl := beq_refl _
  symm := beq_symm
  trans := beq_trans

/-- Equal objects have equal members. -/
theorem member_beq {a b : Value} (h : a == b) (name : String) :
    (a.member name == b.member name) = true := by
  cases a with
  | object members =>
    cases b with
    | object members' =>
      have hfind := find?_of_forall₂ (object_beq_object.mp h)
        (p := fun entry => entry.1 == name) (q := fun entry => entry.1 == name)
        fun entry entry' hentry => by rw [hentry.1]
      rcases optionRel_cases hfind with ⟨hnone, hnone'⟩ | ⟨entry, entry', hsome, hsome', hentry⟩
      · simp only [member, member?, Catalog.findEntry, hnone, hnone']
        exact BEq.refl _
      · simp only [member, member?, Catalog.findEntry, hsome, hsome']
        exact hentry.2
    | _ => cases h
  | _ =>
    cases b with
    | object members => cases h
    | _ => exact BEq.refl _

end Value

end TaggedSchema
