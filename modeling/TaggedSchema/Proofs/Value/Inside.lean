import TaggedSchema.Value.Basic

/-!
# What lies inside a value

Values contain values inside lists, so what is said of all values is proved from what holds of the
items and members. A walk also meets values that the value does not hold: a missing member or item
is null, and the keys of an object are read as scalars.
-/

namespace TaggedSchema.Value

/-- Induction on values, where the items and members of a value come before it. -/
@[elab_as_elim]
theorem induct {motive : Value → Prop} (null : motive null) (bool : ∀ b, motive (bool b))
    (number : ∀ n, motive (number n)) (string : ∀ text, motive (string text))
    (array : ∀ items, (∀ item ∈ items, motive item) → motive (array items))
    (object : ∀ members, (∀ entry ∈ members, motive entry.2) → motive (object members))
    (value : Value) : motive value :=
  @Value.rec motive (fun items => ∀ item ∈ items, motive item)
    (fun members => ∀ entry ∈ members, motive entry.2) (fun entry => motive entry.2)
    null bool number string array object
    (fun _ h => nomatch h)
    (fun _ _ hitem hitems => List.forall_mem_cons.mpr ⟨hitem, hitems⟩)
    (fun _ h => nomatch h)
    (fun _ _ hentry hmembers => List.forall_mem_cons.mpr ⟨hentry, hmembers⟩)
    (fun _ _ h => h) value

/-- Whether nothing lies inside the value. -/
def isScalar : Value → Bool
  | array _ | object _ => false
  | _ => true

/-- The values that can be met inside a value. -/
inductive LiesIn : Value → Value → Prop where
  | item {items : List Value} {item : Value} (h : item ∈ items) : LiesIn item (array items)
  | entry {members : List (String × Value)} {entry : String × Value} (h : entry ∈ members) :
      LiesIn entry.2 (object members)
  | missingItem (items : List Value) : LiesIn null (array items)
  | scalar {value : Value} (members : List (String × Value)) (h : value.isScalar = true) :
      LiesIn value (object members)

/-- Induction on values from the inside out. -/
@[elab_as_elim]
theorem liesIn_induct {motive : Value → Prop}
    (step : ∀ value, (∀ inner, inner.LiesIn value → motive inner) → motive value)
    (value : Value) : motive value := by
  have hscalar (value : Value) (h : value.isScalar = true) : motive value :=
    step value fun inner hinner => by cases hinner <;> cases h
  induction value using induct with
  | null | bool | number | string => exact hscalar _ rfl
  | array items ih =>
    apply step
    intro inner hinner
    cases hinner with
    | item hitem => exact ih _ hitem
    | missingItem => exact hscalar _ rfl
  | object members ih =>
    apply step
    intro inner hinner
    cases hinner with
    | entry hentry => exact ih _ hentry
    | scalar _ h => exact hscalar _ h

theorem member_liesIn (members : List (String × Value)) (name : String) :
    ((object members).member name).LiesIn (object members) := by
  rw [member, member?]
  cases hfind : Catalog.findEntry Prod.fst name members with
  | none => exact .scalar members rfl
  | some entry => exact .entry (List.mem_of_find?_eq_some hfind)

end TaggedSchema.Value
