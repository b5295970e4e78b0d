import TaggedSchema.Proofs.Catalog
import TaggedSchema.Value.Reader

/-!
# Values in canonical form

The values that are read have the members of each object in name order. In such an object a member
is found wherever the members are listed, and the other way round.
-/

namespace TaggedSchema

namespace Value

theorem canonicalItems_iff {items : List Value} :
    CanonicalItems items ↔ ∀ item ∈ items, item.Canonical := by
  induction items with
  | nil => exact ⟨fun _ _ h => (nomatch h), fun _ => trivial⟩
  | cons item items ih => rw [CanonicalItems, ih, List.forall_mem_cons]

theorem canonicalMembers_iff {members : List (String × Value)} :
    CanonicalMembers members ↔ ∀ entry ∈ members, entry.2.Canonical := by
  induction members with
  | nil => exact ⟨fun _ _ h => (nomatch h), fun _ => trivial⟩
  | cons entry members ih => rw [CanonicalMembers, ih, List.forall_mem_cons]

namespace Canonical

variable {members : List (String × Value)} {name : String} {inner : Value}

theorem of_mem (h : (object members).Canonical) (hmem : (name, inner) ∈ members) :
    inner.Canonical :=
  canonicalMembers_iff.mp h.2 _ hmem

theorem member?_of_mem (h : (object members).Canonical) (hmem : (name, inner) ∈ members) :
    (object members).member? name = some inner := by
  rw [member?, Catalog.findEntry_of_mem h.1 hmem]
  rfl

theorem member {value : Value} (h : value.Canonical) (name : String) :
    (value.member name).Canonical := by
  cases value with
  | object members =>
    rw [Value.member, member?]
    cases hfind : Catalog.findEntry Prod.fst name members with
    | none => exact trivial
    | some entry => exact h.of_mem (List.mem_of_find?_eq_some hfind)
  | _ => exact trivial

end Canonical

theorem canonical_ofMembers {members : List (String × Value)}
    (h : ∀ entry ∈ members, entry.2.Canonical) : (ofMembers members).Canonical := by
  refine ⟨Catalog.sorted_ofEntries Prod.fst members, canonicalMembers_iff.mpr ?_⟩
  exact fun entry hentry => h entry (Catalog.mem_ofEntries hentry)

/-! ## What is read -/

/-- What is open holds values in canonical form only. -/
def Open.Canonical : Open → Prop
  | items done => ∀ item ∈ done, item.Canonical
  | members done _ => ∀ entry ∈ done, entry.2.Canonical

/-- So does the whole state of the reader. -/
def CanonicalState : List Open × Expected → Prop
  | (stack, expected) =>
    (∀ part ∈ stack, part.Canonical) ∧ ∀ result, expected = .nothing result → result.Canonical

theorem canonicalState_of_stack {stack : List Open} {expected : Expected}
    (hstack : ∀ part ∈ stack, part.Canonical) (h : ∀ result, expected ≠ .nothing result) :
    CanonicalState (stack, expected) :=
  ⟨hstack, fun result heq => absurd heq (h result)⟩

theorem place_canonical {value : Value} {stack : List Open} (hvalue : value.Canonical)
    (hstack : ∀ part ∈ stack, part.Canonical) : CanonicalState (place value stack) := by
  cases stack with
  | nil =>
    refine ⟨fun _ h => (nomatch h), ?_⟩
    intro result heq
    cases heq
    exact hvalue
  | cons part stack =>
    obtain ⟨hpart, hrest⟩ := List.forall_mem_cons.mp hstack
    cases part with
    | items done =>
      have hplaced : (Open.items (value :: done)).Canonical :=
        List.forall_mem_cons.mpr ⟨hvalue, hpart⟩
      exact canonicalState_of_stack (List.forall_mem_cons.mpr ⟨hplaced, hrest⟩) nofun
    | members done name =>
      have hplaced : (Open.members ((name, value) :: done) name).Canonical :=
        List.forall_mem_cons.mpr ⟨hvalue, hpart⟩
      exact canonicalState_of_stack (List.forall_mem_cons.mpr ⟨hplaced, hrest⟩) nofun

theorem close?_canonical {c : Char} {stack : List Open} {state : List Open × Expected}
    (hstack : ∀ part ∈ stack, part.Canonical) (h : close? c stack = some state) :
    CanonicalState state := by
  cases stack with
  | nil => cases h
  | cons part stack =>
    obtain ⟨hpart, hrest⟩ := List.forall_mem_cons.mp hstack
    cases part with
    | items done =>
      rw [close?, Option.ite_none_right_eq_some] at h
      obtain ⟨-, ⟨⟩⟩ := h
      refine place_canonical (canonicalItems_iff.mpr ?_) hrest
      intro item hitem
      exact hpart item (List.mem_reverse.mp hitem)
    | members done name =>
      rw [close?, Option.ite_none_right_eq_some] at h
      obtain ⟨-, ⟨⟩⟩ := h
      refine place_canonical (canonical_ofMembers ?_) hrest
      intro entry hentry
      exact hpart entry (List.mem_reverse.mp hentry)

/-- Every token leaves values in canonical form, as long as a literal is one. -/
theorem step?_canonical {token : Token} {state state' : List Open × Expected}
    (hstate : CanonicalState state) (hliteral : ∀ value, token = .literal value → value.Canonical)
    (h : step? token state = some state') : CanonicalState state' := by
  obtain ⟨hstack, -⟩ := hstate
  rw [step?.eq_def] at h
  split at h
  next stack mayClose =>
    -- A value is expected.
    split at h
    next value =>
      cases h
      exact place_canonical (hliteral value rfl) hstack
    next text =>
      cases h
      have htext : (string text).Canonical := trivial
      exact place_canonical htext hstack
    next c =>
      have hopened (opened : Open) (h : opened.Canonical) :
          ∀ part ∈ opened :: stack, part.Canonical :=
        List.forall_mem_cons.mpr ⟨h, hstack⟩
      split at h
      · cases h
        exact canonicalState_of_stack (hopened (.items []) fun _ h => (nomatch h)) nofun
      · split at h
        · cases h
          exact canonicalState_of_stack (hopened (.members [] "") fun _ h => (nomatch h)) nofun
        · rw [Option.ite_none_right_eq_some] at h
          exact close?_canonical hstack h.2
  next done name stack mayClose =>
    -- The name of a member is expected.
    obtain ⟨hpart, hrest⟩ := List.forall_mem_cons.mp hstack
    have hopened (name : String) : ∀ part ∈ .members done name :: stack, part.Canonical :=
      List.forall_mem_cons.mpr ⟨hpart, hrest⟩
    split at h
    next name =>
      cases h
      exact canonicalState_of_stack (hopened name) nofun
    next c =>
      rw [Option.ite_none_right_eq_some] at h
      exact close?_canonical (hopened "") h.2
    next => cases h
  next stack =>
    split at h
    next =>
      cases h
      exact canonicalState_of_stack hstack nofun
    next => cases h
  next stack =>
    split at h
    next =>
      cases h
      exact canonicalState_of_stack hstack nofun
    next =>
      cases h
      exact canonicalState_of_stack hstack nofun
    next c _ => exact close?_canonical hstack h
    next => cases h
  next => cases h

theorem steps_canonical {tokens : List Token} {state state' : List Open × Expected}
    (hstate : CanonicalState state)
    (hliteral : ∀ value, .literal value ∈ tokens → value.Canonical)
    (h : tokens.foldlM (fun state token => step? token state) state = some state') :
    CanonicalState state' := by
  induction tokens generalizing state with
  | nil =>
    cases h
    exact hstate
  | cons token tokens ih =>
    rw [List.foldlM_cons] at h
    obtain ⟨next, hstep, h⟩ := Option.bind_eq_some_iff.mp h
    have hnext := step?_canonical hstate
      (fun value heq => hliteral value (heq ▸ List.mem_cons_self)) hstep
    exact ih hnext (fun value hvalue => hliteral value (List.mem_cons_of_mem _ hvalue)) h

end Value

theorem Token.canonical_of_literal? {word : List Char} {value : Value}
    (h : literal? word = some value) : value.Canonical := by
  rw [literal?] at h
  split at h
  · cases h
    exact trivial
  · split at h
    · cases h
      exact trivial
    · split at h
      · cases h
        exact trivial
      · obtain ⟨number, -, rfl⟩ := Option.map_eq_some_iff.mp h
        exact trivial

theorem Token.canonical_of_mem {input : List Char} {tokens : List Token} {value : Value}
    (h : ofText? input = some tokens) (hmem : .literal value ∈ tokens) : value.Canonical := by
  fun_induction ofText? input generalizing tokens with
  | case1 =>
    cases h
    cases hmem
  | case2 c rest hblank ih => exact ih h hmem
  | case3 => cases h
  | case4 c rest hblank token rest' hnext ih =>
    obtain ⟨others, hothers, rfl⟩ := Option.map_eq_some_iff.mp h
    rcases List.mem_cons.mp hmem with rfl | hmem
    · unfold next? at hnext
      split at hnext
      · cases hnext
      · split at hnext
        · simp only [Option.bind_eq_bind, Option.bind_eq_some_iff] at hnext
          obtain ⟨-, -, -, -, ⟨⟩⟩ := hnext
        · split at hnext
          · obtain ⟨value, hliteral, ⟨⟩⟩ := Option.map_eq_some_iff.mp hnext
            exact canonical_of_literal? hliteral
          · cases hnext
    · exact ih hothers hmem

/-- What is read is in canonical form. -/
theorem Value.canonical_of_ofText? {text : String} {value : Value}
    (h : ofText? text = some value) : value.Canonical := by
  simp only [ofText?, Option.bind_eq_bind, Option.bind_eq_some_iff] at h
  obtain ⟨tokens, htokens, ⟨stack, expected⟩, hsteps, h⟩ := h
  have hfirst : CanonicalState ([], .item false) :=
    canonicalState_of_stack (fun _ h => (nomatch h)) nofun
  have hlast := steps_canonical hfirst
    (fun value hvalue => Token.canonical_of_mem htokens hvalue) hsteps
  split at h
  next result heq =>
    cases heq
    cases h
    exact hlast.2 _ rfl
  next => cases h

end TaggedSchema
