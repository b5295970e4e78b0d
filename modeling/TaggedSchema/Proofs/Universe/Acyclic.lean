import Mathlib.Logic.Relation
import TaggedSchema.Proofs.Universe.Resolution

/-!
# Universes in which no alias contains itself

An alias mentions the names in the reference that it stands for, at any depth. Where no alias leads
back to itself in this way, each alias is expanded at most once on the way into a reference, so
that references lie only finitely deep inside each other. What structs are made of does not matter.
-/

namespace TaggedSchema

/-- The names in a reference, at any depth. -/
def TypeRef.mentions : TypeRef → List String
  | scalar _ => []
  | pointer target => target.mentions
  | slice element => element.mentions
  | map key value => key.mentions ++ value.mentions
  | named name => [name]

/-- The references that a shape is made of. -/
def Shape.parts : Shape → List TypeRef
  | slice element => [element]
  | map key value => [key, value]
  | scalar _ | struct _ => []

namespace Universe

open Relation

/-- The name is that of an alias that mentions the other name. -/
def Mentions (types : Universe) (name mentioned : String) : Prop :=
  ∃ underlying, types.underlying? name = some underlying ∧ mentioned ∈ underlying.mentions

/-- No alias leads to its own name. -/
def Acyclic (types : Universe) : Prop :=
  ∀ name, ¬TransGen types.Mentions name name

/-- The elements, keys or values at the reference are of the inner one. -/
def InsideOf (types : Universe) (inner ref : TypeRef) : Prop :=
  ∃ resolved, types.resolve ref = .ok resolved ∧ inner ∈ resolved.shape.parts

section

variable {types : Universe} {ref element key value : TypeRef} {resolved : Resolved}
variable (h : types.resolve ref = .ok resolved)

include h

theorem insideOf_element (hshape : resolved.shape = .slice element) :
    types.InsideOf element ref :=
  ⟨resolved, h, hshape ▸ List.mem_singleton_self element⟩

theorem insideOf_key (hshape : resolved.shape = .map key value) : types.InsideOf key ref :=
  ⟨resolved, h, hshape ▸ List.mem_cons_self⟩

theorem insideOf_value (hshape : resolved.shape = .map key value) : types.InsideOf value ref :=
  ⟨resolved, h, hshape ▸ List.mem_cons_of_mem key (List.mem_singleton_self value)⟩

end

/-- Fewer than so many references lie inside each other in this one. -/
def NestsWithin (types : Universe) : Nat → TypeRef → Prop
  | 0, _ => False
  | depth + 1, ref => ∀ inner, types.InsideOf inner ref → NestsWithin types depth inner

variable {types : Universe} {ref next last inner : TypeRef} {passed : List TypeRef}
  {names : List String} {name : String} {depth : Nat}

/-! ## Depth -/

theorem NestsWithin.acc (h : types.NestsWithin depth ref) : Acc types.InsideOf ref := by
  induction depth generalizing ref with
  | zero => cases h
  | succ depth ih => exact ⟨_, fun inner hinner => ih (h inner hinner)⟩

/-! ## Names above a reference -/

/-- The name leads to all that the reference mentions. -/
def Above (types : Universe) (name : String) (ref : TypeRef) : Prop :=
  ∀ mentioned ∈ ref.mentions, TransGen types.Mentions name mentioned

theorem Above.of_next? (h : types.Above name ref) (hnext : types.next? ref = some next) :
    types.Above name next := by
  cases ref with
  | pointer target =>
    cases hnext
    exact h
  | named other =>
    intro mentioned hmentioned
    exact (h other (List.mem_singleton_self other)).tail ⟨next, hnext, hmentioned⟩
  | _ => cases hnext

theorem above_of_underlying? (h : types.underlying? name = some ref) : types.Above name ref :=
  fun _ hmentioned => .single ⟨ref, h, hmentioned⟩

theorem Above.of_passes (h : types.Above name ref) (hpasses : types.Passes ref passed last) :
    types.Above name last := by
  induction hpasses with
  | here => exact h
  | step hnext _ ih => exact ih (h.of_next? hnext)

/-- What is above the beginning of a way leads to every name on it. -/
theorem Above.leadsTo (h : types.Above name ref) (hpasses : types.Passes ref passed last)
    {met : String} (hmet : met ∈ metNames passed) : TransGen types.Mentions name met := by
  induction hpasses with
  | here => cases hmet
  | @step ref next last passed hnext hrest ih =>
    cases ref with
    | named other =>
      rw [metNames_cons_named] at hmet
      rcases List.mem_cons.mp hmet with rfl | hmet
      · exact h met (List.mem_singleton_self met)
      · exact ih (h.of_next? hnext) hmet
    | pointer target => exact ih (h.of_next? hnext) hmet
    | _ => cases hnext

/-- The names on a way are above its end. -/
theorem Passes.above (h : types.Passes ref passed last) (hname : name ∈ metNames passed) :
    types.Above name last := by
  induction h with
  | here => cases hname
  | @step ref next last passed hnext hrest ih =>
    cases ref with
    | named other =>
      rw [metNames_cons_named] at hname
      rcases List.mem_cons.mp hname with rfl | hname
      · exact (above_of_underlying? hnext).of_passes hrest
      · exact ih hname
    | pointer target => exact ih hname
    | _ => cases hnext

/-! ## Inside a reference -/

theorem cases_of_parts {shape : Shape} (hshape : types.shapeAt? ref = some shape)
    (hinner : inner ∈ shape.parts) :
    ref = .slice inner ∨ ∃ other, ref = .map inner other ∨ ref = .map other inner := by
  cases ref with
  | slice element =>
    cases hshape
    exact .inl (congrArg _ (List.mem_singleton.mp hinner).symm)
  | map key value =>
    cases hshape
    rcases List.mem_pair.mp hinner with rfl | rfl
    · exact .inr ⟨value, .inl rfl⟩
    · exact .inr ⟨key, .inr rfl⟩
  | named name =>
    obtain ⟨rfl, -⟩ := shapeAt?_named_eq_some hshape
    cases hinner
  | scalar kind =>
    cases hshape
    cases hinner
  | pointer target => cases hshape

theorem size_lt_of_parts {shape : Shape} (hshape : types.shapeAt? ref = some shape)
    (hinner : inner ∈ shape.parts) : inner.size < ref.size := by
  obtain rfl | ⟨other, rfl | rfl⟩ := cases_of_parts hshape hinner
  all_goals
    rw [TypeRef.size]
    omega

theorem Above.of_parts {shape : Shape} (h : types.Above name ref)
    (hshape : types.shapeAt? ref = some shape) (hinner : inner ∈ shape.parts) :
    types.Above name inner := by
  obtain rfl | ⟨other, rfl | rfl⟩ := cases_of_parts hshape hinner
  · exact h
  · exact fun mentioned hmentioned => h mentioned (List.mem_append_left _ hmentioned)
  · exact fun mentioned hmentioned => h mentioned (List.mem_append_right _ hmentioned)

/-- The size of all that the aliases of these names stand for. -/
def sizeBehind (types : Universe) (names : List String) : Nat :=
  ((names.filterMap types.underlying?).map TypeRef.size).sum

theorem sizeBehind_append (names names' : List String) :
    types.sizeBehind (names ++ names') = types.sizeBehind names + types.sizeBehind names' := by
  rw [sizeBehind, List.filterMap_append, List.map_append, List.sum_append]
  rfl

/-- On the way inwards other names are met than above the reference, and what the aliases stand for
makes up for what the reference gains in size. -/
theorem Acyclic.insideOf (h : types.Acyclic) (hdistinct : names.Nodup)
    (habove : ∀ name ∈ names, types.Above name ref) (hinner : types.InsideOf inner ref) :
    ∃ met, (names ++ met).Nodup ∧ (∀ name ∈ names ++ met, types.Above name inner) ∧
      inner.size + types.sizeBehind names < ref.size + types.sizeBehind (names ++ met) := by
  obtain ⟨resolved, hresolve, hpart⟩ := hinner
  obtain ⟨passed, last, hpasses, hmet, hreports⟩ := resolve_eq_iff.mp hresolve
  obtain ⟨hshape, -, -⟩ := reports_ok_iff.mp hreports
  refine ⟨metNames passed, ?_, ?_, ?_⟩
  · refine List.nodup_append.mpr ⟨hdistinct, hmet, ?_⟩
    rintro name hname _ hmet rfl
    -- A name above the reference that is met again would lead to itself.
    exact h name ((habove name hname).leadsTo hpasses hmet)
  · refine List.forall_mem_append.mpr ⟨fun name hname => ?_, fun name hname => ?_⟩
    · exact ((habove name hname).of_passes hpasses).of_parts hshape hpart
    · exact (hpasses.above hname).of_parts hshape hpart
  · have hlength : passed.length + last.size ≤ ref.size + types.sizeBehind (metNames passed) :=
      hpasses.length_add_size_le
    have hsize := size_lt_of_parts hshape hpart
    rw [sizeBehind_append]
    omega

/-- The induction is on the depth. The names of the aliases that have been expanded on the way
inwards differ and are above the reference. -/
theorem Acyclic.nestsWithin_below (h : types.Acyclic) (hdistinct : names.Nodup)
    (habove : ∀ name ∈ names, types.Above name ref)
    (hdepth : ref.size + types.aliasSize < depth + types.sizeBehind names) :
    types.NestsWithin depth ref := by
  induction depth generalizing ref names with
  | zero =>
    have hsum : types.sizeBehind names ≤ types.aliasSize := sum_size_le_aliasSize hdistinct
    omega
  | succ depth ih =>
    intro inner hinner
    obtain ⟨met, hdistinct, habove, hsize⟩ := h.insideOf hdistinct habove hinner
    exact ih hdistinct habove (by omega)

/-- Each alias is expanded at most once on the way inwards. -/
theorem Acyclic.nestsWithin (h : types.Acyclic) (ref : TypeRef) :
    types.NestsWithin (ref.size + types.aliasSize + 1) ref :=
  h.nestsWithin_below .nil (List.forall_mem_nil _) (Nat.lt_succ_self _)

theorem Acyclic.wellFounded (h : types.Acyclic) : WellFounded types.InsideOf :=
  ⟨fun ref => (h.nestsWithin ref).acc⟩

/-- Aliases that only mention names of a lower rank do not contain themselves. -/
theorem acyclic_of_rank (rank : String → Nat)
    (h : ∀ type ∈ types.entries, ∀ underlying ∈ type.underlying?,
      ∀ mentioned ∈ underlying.mentions, rank mentioned < rank type.name) : types.Acyclic := by
  have hstep {name mentioned : String} (hmentions : types.Mentions name mentioned) :
      rank mentioned < rank name := by
    obtain ⟨underlying, hunderlying, hmentioned⟩ := hmentions
    obtain ⟨type, hget, hunderlying⟩ := Option.bind_eq_some_iff.mp hunderlying
    rw [← Catalog.name_of_findEntry hget]
    exact h type (Catalog.mem_of_get? hget) underlying hunderlying mentioned hmentioned
  have hrun {name other : String} (hleads : TransGen types.Mentions name other) :
      rank other < rank name := by
    induction hleads with
    | single hmentions => exact hstep hmentions
    | tail _ hmentions ih => exact (hstep hmentions).trans ih
  exact fun name hleads => Nat.lt_irrefl _ (hrun hleads)

end Universe

end TaggedSchema
