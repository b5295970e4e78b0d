import Mathlib.Algebra.Order.BigOperators.Group.List
import Mathlib.Algebra.GroupWithZero.Nat
import Mathlib.Algebra.Order.Group.Nat
import Mathlib.Data.List.Nodup
import Mathlib.Data.List.Perm.Subperm
import TaggedSchema.Proofs.Universe.References

/-!
# The way to the shape of a reference

A reference is resolved step by step: a pointer is taken off, or an alias replaced by what it stands
for. There is one way to go on, and it ends at a shape, at a name without a definition, or at a name
that has been met before. Resolving a reference reports which of the three it is.
-/

namespace TaggedSchema

namespace TypeRef

def name? : TypeRef → Option String
  | named name => some name
  | _ => none

theorem eq_named_of_name? {ref : TypeRef} {name : String} (h : ref.name? = some name) :
    ref = .named name := by
  cases ref with
  | named other => exact congrArg named (Option.some.inj h)
  | _ => cases h

end TypeRef

/-- The names among some references. -/
def metNames (refs : List TypeRef) : List String :=
  refs.filterMap TypeRef.name?

theorem metNames_append (refs refs' : List TypeRef) :
    metNames (refs ++ refs') = metNames refs ++ metNames refs' :=
  List.filterMap_append

theorem metNames_cons_named (name : String) (refs : List TypeRef) :
    metNames (.named name :: refs) = name :: metNames refs :=
  rfl

theorem metNames_cons_pointer (target : TypeRef) (refs : List TypeRef) :
    metNames (.pointer target :: refs) = metNames refs :=
  rfl

theorem metNames_concat_named (refs : List TypeRef) (name : String) :
    metNames (refs ++ [.named name]) = metNames refs ++ [name] :=
  metNames_append refs _

theorem metNames_concat_of_name? {ref : TypeRef} (h : ref.name? = none) {refs : List TypeRef} :
    metNames (refs ++ [ref]) = metNames refs := by
  rw [metNames_append, metNames, metNames, List.filterMap_cons, h]
  exact List.append_nil _

namespace Universe

/-- What a name stands for if it is the name of an alias. -/
def underlying? (types : Universe) (name : String) : Option TypeRef :=
  (types.get? name).bind TypeDef.underlying?

/-- The reference that comes after another one. -/
def next? (types : Universe) : TypeRef → Option TypeRef
  | .pointer target => some target
  | .named name => types.underlying? name
  | _ => none

/-- The shape of a reference that is no pointer and no alias. -/
def shapeAt? (types : Universe) : TypeRef → Option Shape
  | .scalar kind => some (.scalar kind)
  | .pointer _ => none
  | .slice element => some (.slice element)
  | .map key value => some (.map key value)
  | .named name =>
    match types.get? name with
    | some type => if type.isAlias then none else some (.struct name)
    | none => none

/-- From one reference the way leads to another, and passes these references before it. -/
inductive Passes (types : Universe) : TypeRef → List TypeRef → TypeRef → Prop where
  | here (ref : TypeRef) : Passes types ref [] ref
  | step {ref next last : TypeRef} {passed : List TypeRef} (hnext : types.next? ref = some next)
      (hrest : Passes types next passed last) : Passes types ref (ref :: passed) last

variable {types : Universe} {ref next last last' : TypeRef} {passed passed' : List TypeRef}
  {name : String}

/-! ## One way -/

theorem Passes.append (h : types.Passes ref passed last) (h' : types.Passes last passed' last') :
    types.Passes ref (passed ++ passed') last' := by
  induction h with
  | here => exact h'
  | step hnext hrest ih => exact .step hnext (ih h')

theorem Passes.concat (h : types.Passes ref passed last) (hnext : types.next? last = some next) :
    types.Passes ref (passed ++ [last]) next :=
  h.append (.step hnext (.here next))

theorem Passes.next?_ne_none (h : types.Passes ref passed last) {other : TypeRef}
    (hother : other ∈ passed) : types.next? other ≠ none := by
  induction h with
  | here => cases hother
  | step hnext hrest ih =>
    rcases List.mem_cons.mp hother with rfl | hother
    · rw [hnext]
      exact Option.some_ne_none _
    · exact ih hother

theorem Passes.underlying?_ne_none (h : types.Passes ref passed last)
    (hname : name ∈ metNames passed) : types.underlying? name ≠ none := by
  obtain ⟨other, hother, hsome⟩ := List.mem_filterMap.mp hname
  cases other with
  | named other =>
    cases hsome
    exact h.next?_ne_none hother
  | _ => cases hsome

/-- The names that are passed are those of aliases. -/
theorem Passes.exists_alias (h : types.Passes ref passed last) (hname : name ∈ metNames passed) :
    ∃ type, types.get? name = some type ∧ type.isAlias = true := by
  have halias := h.underlying?_ne_none hname
  rw [underlying?] at halias
  cases hget : types.get? name with
  | none => simp [hget] at halias
  | some type =>
    rw [hget, Option.bind_some] at halias
    refine ⟨type, rfl, Bool.not_eq_false _ ▸ fun hno => halias ?_⟩
    rw [TypeDef.underlying?]
    rw [TypeDef.isAlias] at hno
    split <;> simp_all

/-- Of two ways from one reference, the shorter one is the beginning of the other. -/
theorem Passes.comparable (h : types.Passes ref passed last)
    (h' : types.Passes ref passed' last') :
    (passed = passed' ∧ last = last') ∨ passed ++ [last] <+: passed' ∨
      passed' ++ [last'] <+: passed := by
  induction h generalizing passed' with
  | here ref =>
    cases h' with
    | here => exact .inl ⟨rfl, rfl⟩
    | step hnext hrest => exact .inr (.inl (by simp))
  | @step ref next last passed hnext hrest ih =>
    cases h' with
    | here => exact .inr (.inr (by simp))
    | step hnext' hrest' =>
      cases hnext.symm.trans hnext'
      rcases ih hrest' with ⟨rfl, rfl⟩ | hprefix | hprefix
      · exact .inl ⟨rfl, rfl⟩
      · exact .inr (.inl (List.cons_prefix_cons.mpr ⟨rfl, hprefix⟩))
      · exact .inr (.inr (List.cons_prefix_cons.mpr ⟨rfl, hprefix⟩))

/-- The way ends at `last`: nothing comes after it, or it is a name that has been met before. -/
def EndsAt (types : Universe) (passed : List TypeRef) (last : TypeRef) : Prop :=
  types.next? last = none ∨ ∃ name, last = .named name ∧ name ∈ metNames passed

theorem EndsAt.not_prefix (hends : types.EndsAt passed last)
    (h' : types.Passes ref passed' last') (hdistinct : (metNames passed').Nodup) :
    ¬passed ++ [last] <+: passed' := by
  rintro ⟨rest, rfl⟩
  rcases hends with hnone | ⟨name, rfl, hname⟩
  · exact h'.next?_ne_none (by simp) hnone
  · rw [metNames_append, metNames_append, List.nodup_append, List.nodup_append] at hdistinct
    exact hdistinct.1.2.2 name hname name (List.mem_singleton_self name) rfl

/-- There is one way on which no name is met twice before its end. -/
theorem Passes.unique (h : types.Passes ref passed last) (hdistinct : (metNames passed).Nodup)
    (hends : types.EndsAt passed last) (h' : types.Passes ref passed' last')
    (hdistinct' : (metNames passed').Nodup) (hends' : types.EndsAt passed' last') :
    passed = passed' ∧ last = last' := by
  rcases h.comparable h' with hsame | hprefix | hprefix
  · exact hsame
  · exact absurd hprefix (hends.not_prefix h' hdistinct')
  · exact absurd hprefix (hends'.not_prefix h hdistinct)

/-! ## The end of the way -/

/-- What is reported at the end of the way. -/
inductive Reports (types : Universe) (passed : List TypeRef) :
    TypeRef → Except TypeError Resolved → Prop where
  | shape {last : TypeRef} {shape : Shape} (hshape : types.shapeAt? last = some shape) :
      Reports types passed last
        (.ok ⟨shape, passed.any TypeRef.isPointer, metNames (passed ++ [last])⟩)
  | unknown {name : String} (hget : types.get? name = none) :
      Reports types passed (.named name) (.error (.unknownType name))
  | cycle {name : String} (hmet : name ∈ metNames passed) :
      Reports types passed (.named name) (.error (.aliasCycle name))

theorem next?_eq_none_of_get? (h : types.get? name = none) : types.next? (.named name) = none := by
  rw [next?, underlying?, h, Option.bind_none]

theorem next?_eq_none_of_shapeAt? {shape : Shape} (h : types.shapeAt? ref = some shape) :
    types.next? ref = none := by
  cases ref with
  | pointer target => cases h
  | named name =>
    rw [shapeAt?] at h
    rw [next?, underlying?]
    split at h
    next type hget =>
      rw [Option.ite_none_left_eq_some, TypeDef.isAlias] at h
      rw [hget, Option.bind_some, TypeDef.underlying?]
      split <;> simp_all
    next => cases h
  | _ => rfl

variable {result result' : Except TypeError Resolved}

theorem Reports.endsAt (h : types.Reports passed last result) : types.EndsAt passed last := by
  cases h with
  | shape hshape => exact .inl (next?_eq_none_of_shapeAt? hshape)
  | unknown hget => exact .inl (next?_eq_none_of_get? hget)
  | cycle hmet => exact .inr ⟨_, rfl, hmet⟩

/-- A name that has been met is an alias, so only one thing is reported. -/
theorem Reports.unique (h : types.Reports passed last result)
    (h' : types.Reports passed last result') (hpasses : types.Passes ref passed last) :
    result = result' := by
  have hmet {name : String} (hname : name ∈ metNames passed) :
      types.next? (.named name) ≠ none :=
    hpasses.underlying?_ne_none hname
  cases h with
  | shape hshape =>
    cases h' with
    | shape hshape' => rw [Option.some.inj (hshape.symm.trans hshape')]
    | unknown hget =>
      rw [shapeAt?, hget] at hshape
      cases hshape
    | cycle hname => exact absurd (next?_eq_none_of_shapeAt? hshape) (hmet hname)
  | unknown hget =>
    cases h' with
    | shape hshape =>
      rw [shapeAt?, hget] at hshape
      cases hshape
    | unknown => rfl
    | cycle hname => exact absurd (next?_eq_none_of_get? hget) (hmet hname)
  | cycle hname =>
    cases h' with
    | shape hshape => exact absurd (next?_eq_none_of_shapeAt? hshape) (hmet hname)
    | unknown hget => exact absurd (next?_eq_none_of_get? hget) (hmet hname)
    | cycle => rfl

/-- The way goes through the pointers of a reference, on which no name is met. -/
theorem Passes.exists_pointee (h : types.Passes ref passed last) :
    ∃ passed' last', types.Passes ref passed' last' ∧ last'.pointee = last.pointee ∧
      last'.isPointer = false ∧ metNames passed' = metNames passed ∧
      passed'.any TypeRef.isPointer = (passed.any TypeRef.isPointer || last.isPointer) := by
  induction last generalizing passed with
  | pointer target ih =>
    obtain ⟨passed', last', hpasses, hpointee, hbare, hnames, hpointer⟩ := ih (h.concat rfl)
    refine ⟨passed', last', hpasses, hpointee, hbare, ?_, ?_⟩
    · rw [hnames, metNames_concat_of_name? rfl]
    · rw [hpointer, List.any_append]
      simp [TypeRef.isPointer]
  | _ => exact ⟨passed, _, h, rfl, rfl, rfl, (Bool.or_false _).symm⟩

theorem Passes.exists_shape {shape : Shape} (h : types.Passes ref passed last)
    (hpointee : last.pointee = .shape shape) :
    ∃ passed' last', types.Passes ref passed' last' ∧ types.shapeAt? last' = some shape ∧
      last'.name? = none ∧ metNames passed' = metNames passed ∧
      passed'.any TypeRef.isPointer = (passed.any TypeRef.isPointer || last.isPointer) := by
  obtain ⟨passed', last', hpasses, hsame, hbare, hnames, hpointer⟩ := h.exists_pointee
  rw [hpointee] at hsame
  refine ⟨passed', last', hpasses, ?_, ?_, hnames, hpointer⟩
  all_goals
    cases last' with
    | pointer target => cases hbare
    | named name => cases hsame
    | _ =>
      cases hsame
      rfl

theorem Passes.exists_name (h : types.Passes ref passed last)
    (hpointee : last.pointee = .name name) :
    ∃ passed', types.Passes ref passed' (.named name) ∧ metNames passed' = metNames passed ∧
      passed'.any TypeRef.isPointer = (passed.any TypeRef.isPointer || last.isPointer) := by
  obtain ⟨passed', last', hpasses, hsame, hbare, hnames, hpointer⟩ := h.exists_pointee
  rw [hpointee] at hsame
  cases last' with
  | pointer target => cases hbare
  | named other =>
    cases hsame
    exact ⟨passed', hpasses, hnames, hpointer⟩
  | _ => cases hsame

/-- Names with definitions that are met once are no more than there are definitions. -/
theorem length_le_size {names : List String} (hdistinct : names.Nodup)
    (h : ∀ name ∈ names, ∃ type, types.get? name = some type) : names.length ≤ types.size := by
  have hsubset : names ⊆ types.names := by
    intro name hname
    obtain ⟨type, hget⟩ := h name hname
    rw [← Catalog.name_of_findEntry hget]
    exact List.mem_map_of_mem (Catalog.mem_of_get? hget)
  have hlength := (hdistinct.subperm hsubset).length_le
  rwa [Catalog.names, List.length_map] at hlength

/-- The induction is on the aliases that may be met. They are enough, since every alias that is
replaced is one more of the definitions. -/
theorem follow_reports {spare : Nat} {met : List String} {nullable : Bool} {here : TypeRef}
    (hpasses : types.Passes ref passed here) (hmet : metNames passed = met)
    (hnullable : passed.any TypeRef.isPointer = nullable) (hdistinct : met.Nodup)
    (hspare : types.size ≤ spare + met.length) :
    ∃ passed' last, types.Passes ref passed' last ∧ (metNames passed').Nodup ∧
      types.Reports passed' last (types.follow spare met nullable here) := by
  have hadd {met : List String} {name : String} (hdistinct : met.Nodup)
      (hnew : ¬met.contains name = true) : (met ++ [name]).Nodup :=
    List.concat_eq_append ▸ List.Nodup.concat (mt List.contains_iff_mem.mpr hnew) hdistinct
  fun_induction Universe.follow types spare met nullable here generalizing passed with
  | case1 spare met nullable here shape hpointee =>
    obtain ⟨passed', last, hlast, hshape, hname, hnames, hpointer⟩ :=
      hpasses.exists_shape hpointee
    subst hmet hnullable
    refine ⟨passed', last, hlast, hnames ▸ hdistinct, ?_⟩
    rw [← hpointer, ← hnames, ← metNames_concat_of_name? hname]
    exact .shape hshape
  | case2 spare met nullable here name hpointee hold =>
    obtain ⟨passed', hname, hnames, -⟩ := hpasses.exists_name hpointee
    subst hmet
    refine ⟨passed', _, hname, hnames ▸ hdistinct, .cycle ?_⟩
    rw [hnames]
    exact List.contains_iff_mem.mp hold
  | case3 spare met nullable here name hpointee hnew hget =>
    obtain ⟨passed', hname, hnames, -⟩ := hpasses.exists_name hpointee
    subst hmet
    exact ⟨passed', _, hname, hnames ▸ hdistinct, .unknown hget⟩
  | case4 spare met nullable here name hpointee hnew type hget fields hbody =>
    obtain ⟨passed', hname, hnames, hpointer⟩ := hpasses.exists_name hpointee
    subst hmet hnullable
    refine ⟨passed', _, hname, hnames ▸ hdistinct, ?_⟩
    rw [← hpointer, ← hnames, ← metNames_concat_named]
    refine .shape ?_
    rw [shapeAt?, hget]
    simp only [TypeDef.isAlias, hbody]
    rfl
  | case5 met nullable here name hpointee hnew type hget underlying constants spare hbody ih =>
    obtain ⟨passed', hname, hnames, hpointer⟩ := hpasses.exists_name hpointee
    subst hmet hnullable
    have hnext : types.next? (.named name) = some underlying := by
      rw [next?, underlying?, hget, Option.bind_some, TypeDef.underlying?, hbody]
    refine ih (hname.concat hnext) ?_ ?_ ?_ ?_
    · rw [metNames_concat_named, hnames]
    · rw [List.any_append, hpointer]
      exact Bool.or_false _
    · exact hadd hdistinct hnew
    · rw [List.length_append, List.length_singleton]
      omega
  | case6 met nullable here name hpointee hnew type hget underlying constants hbody =>
    subst hmet
    have hregistered : ∀ other ∈ metNames passed ++ [name],
        ∃ type, types.get? other = some type := by
      refine List.forall_mem_append.mpr ⟨fun other hother => ?_, ?_⟩
      · exact (hpasses.exists_alias hother).imp fun _ => And.left
      · exact List.forall_mem_singleton.mpr ⟨type, hget⟩
    have hlength := length_le_size (hadd hdistinct hnew) hregistered
    rw [List.length_append, List.length_singleton] at hlength
    omega

theorem reports_cycle_iff :
    types.Reports passed last (.error (.aliasCycle name)) ↔
      last = .named name ∧ name ∈ metNames passed := by
  constructor
  · rintro ⟨⟩
    exact ⟨rfl, ‹_›⟩
  · rintro ⟨rfl, hmet⟩
    exact .cycle hmet

theorem reports_unknown_iff :
    types.Reports passed last (.error (.unknownType name)) ↔
      last = .named name ∧ types.get? name = none := by
  constructor
  · rintro ⟨⟩
    exact ⟨rfl, ‹_›⟩
  · rintro ⟨rfl, hget⟩
    exact .unknown hget

theorem reports_ok_iff {resolved : Resolved} :
    types.Reports passed last (.ok resolved) ↔
      types.shapeAt? last = some resolved.shape ∧
        resolved.nullable = passed.any TypeRef.isPointer ∧
        resolved.named = metNames (passed ++ [last]) := by
  constructor
  · rintro ⟨hshape⟩
    exact ⟨hshape, rfl, rfl⟩
  · obtain ⟨shape, nullable, named⟩ := resolved
    rintro ⟨hshape, rfl, rfl⟩
    exact .shape hshape

/-- What resolving a reference gives is what is reported at the end of its way. -/
theorem resolve_eq_iff :
    types.resolve ref = result ↔
      ∃ passed last, types.Passes ref passed last ∧ (metNames passed).Nodup ∧
        types.Reports passed last result := by
  have hresolve := follow_reports (.here ref) rfl rfl .nil (Nat.le_add_right types.size _)
  constructor
  · rintro rfl
    exact hresolve
  · rintro ⟨passed, last, hpasses, hdistinct, hreports⟩
    obtain ⟨passed', last', hpasses', hdistinct', hreports'⟩ := hresolve
    obtain ⟨rfl, rfl⟩ := hpasses.unique hdistinct hreports.endsAt hpasses' hdistinct'
      hreports'.endsAt
    exact hreports'.unique hreports hpasses

/-! ## The length of the way -/

/-- The size of all that the aliases stand for. -/
def aliasSize (types : Universe) : Nat :=
  ((types.entries.filterMap TypeDef.underlying?).map TypeRef.size).sum

/-- Each step takes a constructor off or goes to what an alias stands for. -/
theorem Passes.length_add_size_le (h : types.Passes ref passed last) :
    passed.length + last.size ≤
      ref.size + (((metNames passed).filterMap types.underlying?).map TypeRef.size).sum := by
  induction h with
  | here => simp [metNames]
  | @step ref next last passed hnext hrest ih =>
    rw [List.length_cons]
    cases ref with
    | pointer target =>
      cases hnext
      rw [metNames_cons_pointer, TypeRef.size]
      omega
    | named name =>
      rw [next?] at hnext
      rw [metNames_cons_named, List.filterMap_cons, hnext, List.map_cons, List.sum_cons,
        TypeRef.size]
      omega
    | _ => cases hnext

/-- Aliases of different names are different definitions. -/
theorem sum_size_le_aliasSize {names : List String} (hdistinct : names.Nodup) :
    ((names.filterMap types.underlying?).map TypeRef.size).sum ≤ types.aliasSize := by
  have hsplit : names.filterMap types.underlying? =
      (names.filterMap types.get?).filterMap TypeDef.underlying? :=
    List.filterMap_filterMap.symm
  have hfound : (names.filterMap types.get?).Nodup := by
    refine hdistinct.filterMap fun name name' type hname hname' => ?_
    exact (Catalog.name_of_findEntry hname).symm.trans (Catalog.name_of_findEntry hname')
  have hsubset : names.filterMap types.get? ⊆ types.entries := by
    intro type htype
    obtain ⟨name, -, hget⟩ := List.mem_filterMap.mp htype
    exact Catalog.mem_of_get? hget
  obtain ⟨found, hperm, hsublist⟩ := hfound.subperm hsubset
  calc ((names.filterMap types.underlying?).map TypeRef.size).sum
      = ((found.filterMap TypeDef.underlying?).map TypeRef.size).sum := by
        rw [hsplit]
        exact ((hperm.filterMap _).map _).sum_eq.symm
    _ ≤ types.aliasSize :=
        ((hsublist.filterMap _).map _).sum_le_sum fun _ _ => Nat.zero_le _

/-! ## Resolving -/

/-- The names of a resolved reference differ and have definitions. All are aliases but the last if
the shape is a struct, which has that name then. -/
structure NamesLeadTo (types : Universe) (named : List String) (shape : Shape) : Prop where
  distinct : named.Nodup
  registered : ∀ name ∈ named, ∃ type, types.get? name = some type ∧
    (type.isAlias = true ∨ named.getLast? = some name)
  struct_iff : ∀ name, shape = .struct name ↔
    named.getLast? = some name ∧ ∃ type, types.get? name = some type ∧ type.isAlias = false

theorem shapeAt?_named_eq_some {shape : Shape} (h : types.shapeAt? (.named name) = some shape) :
    shape = .struct name ∧ ∃ type, types.get? name = some type ∧ type.isAlias = false := by
  rw [shapeAt?] at h
  split at h
  next type hget =>
    rw [Option.ite_none_left_eq_some, Bool.not_eq_true] at h
    exact ⟨(Option.some.inj h.2).symm, type, hget, h.1⟩
  next => cases h

theorem shapeAt?_ne_struct (h : ref.name? = none) (name : String) :
    types.shapeAt? ref ≠ some (.struct name) := by
  intro hstruct
  cases ref with
  | named => cases h
  | _ => cases hstruct

section

variable {names : List String} {shape : Shape} (hdistinct : names.Nodup)
  (haliases : ∀ name ∈ names, ∃ type, types.get? name = some type ∧ type.isAlias = true)

include haliases in
theorem not_mem_of_isAlias {type : TypeDef} (hget : types.get? name = some type)
    (hstruct : type.isAlias = false) : name ∉ names := by
  intro hname
  obtain ⟨type', hget', halias⟩ := haliases name hname
  cases hget.symm.trans hget'
  exact Bool.false_ne_true (hstruct.symm.trans halias)

include hdistinct haliases

theorem namesLeadTo_of_aliases (hshape : ∀ name, shape ≠ .struct name) :
    types.NamesLeadTo names shape where
  distinct := hdistinct
  registered name hname := by
    obtain ⟨type, hget, halias⟩ := haliases name hname
    exact ⟨type, hget, .inl halias⟩
  struct_iff name := by
    refine iff_of_false (hshape name) ?_
    rintro ⟨hlast, type, hget, hstruct⟩
    exact not_mem_of_isAlias haliases hget hstruct (List.mem_of_getLast? hlast)

theorem namesLeadTo_struct {type : TypeDef} (hget : types.get? name = some type)
    (hstruct : type.isAlias = false) : types.NamesLeadTo (names ++ [name]) (.struct name) where
  distinct := List.concat_eq_append ▸
    List.Nodup.concat (not_mem_of_isAlias haliases hget hstruct) hdistinct
  registered := by
    refine List.forall_mem_append.mpr ⟨fun other hother => ?_, ?_⟩
    · obtain ⟨type', hget', halias⟩ := haliases other hother
      exact ⟨type', hget', .inl halias⟩
    · exact List.forall_mem_singleton.mpr ⟨type, hget, .inr List.getLast?_concat⟩
  struct_iff other := by
    rw [List.getLast?_concat, Shape.struct.injEq, Option.some.injEq]
    constructor
    · rintro rfl
      exact ⟨rfl, type, hget, hstruct⟩
    · exact And.left

end

theorem namesLeadTo_of_passes {shape : Shape} (h : types.Passes ref passed last)
    (hdistinct : (metNames passed).Nodup) (hshape : types.shapeAt? last = some shape) :
    types.NamesLeadTo (metNames (passed ++ [last])) shape := by
  have haliases (name : String) (hname : name ∈ metNames passed) := h.exists_alias hname
  cases hlast : last.name? with
  | none =>
    rw [metNames_concat_of_name? hlast]
    refine namesLeadTo_of_aliases hdistinct haliases fun name hstruct => ?_
    exact shapeAt?_ne_struct hlast name (hstruct ▸ hshape)
  | some name =>
    obtain rfl := TypeRef.eq_named_of_name? hlast
    obtain ⟨rfl, type, hget, hstruct⟩ := shapeAt?_named_eq_some hshape
    rw [metNames_concat_named]
    exact namesLeadTo_struct hdistinct haliases hget hstruct

/-- There is one way on which a reference is resolved. A cycle is reported where a name is met for
the second time, an unknown type where a name has no definition, and otherwise the shape at the end,
with the names met on the way, and nullable if there was a pointer. The names differ, and only the
name of a struct, which is last then, is not that of an alias. The way has an end: before a name is
met for the second time, it is no longer than the size of the reference and of what all aliases
stand for. -/
theorem resolve_iff_passes (types : Universe) (ref : TypeRef) :
    (∀ name, types.resolve ref = .error (.aliasCycle name) ↔
        ∃ passed, types.Passes ref passed (.named name) ∧ (metNames passed).Nodup ∧
          name ∈ metNames passed) ∧
      (∀ name, types.resolve ref = .error (.unknownType name) ↔
        ∃ passed, types.Passes ref passed (.named name) ∧ (metNames passed).Nodup ∧
          types.get? name = none) ∧
      (∀ resolved, types.resolve ref = .ok resolved ↔
        ∃ passed last, types.Passes ref passed last ∧ (metNames passed).Nodup ∧
          types.shapeAt? last = some resolved.shape ∧
          resolved.nullable = passed.any TypeRef.isPointer ∧
          resolved.named = metNames (passed ++ [last])) ∧
      (∀ resolved, types.resolve ref = .ok resolved →
        types.NamesLeadTo resolved.named resolved.shape) ∧
      ∀ passed last, types.Passes ref passed last → (metNames passed).Nodup →
        passed.length ≤ ref.size + types.aliasSize := by
  refine ⟨fun name => ?_, fun name => ?_, fun resolved => ?_, fun resolved h => ?_, ?_⟩
  · simp only [resolve_eq_iff, reports_cycle_iff]
    constructor
    · rintro ⟨passed, _, hpasses, hdistinct, rfl, hmet⟩
      exact ⟨passed, hpasses, hdistinct, hmet⟩
    · rintro ⟨passed, hpasses, hdistinct, hmet⟩
      exact ⟨passed, _, hpasses, hdistinct, rfl, hmet⟩
  · simp only [resolve_eq_iff, reports_unknown_iff]
    constructor
    · rintro ⟨passed, _, hpasses, hdistinct, rfl, hget⟩
      exact ⟨passed, hpasses, hdistinct, hget⟩
    · rintro ⟨passed, hpasses, hdistinct, hget⟩
      exact ⟨passed, _, hpasses, hdistinct, rfl, hget⟩
  · simp only [resolve_eq_iff, reports_ok_iff]
  · obtain ⟨passed, last, hpasses, hdistinct, hreports⟩ := resolve_eq_iff.mp h
    obtain ⟨hshape, -, hnamed⟩ := reports_ok_iff.mp hreports
    rw [hnamed]
    exact namesLeadTo_of_passes hpasses hdistinct hshape
  · intro passed last hpasses hdistinct
    have hlength := hpasses.length_add_size_le
    have hsum : (((metNames passed).filterMap types.underlying?).map TypeRef.size).sum ≤
        types.aliasSize := sum_size_le_aliasSize hdistinct
    omega

theorem resolve_iff_passes_stock :
    let types : Universe := .ofList
      [⟨"Handle", [], .alias (.pointer (.named "Item")) []⟩, ⟨"Item", [], .struct []⟩,
        ⟨"Loop", [], .alias (.pointer (.named "Loop")) []⟩]
    types.resolve (.named "Handle") = .ok ⟨.struct "Item", true, ["Handle", "Item"]⟩ ∧
      types.NamesLeadTo ["Handle", "Item"] (.struct "Item") ∧
      types.resolve (.named "Loop") = .error (.aliasCycle "Loop") := by
  intro types
  have hitem : types.resolve (.named "Handle") =
      .ok ⟨.struct "Item", true, ["Handle", "Item"]⟩ := by
    decide +kernel
  have hloop : types.Passes (.named "Loop") [.named "Loop", .pointer (.named "Loop")]
      (.named "Loop") :=
    .step (by decide +kernel) (.step rfl (.here _))
  refine ⟨hitem, (resolve_iff_passes types _).2.2.2.1 _ hitem, ?_⟩
  exact ((resolve_iff_passes types _).1 "Loop").mpr ⟨_, hloop, by decide, by decide⟩

end Universe

end TaggedSchema
