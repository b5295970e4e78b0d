import Mathlib.Data.Set.Card
import TaggedSchema.Proofs.Validation.Moved

/-!
# Repeated elements

Elements that are identified alike form a class. Of each class all elements but the first are
reported, so that the reports count the elements in excess of the classes, in whatever order the
elements stand, and without the reported elements there is one element of each class.
-/

namespace TaggedSchema

namespace ListSemantics

/-- The elements are identified alike: by equal values, or by equal key fields, which only objects
have. -/
def SameClass (semantics : ListSemantics) (a b : Value) : Prop :=
  match semantics.identity with
  | .positional => False
  | .value => a == b
  | .keys =>
    a.isObject = true ∧ b.isObject = true ∧ ∀ key ∈ semantics.keys, a.member key == b.member key

instance (semantics : ListSemantics) (a b : Value) : Decidable (semantics.SameClass a b) := by
  unfold SameClass
  split <;> infer_instance

/-- Whether elements like this one belong to a class. -/
def isClassed (semantics : ListSemantics) (item : Value) : Bool :=
  match semantics.identity with
  | .positional => false
  | .value => true
  | .keys => item.isObject

/-- The values that are identified like an element. -/
def classOf (semantics : ListSemantics) (item : Value) : Set Value :=
  {other | semantics.SameClass item other}

/-- The classes of the elements that belong to one. -/
def classes (semantics : ListSemantics) (items : List Value) : Set (Set Value) :=
  semantics.classOf '' {item | item ∈ items.filter semantics.isClassed}

/-- Whether an element, with its position, has an element of its class before it. -/
def followsItsLike (semantics : ListSemantics) (items : List Value) (entry : Value × Nat) : Bool :=
  decide (∃ other ∈ items.take entry.2, semantics.SameClass other entry.1)

/-- The elements without those that have one of their class before them. -/
def firsts (semantics : ListSemantics) (items : List Value) : List Value :=
  (items.zipIdx.filter fun entry => !semantics.followsItsLike items entry).map Prod.fst

/-- `rest` is left of `items` with one element of each class, and with all that belong to none. -/
structure Represents (semantics : ListSemantics) (rest items : List Value) : Prop where
  sublist : rest.Sublist items
  one : ∀ item ∈ items, semantics.isClassed item = true →
    rest.countP (fun other => semantics.SameClass other item) = 1
  unclassed : (rest.filter fun item => !semantics.isClassed item) =
    items.filter fun item => !semantics.isClassed item

variable {semantics : ListSemantics} {a b c item : Value} {items items' before : List Value}
  {list : Path}

/-! ## Classes -/

theorem SameClass.symm (h : semantics.SameClass a b) : semantics.SameClass b a := by
  unfold SameClass at h ⊢
  split at h
  next => exact h
  next => exact Value.beq_symm h
  next => exact ⟨h.2.1, h.1, fun key hkey => Value.beq_symm (h.2.2 key hkey)⟩

theorem SameClass.trans (h : semantics.SameClass a b) (h' : semantics.SameClass b c) :
    semantics.SameClass a c := by
  unfold SameClass at h h' ⊢
  split at h
  next => exact h
  next hidentity =>
    simp only [hidentity] at h' ⊢
    exact Value.beq_trans h h'
  next hidentity =>
    simp only [hidentity] at h' ⊢
    exact ⟨h.1, h'.2.1, fun key hkey => Value.beq_trans (h.2.2 key hkey) (h'.2.2 key hkey)⟩

theorem sameClass_self_iff : semantics.SameClass a a ↔ semantics.isClassed a = true := by
  unfold SameClass isClassed
  split
  next => simp
  next => simp
  next => simp

/-- Elements of one class belong to a class. -/
theorem SameClass.isClassed (h : semantics.SameClass a b) :
    semantics.isClassed a = true ∧ semantics.isClassed b = true :=
  ⟨sameClass_self_iff.mp (h.trans h.symm), sameClass_self_iff.mp (h.symm.trans h)⟩

theorem classOf_eq_iff (ha : semantics.isClassed a = true) :
    semantics.classOf b = semantics.classOf a ↔ semantics.SameClass b a := by
  constructor
  · intro h
    have hmem : a ∈ semantics.classOf a := sameClass_self_iff.mpr ha
    rwa [← h] at hmem
  · intro h
    ext other
    exact ⟨h.symm.trans, h.trans⟩

/-- An element is reported if one of its class stands before it. -/
theorem isRepeated_iff :
    semantics.isRepeated before item = true ↔ ∃ other ∈ before, semantics.SameClass other item := by
  cases hidentity : semantics.identity with
  | positional => simp [isRepeated, SameClass, hidentity]
  | value => simp [isRepeated, SameClass, hidentity]
  | keys =>
    simp only [isRepeated, SameClass, hidentity, Bool.and_eq_true, List.any_eq_true, sameKeys,
      List.all_eq_true]
    constructor
    · rintro ⟨hitem, other, hmem, hother, hkeys⟩
      exact ⟨other, hmem, hother, hitem, hkeys⟩
    · rintro ⟨other, hmem, hother, hitem, hkeys⟩
      exact ⟨hitem, other, hmem, hother, hkeys⟩

/-! ## One more element at the end -/

section

variable {last : Value}

theorem duplicatesAfter_append {after : List Value} :
    semantics.duplicatesAfter list before (items ++ after) =
      semantics.duplicatesAfter list before items ++
        semantics.duplicatesAfter list (before ++ items) after := by
  induction items generalizing before with
  | nil => rw [List.nil_append, duplicatesAfter, List.nil_append, List.append_nil]
  | cons item items ih =>
    simp only [List.cons_append, duplicatesAfter, ih, List.append_assoc, List.nil_append]

theorem duplicates_concat :
    semantics.duplicates list (items ++ [last]) = semantics.duplicates list items ++
      if semantics.isRepeated items last then
        [.duplicate (semantics.elementPath list items.length last) last semantics.origin]
      else [] := by
  rw [duplicates, duplicatesAfter_append]
  simp only [List.nil_append, duplicatesAfter, List.append_nil]
  rfl

theorem followsItsLike_concat {position : Nat} (h : position < items.length) :
    semantics.followsItsLike (items ++ [last]) (item, position) =
      semantics.followsItsLike items (item, position) := by
  simp only [followsItsLike, List.take_append_of_le_length h.le]

theorem followsItsLike_last :
    semantics.followsItsLike (items ++ [last]) (last, items.length) =
      semantics.isRepeated items last := by
  rw [Bool.eq_iff_iff, isRepeated_iff, followsItsLike, decide_eq_true_iff, List.take_left]

theorem filter_zipIdx_concat {p q : Value × Nat → Bool}
    (h : ∀ entry : Value × Nat, entry.2 < items.length → p entry = q entry) :
    (items ++ [last]).zipIdx.filter p =
      items.zipIdx.filter q ++ if p (last, items.length) then [(last, items.length)] else [] := by
  rw [List.zipIdx_append, List.filter_append, List.zipIdx_singleton, Nat.zero_add,
    List.filter_singleton]
  congr 1
  · exact List.filter_congr fun entry hentry => h entry (List.snd_lt_of_mem_zipIdx hentry)
  · cases p (last, items.length) <;> rfl

theorem firsts_concat :
    semantics.firsts (items ++ [last]) =
      semantics.firsts items ++ if semantics.isRepeated items last then [] else [last] := by
  rw [firsts, filter_zipIdx_concat fun entry hlt => by rw [followsItsLike_concat hlt],
    List.map_append, followsItsLike_last]
  cases semantics.isRepeated items last <;> rfl

theorem classOf_mem_classes_iff (hlast : semantics.isClassed last = true) :
    semantics.classOf last ∈ semantics.classes items ↔ semantics.isRepeated items last = true := by
  rw [isRepeated_iff]
  constructor
  · rintro ⟨other, hmem, heq⟩
    exact ⟨other, (List.mem_filter.mp hmem).1, (classOf_eq_iff hlast).mp heq⟩
  · rintro ⟨other, hmem, hsame⟩
    exact ⟨other, List.mem_filter.mpr ⟨hmem, hsame.isClassed.1⟩, (classOf_eq_iff hlast).mpr hsame⟩

theorem classes_concat :
    semantics.classes (items ++ [last]) =
      if semantics.isClassed last then insert (semantics.classOf last) (semantics.classes items)
      else semantics.classes items := by
  rw [classes, List.filter_append, List.filter_singleton]
  cases semantics.isClassed last with
  | true =>
    have hinsert : {item | item ∈ items.filter semantics.isClassed ++ [last]} =
        insert last {item | item ∈ items.filter semantics.isClassed} := by
      ext item
      exact List.mem_append.trans (or_comm.trans (or_congr_left List.mem_singleton))
    exact (congrArg _ hinsert).trans (Set.image_insert_eq ..)
  | false => rw [Bool.cond_false, List.append_nil]; rfl

end

theorem finite_classes (semantics : ListSemantics) (items : List Value) :
    (semantics.classes items).Finite :=
  (List.finite_toSet _).image semantics.classOf

/-! ## What is reported -/

theorem duplicates_eq_map (semantics : ListSemantics) (list : Path) (items : List Value) :
    semantics.duplicates list items =
      (items.zipIdx.filter (semantics.followsItsLike items)).map fun (item, position) =>
        .duplicate (semantics.elementPath list position item) item semantics.origin := by
  induction items using List.reverseRecOn with
  | nil => rfl
  | append_singleton items last ih =>
    rw [duplicates_concat, ih, filter_zipIdx_concat fun entry hlt => followsItsLike_concat hlt,
      List.map_append, followsItsLike_last]
    cases semantics.isRepeated items last <;> rfl

/-- An element of a class is either the first of its class or reported. -/
theorem length_duplicates_add_ncard_classes (semantics : ListSemantics) (list : Path)
    (items : List Value) :
    (semantics.duplicates list items).length + (semantics.classes items).ncard =
      items.countP semantics.isClassed := by
  induction items using List.reverseRecOn with
  | nil => simp [duplicates, duplicatesAfter, classes]
  | append_singleton items last ih =>
    rw [duplicates_concat, classes_concat, List.countP_append, ← ih, List.length_append]
    cases hlast : semantics.isClassed last with
    | true =>
      cases hrepeated : semantics.isRepeated items last with
      | true =>
        have hmem := (classOf_mem_classes_iff hlast).mpr hrepeated
        simp only [if_true, Set.insert_eq_of_mem hmem, List.length_singleton, List.countP_singleton,
          hlast]
        omega
      | false =>
        have hnew : semantics.classOf last ∉ semantics.classes items := fun hmem =>
          Bool.eq_false_iff.mp hrepeated ((classOf_mem_classes_iff hlast).mp hmem)
        simp only [if_true, Bool.false_eq_true, if_false, List.length_nil, List.countP_singleton,
          Set.ncard_insert_of_notMem hnew (semantics.finite_classes items), hlast]
        omega
    | false =>
      -- What belongs to no class repeats nothing.
      have hnew : semantics.isRepeated items last = false := by
        rw [Bool.eq_false_iff, Ne, isRepeated_iff]
        rintro ⟨other, -, hsame⟩
        rw [hsame.isClassed.2] at hlast
        cases hlast
      simp only [hnew, Bool.false_eq_true, if_false, List.length_nil, List.countP_singleton, hlast]
      omega

/-- The number of reports does not depend on the order of the elements. -/
theorem length_duplicates_of_perm (h : items.Perm items') :
    (semantics.duplicates list items).length = (semantics.duplicates list items').length := by
  have hclasses : semantics.classes items = semantics.classes items' := by
    simp only [classes, (h.filter _).mem_iff]
  have hitems := semantics.length_duplicates_add_ncard_classes list items
  have hitems' := semantics.length_duplicates_add_ncard_classes list items'
  rw [hclasses, h.countP_eq] at hitems
  omega

theorem duplicates_eq_nil_iff :
    semantics.duplicates list items = [] ↔ items.Pairwise fun a b => ¬ semantics.SameClass a b := by
  induction items using List.reverseRecOn with
  | nil => exact ⟨fun _ => .nil, fun _ => rfl⟩
  | append_singleton items last ih =>
    rw [duplicates_concat, List.append_eq_nil_iff, ih, List.pairwise_append]
    have hlast : (if semantics.isRepeated items last then
          [Violation.duplicate (semantics.elementPath list items.length last) last
            semantics.origin]
        else []) = [] ↔ ∀ other ∈ items, ¬ semantics.SameClass other last := by
      rw [ite_eq_right_iff, imp_iff_not (List.cons_ne_nil _ _), isRepeated_iff]
      simp only [not_exists, not_and]
    rw [hlast]
    simp

/-! ## What is left without the reported elements -/

theorem firsts_sublist (semantics : ListSemantics) (items : List Value) :
    (semantics.firsts items).Sublist items := by
  have h := (List.filter_sublist (p := fun entry => !semantics.followsItsLike items entry)
    (l := items.zipIdx)).map Prod.fst
  rwa [List.zipIdx_map_fst] at h

/-- Every class has an element that is left. -/
theorem exists_mem_firsts (h : item ∈ items) (hitem : semantics.isClassed item = true) :
    ∃ other ∈ semantics.firsts items, semantics.SameClass other item := by
  induction items using List.reverseRecOn generalizing item with
  | nil => cases h
  | append_singleton items last ih =>
    rw [firsts_concat]
    rcases List.mem_append.mp h with h | h
    · obtain ⟨other, hother, hsame⟩ := ih h hitem
      exact ⟨other, List.mem_append_left _ hother, hsame⟩
    · rw [List.mem_singleton.mp h] at hitem ⊢
      cases hrepeated : semantics.isRepeated items last with
      | true =>
        obtain ⟨first, hfirst, hsame⟩ := isRepeated_iff.mp hrepeated
        obtain ⟨other, hother, hsame'⟩ := ih hfirst hsame.isClassed.1
        exact ⟨other, List.mem_append_left _ hother, hsame'.trans hsame⟩
      | false =>
        exact ⟨last, List.mem_append_right _ (List.mem_singleton_self last),
          sameClass_self_iff.mpr hitem⟩

theorem firsts_pairwise (semantics : ListSemantics) (items : List Value) :
    (semantics.firsts items).Pairwise fun a b => ¬ semantics.SameClass a b := by
  induction items using List.reverseRecOn with
  | nil => exact .nil
  | append_singleton items last ih =>
    rw [firsts_concat]
    cases hrepeated : semantics.isRepeated items last with
    | true => simpa using ih
    | false =>
      refine List.pairwise_append.mpr ⟨ih, List.pairwise_singleton _ _, ?_⟩
      intro other hother last' hlast hsame
      cases List.mem_singleton.mp hlast
      have hother := (semantics.firsts_sublist items).subset hother
      exact Bool.eq_false_iff.mp hrepeated (isRepeated_iff.mpr ⟨other, hother, hsame⟩)

theorem countP_sameClass_le_one (h : items.Pairwise fun a b => ¬ semantics.SameClass a b) :
    items.countP (fun other => semantics.SameClass other item) ≤ 1 := by
  induction h with
  | nil => simp
  | @cons first items hfirst _ ih =>
    rw [List.countP_cons]
    split
    next hsame =>
      have hsame := of_decide_eq_true hsame
      have hnone : items.countP (fun other => semantics.SameClass other item) = 0 :=
        List.countP_eq_zero.mpr fun other hother hother' =>
          hfirst other hother (hsame.trans (of_decide_eq_true hother').symm)
      omega
    next => exact ih

/-- Each class has one element that is left. -/
theorem countP_firsts (h : item ∈ items) (hitem : semantics.isClassed item = true) :
    (semantics.firsts items).countP (fun other => semantics.SameClass other item) = 1 := by
  obtain ⟨other, hother, hsame⟩ := exists_mem_firsts h hitem
  have hpos : 0 < (semantics.firsts items).countP fun other => semantics.SameClass other item :=
    List.countP_pos_iff.mpr ⟨other, hother, decide_eq_true hsame⟩
  have hle : (semantics.firsts items).countP (fun other => semantics.SameClass other item) ≤ 1 :=
    countP_sameClass_le_one (semantics.firsts_pairwise items)
  omega

theorem firsts_represents (semantics : ListSemantics) (items : List Value) :
    semantics.Represents (semantics.firsts items) items where
  sublist := semantics.firsts_sublist items
  one _ := countP_firsts
  unclassed := by
    induction items using List.reverseRecOn with
    | nil => rfl
    | append_singleton items last ih =>
      rw [firsts_concat, List.filter_append, List.filter_append, ih]
      cases hrepeated : semantics.isRepeated items last with
      | true =>
        obtain ⟨other, -, hsame⟩ := isRepeated_iff.mp hrepeated
        simp [hsame.isClassed.2]
      | false => rfl

end ListSemantics

/-! ## Where a walk finds repeated elements -/

theorem Constraint.kind_of_breach? {constraint : Constraint} {gates : GateView} {path : Path}
    {value : Value} {violation : Violation}
    (h : constraint.breach? gates path value = some violation) : violation.kind ≠ .duplicate := by
  have hlimit {size : Option Nat} {limit : Nat} {report : Nat → Violation}
      (hreport : ∀ actual, (report actual).kind ≠ .duplicate)
      (h : overLimit? size limit report = some violation) : violation.kind ≠ .duplicate := by
    obtain ⟨actual, -, rfl⟩ := Option.map_eq_some_iff.mp h
    exact hreport actual
  cases constraint with
  | maxLength limit | maxItems limit | maxProperties limit =>
    exact hlimit (fun _ hkind => by cases hkind) h
  | minimum bound | format kind | enumeration members | differs other =>
    simp only [breach?] at h
    split at h <;> cases h
    intro hkind
    cases hkind
  | _ => cases h

theorem Site.kind_of_blocked? {site : Site} {value : Value} {rules : List Constraint}
    {violation : Violation} (h : site.blocked? value rules = some violation) :
    violation.kind ≠ .duplicate := by
  rw [blocked?, Option.or_eq_some_iff] at h
  rcases h with h | ⟨-, h⟩
  · obtain ⟨constraint, -, change, detail, -, rfl⟩ := exists_of_rejection? h
    intro hkind
    cases hkind
  · obtain ⟨constraint, -, h⟩ := List.exists_of_findSome?_eq_some h
    rw [Constraint.presence?.eq_def] at h
    split at h <;> cases h <;> intro hkind <;> cases hkind

theorem UnionGroup.kind_of_mem_unionViolations {group : UnionGroup} {path : Path} {object : Value}
    {violation : Violation} (h : violation ∈ group.unionViolations path object) :
    violation.kind ≠ .duplicate := by
  rw [unionViolations] at h
  split at h
  next discriminator _ =>
    rw [discriminatedViolations] at h
    split at h
    next chosen _ =>
      rcases List.mem_append.mp h with h | h
      · split at h
        · cases h
        · rw [List.mem_singleton.mp h]
          intro hkind
          cases hkind
      · obtain ⟨first, -, rfl⟩ := List.mem_map.mp (Option.toList_map .. ▸ h)
        intro hkind
        cases hkind
    next =>
      split at h
      · cases h
      · rw [List.mem_singleton.mp h]
        intro hkind
        cases hkind
  next =>
    rw [plainViolations] at h
    split at h
    · cases h
    · rw [List.mem_singleton.mp h]
      intro hkind
      cases hkind
    · rw [List.mem_singleton.mp h]
      intro hkind
      cases hkind

theorem UnionGroup.kind_of_mem_zeroOrOneViolations {group : UnionGroup} {path : Path}
    {object : Value} {violation : Violation}
    (h : violation ∈ group.zeroOrOneViolations path object) : violation.kind ≠ .duplicate := by
  rw [zeroOrOneViolations] at h
  split at h
  · cases h
  · cases h
  · rw [List.mem_singleton.mp h]
    intro hkind
    cases hkind

theorem CompiledStruct.kind_of_mem_unionViolations {body : CompiledStruct} {path : Path}
    {object : Value} {old : Option Value} {violation : Violation}
    (h : violation ∈ body.unionViolations path object old) : violation.kind ≠ .duplicate := by
  rcases List.mem_append.mp h with h | h
  · obtain ⟨group, -, h⟩ := List.mem_flatMap.mp h
    exact UnionGroup.kind_of_mem_unionViolations h
  · obtain ⟨group, -, h⟩ := List.mem_flatMap.mp h
    exact UnionGroup.kind_of_mem_zeroOrOneViolations h

namespace Context

variable {c : Context} {value : Value} {site : Site} {violation : Violation}

/-- A repeated element lies inside the value that is walked over. -/
theorem length_lt_of_duplicate (h : violation ∈ c.walk value site)
    (hkind : violation.kind = .duplicate) :
    site.path.segments.length < violation.path.segments.length := by
  generalize hfound : c.walk value site = found at h
  have hcourse : c.Course value site found := hfound ▸ c.course value site
  cases hcourse with
  | unchanged hsame => cases h
  | blocked hchanged hblocked =>
    rw [List.mem_singleton.mp h, Violation.nativeIf_kind] at hkind
    exact absurd hkind (Site.kind_of_blocked? hblocked)
  | absent hchanged hclear habsent => cases h
  | unfit hchanged hclear hpresent hunfit =>
    rw [List.mem_singleton.mp h, Violation.nativeIf_kind] at hkind
    cases hkind
  | checked hchanged hclear hpresent hfits =>
    rcases found_of_mem_checkedViolations h with hhere | ⟨inner, innerSite, hleads, hinner⟩
    · cases hhere with
      | breach hrule hbreach heq =>
        rw [heq, Violation.nativeIf_kind] at hkind
        exact absurd hkind (Constraint.kind_of_breach? hbreach)
      | @repeated access element semantics items found hdeep hplan hitems hunique hfound heq =>
        obtain ⟨position, item, hat⟩ := ListSemantics.mem_duplicatesAfter hfound
        obtain ⟨segment, hextend, -⟩ := semantics.elementPath_extend site.path position item
        rw [heq, Violation.nativeIf_path, hat.path, hextend, Path.extend, List.length_append,
          List.length_singleton]
        omega
      | union hdeep hplan hobject hbody hfound heq =>
        rw [heq, Violation.nativeIf_kind] at hkind
        exact absurd hkind (CompiledStruct.kind_of_mem_unionViolations hfound)
    · obtain ⟨segment, hextend⟩ := hleads.path
      have hlength := (walk_under hinner).length_le
      rw [hextend, Path.extend, List.length_append, List.length_singleton] at hlength
      omega

end Context

/-- The violation says that an element of the list at the site is repeated. -/
def Site.isRepetitionIn (site : Site) (violation : Violation) : Bool :=
  violation.kind == .duplicate && violation.path.segments.length == site.path.segments.length + 1

namespace Context

variable {c : Context} {site : Site} {access : Access} {element : Plan}
  {semantics : ListSemantics} {items : List Value}

/-- What lies inside an element is not taken for one. -/
theorem isRepetitionIn_eq_false {value : Value} {innerSite : Site} {violation : Violation}
    (hinner : site.path.segments.length < innerSite.path.segments.length)
    (h : violation ∈ c.walk value innerSite) : site.isRepetitionIn violation = false := by
  by_contra hrepetition
  rw [Bool.not_eq_false, Site.isRepetitionIn, Bool.and_eq_true, beq_iff_eq, beq_iff_eq]
    at hrepetition
  have hlt := length_lt_of_duplicate h hrepetition.1
  omega

/-- Rules at the list are not about repeated elements. -/
theorem isRepetitionIn_of_mem_rule {rule : Rule} {violation : Violation}
    (hplan : site.plan = .list access element semantics)
    (h : violation ∈ c.ruleViolations (.array items) site rule) :
    site.isRepetitionIn violation = false := by
  cases rule with
  | leaf constraint tag =>
    rw [ruleViolations, Option.mem_toList, Option.map_eq_some_iff] at h
    obtain ⟨found, hbreach, rfl⟩ := h
    rw [Site.isRepetitionIn, Violation.nativeIf_kind,
      beq_false_of_ne (Constraint.kind_of_breach? hbreach), Bool.false_and]
  | within place inner tag =>
    cases place with
    | item selector =>
      simp only [ruleViolations, placeViolations, hplan] at h
      obtain ⟨segment, hextend, -⟩ := selectedItem_extend site.path semantics selector items
      refine isRepetitionIn_eq_false ?_ h
      simp [Site.item, hextend, Path.extend]
    | _ => simp [ruleViolations, placeViolations] at h
  | guarded condition inner tag => cases h

/-- The elements of a list that a walk reports as repeated. -/
theorem filter_isRepetitionIn_walk (hdeep : site.isShallow = false)
    (hplan : site.plan = .list access element semantics)
    (hlooks : c.LooksAt (.array items) site) :
    (c.walk (.array items) site).filter site.isRepetitionIn =
      (if semantics.checksUniqueness then semantics.duplicates site.path items else []).map
        fun violation => violation.nativeIf site.native := by
  have hfits : site.plan.fits (.array items) = true := by rw [hplan]; rfl
  rw [(Course.checked hlooks.changed hlooks.clear hlooks.present hfits).walk_eq,
    checkedViolations, hdeep]
  simp only [Bool.false_eq_true, if_false, insideViolations, hplan, listViolations]
  have hrules : ((c.rulesAt site).flatMap (c.ruleViolations (.array items) site)).filter
      site.isRepetitionIn = [] := by
    refine List.filter_eq_nil_iff.mpr fun violation hviolation => ?_
    obtain ⟨rule, -, hviolation⟩ := List.mem_flatMap.mp hviolation
    rw [isRepetitionIn_of_mem_rule hplan hviolation]
    exact Bool.false_ne_true
  have helements : (items.zipIdx.flatMap fun (item, position) =>
      c.walk item (site.element element semantics (rulesWithin Place.isEachVal (c.rulesAt site))
        position item)).filter site.isRepetitionIn = [] := by
    refine List.filter_eq_nil_iff.mpr fun violation hviolation => ?_
    obtain ⟨⟨item, position⟩, -, hviolation⟩ := List.mem_flatMap.mp hviolation
    obtain ⟨segment, hextend, -⟩ := semantics.elementPath_extend site.path position item
    rw [isRepetitionIn_eq_false _ hviolation]
    · exact Bool.false_ne_true
    · simp [Site.element, Site.inner, hextend, Path.extend]
  rw [List.filter_append, List.filter_append, hrules, helements, List.nil_append, List.append_nil,
    List.filter_eq_self]
  intro violation hviolation
  obtain ⟨found, hfound, rfl⟩ := List.mem_map.mp hviolation
  split at hfound
  · obtain ⟨position, item, rfl⟩ := ListSemantics.eq_duplicate_of_mem hfound
    obtain ⟨segment, hextend, -⟩ := semantics.elementPath_extend site.path position item
    simp [Site.isRepetitionIn, Violation.duplicate, Violation.bare, hextend, Path.extend]
  · cases hfound

end Context

/-- The reports of repeated elements are one for each element that has another of its class before
it. Elements without a class aside, being in one class is an equivalence, and the reports count
what is in excess of the classes, whatever the order of the elements. There are none if no two
elements are of one class, and none are left without the reported elements, which leaves one element
of each class. A walk that looks at the list finds just these reports about its elements, if
elements have to be unique. -/
theorem ListSemantics.duplicates_exact (semantics : ListSemantics) (list : Path)
    (items : List Value) :
    Equivalence (fun a b : {item : Value // semantics.isClassed item = true} =>
        semantics.SameClass a b) ∧
      (∀ a b, semantics.SameClass a b →
        semantics.isClassed a = true ∧ semantics.isClassed b = true) ∧
      (semantics.duplicates list items =
        (items.zipIdx.filter (semantics.followsItsLike items)).map fun (item, position) =>
          .duplicate (semantics.elementPath list position item) item semantics.origin) ∧
      (semantics.duplicates list items).length + (semantics.classes items).ncard =
        items.countP semantics.isClassed ∧
      (∀ items', items.Perm items' →
        (semantics.duplicates list items').length = (semantics.duplicates list items).length) ∧
      (semantics.duplicates list items = [] ↔
        items.Pairwise fun a b => ¬ semantics.SameClass a b) ∧
      semantics.Represents (semantics.firsts items) items ∧
      semantics.duplicates list (semantics.firsts items) = [] ∧
      ∀ (c : Context) (site : Site) (access : Access) (element : Plan),
        site.isShallow = false → site.plan = .list access element semantics →
          c.LooksAt (.array items) site →
            (c.walk (.array items) site).filter site.isRepetitionIn =
              (if semantics.checksUniqueness then semantics.duplicates site.path items else []).map
                fun violation => violation.nativeIf site.native := by
  refine ⟨⟨fun item => sameClass_self_iff.mpr item.2, SameClass.symm, SameClass.trans⟩,
    fun a b => SameClass.isClassed, semantics.duplicates_eq_map list items,
    semantics.length_duplicates_add_ncard_classes list items,
    fun items' hperm => length_duplicates_of_perm hperm.symm, duplicates_eq_nil_iff,
    semantics.firsts_represents items, ?_, ?_⟩
  · exact duplicates_eq_nil_iff.mpr (semantics.firsts_pairwise items)
  · exact fun c site access element => Context.filter_isRepetitionIn_walk

/-- Machines are told apart by name and zone, of which the zone may be missing. -/
def byNameAndZone : ListSemantics := ⟨.map, ["name", "zone"], none, false⟩

def machines : List Value :=
  [.ofMembers [("name", .string "a")], .string "x",
    .ofMembers [("name", .string "a"), ("zone", .null)], .ofMembers [("name", .string "b")],
    .string "x"]

/-- The site of the machines as a whole object. -/
def machinesSite : Site :=
  .root (.list ⟨false, []⟩ (.struct ⟨false, ["Machine"]⟩ "Machine") byNameAndZone) none

def machineContext : Context := ⟨(compile (Catalog.ofList []) .default).schema, fun _ => false⟩

/-- The third machine repeats the first one, also when they stand in another order. -/
theorem ListSemantics.duplicates_exact_machines :
    (byNameAndZone.duplicates .root machines).length = 1 ∧
      (byNameAndZone.classes machines).ncard = 2 ∧
      machines.Perm machines.reverse ∧
      (byNameAndZone.duplicates .root machines.reverse).length = 1 ∧
      machineContext.LooksAt (.array machines) machinesSite ∧
      ((machineContext.walk (.array machines) machinesSite).filter
        machinesSite.isRepetitionIn).length = 1 := by
  obtain ⟨-, -, -, hcount, hperm, -, -, -, hwalk⟩ :=
    ListSemantics.duplicates_exact byNameAndZone .root machines
  have hone : (byNameAndZone.duplicates .root machines).length = 1 := by decide +kernel
  have hclassed : machines.countP byNameAndZone.isClassed = 3 := by decide +kernel
  have hreverse : machines.Perm machines.reverse := (List.reverse_perm machines).symm
  have hlooks : machineContext.LooksAt (.array machines) machinesSite := ⟨rfl, rfl, rfl⟩
  refine ⟨hone, by omega, hreverse, (hperm _ hreverse).trans hone, hlooks, ?_⟩
  rw [hwalk machineContext machinesSite _ _ rfl rfl hlooks, List.length_map]
  exact hone

end TaggedSchema
