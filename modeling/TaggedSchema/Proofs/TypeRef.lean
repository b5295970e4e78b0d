import TaggedSchema.Proofs.Results
import TaggedSchema.Proofs.Tag.Reading
import TaggedSchema.TypeRef

/-!
# Reading printed type references

A reference is read back from its text exactly if its names are names that are read as such. Since
only such references are ever read, printing what has been read gives one text for each of them.
-/

namespace TaggedSchema

open Text

theorem ScalarKind.ofName?_name (kind : ScalarKind) : ofName? kind.name = some kind := by
  cases kind <;> rfl

theorem ScalarKind.isNameChar_of_mem_name (kind : ScalarKind) :
    ∀ c ∈ kind.name.toList, TypeRef.isNameChar c = true := by
  refine List.all_eq_true.mp ?_
  cases kind <;> decide

namespace TypeRef

/-- A text that is read as the name of a definition. -/
structure IsDefinitionName (name : String) : Prop where
  notEmpty : name ≠ ""
  chars : ∀ c ∈ name.toList, isNameChar c = true
  notScalar : ScalarKind.ofName? name = none

/-- All names in the reference are names of definitions. -/
def WellFormed : TypeRef → Prop
  | scalar _ => True
  | pointer target => target.WellFormed
  | slice element => element.WellFormed
  | map key value => key.WellFormed ∧ value.WellFormed
  | named name => IsDefinitionName name

variable {input text rest key value : List Char} {ref : TypeRef}

/-! ## Characters of a reference -/

theorem isBlank_of_isNameChar {c : Char} (h : isNameChar c = true) : isBlank c = false := by
  refine Tag.isBlank_of_isWordChar ?_
  rw [isNameChar, Bool.or_eq_true, Bool.or_eq_true] at h
  rw [Tag.isWordChar]
  rcases h with (h | h) | h <;> simp [h]

theorem not_bracket_of_isNameChar {c : Char} (h : isNameChar c = true) : c ≠ '[' ∧ c ≠ ']' := by
  refine ⟨?_, ?_⟩
  all_goals
    rintro rfl
    cases h

theorem toList_pointer (target : TypeRef) :
    (pointer target).toText.toList = '*' :: target.toText.toList := by
  rw [toText, String.toList_append]
  rfl

theorem toList_slice (element : TypeRef) :
    (slice element).toText.toList = '[' :: ']' :: element.toText.toList := by
  rw [toText, String.toList_append]
  rfl

theorem toList_map (key value : TypeRef) :
    (map key value).toText.toList =
      'm' :: 'a' :: 'p' :: '[' :: (key.toText.toList ++ ']' :: value.toText.toList) := by
  rw [toText, String.toList_append, String.toList_append, String.toList_append]
  simp

theorem WellFormed.isBlank_of_mem (h : ref.WellFormed) :
    ∀ c ∈ ref.toText.toList, isBlank c = false := by
  induction ref with
  | scalar kind => exact fun c hc => isBlank_of_isNameChar (kind.isNameChar_of_mem_name c hc)
  | named name => exact fun c hc => isBlank_of_isNameChar (h.chars c hc)
  | pointer target ih =>
    rw [toList_pointer]
    exact List.forall_mem_cons.mpr ⟨rfl, ih h⟩
  | slice element ih =>
    rw [toList_slice]
    exact List.forall_mem_cons.mpr ⟨rfl, List.forall_mem_cons.mpr ⟨rfl, ih h⟩⟩
  | map key value ihKey ihValue =>
    have hword : ∀ c ∈ ['m', 'a', 'p'], isNameChar c = true := List.all_eq_true.mp rfl
    have hclose : ∀ c ∈ ']' :: value.toText.toList, isBlank c = false :=
      List.forall_mem_cons.mpr ⟨rfl, ihValue h.2⟩
    have hopen : ∀ c ∈ '[' :: (key.toText.toList ++ ']' :: value.toText.toList),
        isBlank c = false :=
      List.forall_mem_cons.mpr ⟨rfl, List.forall_mem_append.mpr ⟨ihKey h.1, hclose⟩⟩
    rw [toList_map]
    exact List.forall_mem_append.mpr ⟨fun c hc => isBlank_of_isNameChar (hword c hc), hopen⟩

theorem WellFormed.trim_toText (h : ref.WellFormed) :
    trim ref.toText.toList = ref.toText.toList :=
  trim_of_stops (fun c hc => h.isBlank_of_mem c (List.mem_of_mem_head? hc))
    fun c hc => h.isBlank_of_mem c (List.mem_reverse.mp (List.mem_of_mem_head? hc))

/-! ## Brackets -/

/-- The text opens and closes its brackets, so that the end of a key is looked for behind it. -/
def IsBalanced (text : List Char) : Prop :=
  ∀ depth rest, splitAtClose depth (text ++ rest) =
    (splitAtClose depth rest).map fun (key, value) => (text ++ key, value)

theorem isBalanced_nil : IsBalanced [] := by
  intro depth rest
  simp

theorem IsBalanced.append (h : IsBalanced text) (hrest : IsBalanced rest) :
    IsBalanced (text ++ rest) := by
  intro depth behind
  rw [List.append_assoc, h, hrest, Option.map_map]
  simp [Function.comp_def]

theorem isBalanced_cons {c : Char} (hopen : c ≠ '[') (hclose : c ≠ ']') (h : IsBalanced rest) :
    IsBalanced (c :: rest) := by
  intro depth behind
  rw [List.cons_append, splitAtClose.eq_def]
  simp only [if_neg hopen, if_neg hclose, h depth behind, Option.map_map]
  rfl

/-- Inside of brackets one more is open. -/
theorem IsBalanced.bracket (h : IsBalanced text) : IsBalanced ('[' :: (text ++ [']'])) := by
  intro depth behind
  have hopen : ('[' : Char) ≠ ']' := by decide
  rw [List.cons_append, List.append_assoc, splitAtClose.eq_def]
  simp only [if_neg hopen, if_true, h (depth + 1)]
  rw [List.singleton_append, splitAtClose.eq_def]
  simp [Function.comp_def]

theorem isBalanced_of_isNameChar (h : ∀ c ∈ text, isNameChar c = true) : IsBalanced text := by
  induction text with
  | nil => exact isBalanced_nil
  | cons c text ih =>
    obtain ⟨hc, htext⟩ := List.forall_mem_cons.mp h
    obtain ⟨hopen, hclose⟩ := not_bracket_of_isNameChar hc
    exact isBalanced_cons hopen hclose (ih htext)

theorem WellFormed.isBalanced (h : ref.WellFormed) : IsBalanced ref.toText.toList := by
  induction ref with
  | scalar kind => exact isBalanced_of_isNameChar kind.isNameChar_of_mem_name
  | named name => exact isBalanced_of_isNameChar h.chars
  | pointer target ih =>
    rw [toList_pointer]
    exact isBalanced_cons (by decide) (by decide) (ih h)
  | slice element ih =>
    rw [toList_slice]
    exact isBalanced_nil.bracket.append (ih h)
  | map key value ihKey ihValue =>
    have hword : IsBalanced ['m', 'a', 'p'] := isBalanced_of_isNameChar (List.all_eq_true.mp rfl)
    rw [toList_map, List.append_cons]
    exact hword.append ((ihKey h.1).bracket.append (ihValue h.2))

/-- A key ends at the bracket behind it, whatever brackets it has itself. -/
theorem IsBalanced.splitAtClose_eq (h : IsBalanced key) (value : List Char) :
    splitAtClose 0 (key ++ ']' :: value) = some (key, value) := by
  rw [h 0, splitAtClose.eq_def]
  simp

/-! ## Reading one part -/

theorem parseChars_pointer (h : trim input = '*' :: rest) :
    parseChars input = (parseChars rest).map pointer := by
  rw [parseChars.eq_def]
  split <;> simp_all

theorem parseChars_slice (h : trim input = '[' :: ']' :: rest) :
    parseChars input = (parseChars rest).map slice := by
  rw [parseChars.eq_def]
  split <;> simp_all

theorem parseChars_map (h : trim input = 'm' :: 'a' :: 'p' :: '[' :: rest)
    (hsplit : splitAtClose 0 rest = some (key, value)) {keyRef valueRef : TypeRef}
    (hkey : parseChars key = .ok keyRef) (hvalue : parseChars value = .ok valueRef) :
    parseChars input = .ok (map keyRef valueRef) := by
  rw [parseChars.eq_def]
  split
  case h_4 rest' hopen =>
    cases h.symm.trans hopen
    split
    next hnone => cases hsplit.symm.trans hnone
    next key' value' hsome =>
      cases hsplit.symm.trans hsome
      rw [hkey, hvalue]
      rfl
  all_goals simp_all

theorem parseChars_simple (h : trim input = text) (hne : text ≠ [])
    (hchars : ∀ c ∈ text, isNameChar c = true) : parseChars input = simple input text := by
  subst h
  have hno {c : Char} (hc : isNameChar c = false) (hmem : c ∈ trim input) : False :=
    Bool.false_ne_true (hc.symm.trans (hchars c hmem))
  rw [parseChars.eq_def]
  split
  next hnil => exact absurd hnil hne
  next rest hstar => exact (hno (c := '*') rfl (by simp [hstar])).elim
  next rest hopen => exact (hno (c := '[') rfl (by simp [hopen])).elim
  next rest hopen => exact (hno (c := '[') rfl (by simp [hopen])).elim
  next => rfl

/-! ## Reading and printing -/

theorem WellFormed.parseChars_toText (h : ref.WellFormed) :
    parseChars ref.toText.toList = .ok ref := by
  have htrim := h.trim_toText
  induction ref with
  | scalar kind =>
    have hne : kind.name.toList ≠ [] := by cases kind <;> decide
    rw [toText] at htrim ⊢
    rw [parseChars_simple htrim hne kind.isNameChar_of_mem_name, simple,
      if_pos (List.all_eq_true.mpr kind.isNameChar_of_mem_name), String.ofList_toList,
      kind.ofName?_name]
  | named name =>
    have hne : name.toList ≠ [] := mt String.toList_eq_nil_iff.mp h.notEmpty
    rw [toText] at htrim ⊢
    rw [parseChars_simple htrim hne h.chars, simple, if_pos (List.all_eq_true.mpr h.chars),
      String.ofList_toList, h.notScalar]
  | pointer target ih =>
    have htarget : target.WellFormed := h
    rw [toList_pointer] at htrim ⊢
    rw [parseChars_pointer htrim, ih htarget htarget.trim_toText]
    rfl
  | slice element ih =>
    have helement : element.WellFormed := h
    rw [toList_slice] at htrim ⊢
    rw [parseChars_slice htrim, ih helement helement.trim_toText]
    rfl
  | map key value ihKey ihValue =>
    obtain ⟨hkey, hvalue⟩ := h
    rw [toList_map] at htrim ⊢
    exact parseChars_map htrim (hkey.isBalanced.splitAtClose_eq _) (ihKey hkey hkey.trim_toText)
      (ihValue hvalue hvalue.trim_toText)

theorem wellFormed_of_simple (hne : text ≠ []) (h : simple input text = .ok ref) :
    ref.WellFormed := by
  rw [simple] at h
  split at h
  next hchars =>
    split at h
    next =>
      cases h
      exact trivial
    next hnone =>
      cases h
      refine ⟨mt String.ofList_eq_empty_iff.mp hne, ?_, hnone⟩
      rw [String.toList_ofList]
      exact List.all_eq_true.mp hchars
  next => cases h

/-- Each reading of a part gives a well-formed reference. -/
theorem wellFormed_of_parseChars (h : parseChars input = .ok ref) : ref.WellFormed := by
  fun_induction parseChars input generalizing ref with
  | case1 | case4 => cases h
  | case2 input rest hstar ih =>
    obtain ⟨target, htarget, rfl⟩ := map_succeeds_iff.mp h
    change target.WellFormed
    exact ih htarget
  | case3 input rest hopen ih =>
    obtain ⟨element, helement, rfl⟩ := map_succeeds_iff.mp h
    change element.WellFormed
    exact ih helement
  | case5 input rest hopen key value hsplit ihKey ihValue =>
    simp only [bind_succeeds_iff, pure_succeeds_iff] at h
    obtain ⟨keyRef, hkey, valueRef, hvalue, rfl⟩ := h
    exact ⟨ihKey hkey, ihValue hvalue⟩
  | case6 input hne => exact wellFormed_of_simple hne h

/-- A reference is read back from its text exactly if it is well formed. Only well-formed references
are ever read, so what is printed after reading is read as the same again. -/
theorem parse_toText_iff_wellFormed :
    (∀ ref : TypeRef, parse ref.toText = .ok ref ↔ ref.WellFormed) ∧
      ∀ text ref, parse text = .ok ref → ref.WellFormed ∧ parse ref.toText = .ok ref := by
  have hback {ref : TypeRef} (h : ref.WellFormed) : parse ref.toText = .ok ref :=
    h.parseChars_toText
  have hread {text : String} {ref : TypeRef} (h : parse text = .ok ref) : ref.WellFormed :=
    wellFormed_of_parseChars h
  exact ⟨fun ref => ⟨hread, hback⟩, fun text ref h => ⟨hread h, hback (hread h)⟩⟩

theorem parse_toText_iff_wellFormed_shelves :
    parse " map[ map[Key] []int64 ]* Item" =
        .ok (map (map (named "Key") (slice (scalar .int))) (pointer (named "Item"))) ∧
      parse "map[map[Key][]int]*Item" =
        .ok (map (map (named "Key") (slice (scalar .int))) (pointer (named "Item"))) := by
  have hread : parse " map[ map[Key] []int64 ]* Item" =
      .ok (map (map (named "Key") (slice (scalar .int))) (pointer (named "Item"))) := by
    decide +kernel
  exact ⟨hread, (parse_toText_iff_wellFormed.2 _ _ hread).2⟩

end TypeRef

end TaggedSchema
