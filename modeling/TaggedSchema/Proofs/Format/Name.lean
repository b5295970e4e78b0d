import TaggedSchema.Format.Complaint
import TaggedSchema.Proofs.Format.Regular
import TaggedSchema.Proofs.Text.Blank
import TaggedSchema.Proofs.Text.Bytes

/-!
# Which texts are names

A subdomain is made of labels, a label key of a subdomain and a label value. Every label is also a
name of each of the other kinds.
-/

namespace TaggedSchema

namespace Name

open Text
open scoped Computability

variable {isInner isOuter : Char → Bool} {c : Char} {text : List Char}

/-! ## Texts between outer characters -/

/-- All characters are inner ones, and the first and the last are outer ones. -/
structure IsFramed (isInner isOuter : Char → Bool) (text : List Char) : Prop where
  ne_nil : text ≠ []
  inner : ∀ c ∈ text, isInner c = true
  first : ∀ c ∈ text.head?, isOuter c = true
  last : ∀ c ∈ text.getLast?, isOuter c = true

theorem IsFramed.mono {isInner' isOuter' : Char → Bool} (h : IsFramed isInner isOuter text)
    (hinner : ∀ c, isInner c = true → isInner' c = true)
    (houter : ∀ c, isOuter c = true → isOuter' c = true) : IsFramed isInner' isOuter' text where
  ne_nil := h.ne_nil
  inner c hc := hinner c (h.inner c hc)
  first c hc := houter c (h.first c hc)
  last c hc := houter c (h.last c hc)

theorem IsFramed.not_mem (h : IsFramed isInner isOuter text) (hc : isInner c = false) :
    c ∉ text := by
  intro hmem
  rw [h.inner c hmem] at hc
  cases hc

theorem isFramed_iff (houter : ∀ c, isOuter c = true → isInner c = true) :
    IsFramed isInner isOuter text ↔ (∃ c, isOuter c = true ∧ text = [c]) ∨
      ∃ first middle last, isOuter first = true ∧ (∀ c ∈ middle, isInner c = true) ∧
        isOuter last = true ∧ text = first :: (middle ++ [last]) := by
  constructor
  · intro h
    obtain ⟨first, rest, rfl⟩ := List.exists_cons_of_ne_nil h.ne_nil
    have hfirst := h.first first rfl
    rcases rest.eq_nil_or_concat' with rfl | ⟨middle, last, rfl⟩
    · exact .inl ⟨first, hfirst, rfl⟩
    · have hmiddle : ∀ c ∈ middle, isInner c = true := fun c hc =>
        h.inner c (List.mem_cons_of_mem _ (List.mem_append_left _ hc))
      have hlast := h.last last
      rw [← List.cons_append] at hlast
      exact .inr ⟨first, middle, last, hfirst, hmiddle, hlast List.getLast?_concat, rfl⟩
  · rintro (⟨c, hc, rfl⟩ | ⟨first, middle, last, hfirst, hmiddle, hlast, rfl⟩)
    · refine ⟨List.cons_ne_nil _ _, List.forall_mem_singleton.mpr (houter c hc), ?_, ?_⟩
      all_goals
        rintro d ⟨⟩
        exact hc
    · refine ⟨List.cons_ne_nil _ _, ?_, ?_, ?_⟩
      · rw [List.forall_mem_cons, List.forall_mem_append, List.forall_mem_singleton]
        exact ⟨houter first hfirst, hmiddle, houter last hlast⟩
      · rintro d ⟨⟩
        exact hfirst
      · intro d hd
        rw [← List.cons_append, List.getLast?_append] at hd
        cases hd
        exact hlast

/-- An outer character, and then perhaps more that ends with an outer one. -/
theorem mem_outer_mul_iff (houter : ∀ c, isOuter c = true → isInner c = true) :
    text ∈ letters isOuter * ((letters isInner)∗ * letters isOuter + 1) ↔
      IsFramed isInner isOuter text := by
  rw [isFramed_iff houter]
  constructor
  · rintro ⟨_, ⟨first, hfirst, rfl⟩, rest, hrest | rfl, rfl⟩
    · obtain ⟨middle, hmiddle, _, ⟨last, hlast, rfl⟩, rfl⟩ := Language.mem_mul.mp hrest
      exact .inr ⟨first, middle, last, hfirst, mem_kstar_letters.mp hmiddle, hlast, rfl⟩
    · exact .inl ⟨first, hfirst, rfl⟩
  · rintro (⟨c, hc, rfl⟩ | ⟨first, middle, last, hfirst, hmiddle, hlast, rfl⟩)
    · exact ⟨[c], ⟨c, hc, rfl⟩, [], .inr rfl, rfl⟩
    · refine ⟨[first], ⟨first, hfirst, rfl⟩, middle ++ [last], .inl ?_, rfl⟩
      exact ⟨middle, mem_kstar_letters.mpr hmiddle, [last], ⟨last, hlast, rfl⟩, rfl⟩

/-- An outer character, and perhaps more in front that begins with an outer one. -/
theorem mem_mul_outer_iff (houter : ∀ c, isOuter c = true → isInner c = true) :
    text ∈ (letters isOuter * (letters isInner)∗ + 1) * letters isOuter ↔
      IsFramed isInner isOuter text := by
  rw [isFramed_iff houter]
  constructor
  · rintro ⟨front, hfront | rfl, _, ⟨last, hlast, rfl⟩, rfl⟩
    · obtain ⟨_, ⟨first, hfirst, rfl⟩, middle, hmiddle, rfl⟩ := Language.mem_mul.mp hfront
      exact .inr ⟨first, middle, last, hfirst, mem_kstar_letters.mp hmiddle, hlast, rfl⟩
    · exact .inl ⟨last, hlast, rfl⟩
  · rintro (⟨c, hc, rfl⟩ | ⟨first, middle, last, hfirst, hmiddle, hlast, rfl⟩)
    · exact ⟨[], .inr rfl, [c], ⟨c, hc, rfl⟩, rfl⟩
    · refine ⟨first :: middle, .inl ?_, [last], ⟨last, hlast, rfl⟩, rfl⟩
      exact ⟨[first], ⟨first, hfirst, rfl⟩, middle, mem_kstar_letters.mpr hmiddle, rfl⟩

/-! ## Labels and names -/

/-- Small letters, digits and hyphens, where a letter or a digit begins and ends the label. -/
def IsLabel (text : List Char) : Prop := IsFramed isLabelChar isLowerAlphanumeric text

def IsQualified (text : List Char) : Prop := IsFramed isQualifiedChar Char.isAlphanum text

theorem isLabelChar_of_isLowerAlphanumeric (h : isLowerAlphanumeric c = true) :
    isLabelChar c = true := by
  rw [isLabelChar, h, Bool.or_true]

theorem isQualifiedChar_of_isAlphanum (h : c.isAlphanum = true) : isQualifiedChar c = true := by
  rw [isQualifiedChar, h, Bool.or_true]

theorem isAlphanum_of_isLowerAlphanumeric (h : isLowerAlphanumeric c = true) :
    c.isAlphanum = true := by
  rcases Bool.or_eq_true_iff.mp h with h | h
  · exact Bool.or_eq_true_iff.mpr (.inl (Bool.or_eq_true_iff.mpr (.inr h)))
  · exact Bool.or_eq_true_iff.mpr (.inr h)

theorem isQualifiedChar_of_isLabelChar (h : isLabelChar c = true) : isQualifiedChar c = true := by
  rcases Bool.or_eq_true_iff.mp h with h | h
  · rw [isQualifiedChar, h, Bool.true_or, Bool.true_or, Bool.true_or]
  · exact isQualifiedChar_of_isAlphanum (isAlphanum_of_isLowerAlphanumeric h)

theorem IsLabel.isQualified (h : IsLabel text) : IsQualified text :=
  h.mono (fun _ => isQualifiedChar_of_isLabelChar) fun _ => isAlphanum_of_isLowerAlphanumeric

theorem label_accepts_iff : label.accepts text = true ↔ IsLabel text :=
  label.accepts_iff_mem_language.trans
    (mem_outer_mul_iff fun _ => isLabelChar_of_isLowerAlphanumeric)

theorem qualified_accepts_iff : qualified.accepts text = true ↔ IsQualified text :=
  qualified.accepts_iff_mem_language.trans
    (mem_mul_outer_iff fun _ => isQualifiedChar_of_isAlphanum)

theorem subdomain_accepts_iff :
    subdomain.accepts text = true ↔ ∀ piece ∈ text.splitOn '.', IsLabel piece := by
  have hlabel (piece : List Char) : piece ∈ label.language ↔ IsLabel piece :=
    label.accepts_iff_mem_language.symm.trans label_accepts_iff
  have hlanguage : subdomain.language = label.language * ({['.']} * label.language)∗ := by
    rw [← letters_beq]
    rfl
  have hpieces : ∀ piece ∈ label.language, '.' ∉ piece := fun piece hpiece =>
    ((hlabel piece).mp hpiece).not_mem rfl
  rw [Regular.accepts_iff_mem_language, hlanguage, mem_separated_iff hpieces]
  simp only [hlabel]

/-! ## Faults -/

theorem faults_eq_nil_iff {limit : Nat} {expression : Regular} {mismatch : NameFault} :
    faults limit expression mismatch text = [] ↔
      byteSize text ≤ limit ∧ expression.accepts text = true := by
  rw [faults, List.append_eq_nil_iff]
  refine and_congr ?_ ?_
  · split
    next hlimit => exact iff_of_false (List.cons_ne_nil _ _) (Nat.not_le_of_lt hlimit)
    next hlimit => exact iff_of_true rfl (Nat.le_of_not_lt hlimit)
  · split
    next haccepts => exact iff_of_true rfl haccepts
    next haccepts => exact iff_of_false (List.cons_ne_nil _ _) haccepts

theorem labelFaults_eq_nil_iff :
    labelFaults text = [] ↔ byteSize text ≤ labelLimit ∧ IsLabel text := by
  rw [labelFaults, faults_eq_nil_iff, label_accepts_iff]

theorem subdomainFaults_eq_nil_iff :
    subdomainFaults text = [] ↔
      byteSize text ≤ subdomainLimit ∧ ∀ piece ∈ text.splitOn '.', IsLabel piece := by
  rw [subdomainFaults, faults_eq_nil_iff, subdomain_accepts_iff]

theorem labelValueFaults_eq_nil_iff :
    labelValueFaults text = [] ↔ text = [] ∨ byteSize text ≤ labelLimit ∧ IsQualified text := by
  rw [labelValueFaults]
  split
  next hnil => exact iff_of_true rfl (.inl (List.isEmpty_iff.mp hnil))
  next hne =>
    rw [faults_eq_nil_iff, qualified_accepts_iff]
    exact (or_iff_right fun hnil => hne (List.isEmpty_iff.mpr hnil)).symm

theorem slash_not_mem_of_labelValueFaults (h : labelValueFaults text = []) : '/' ∉ text := by
  rcases labelValueFaults_eq_nil_iff.mp h with rfl | ⟨-, hqualified⟩
  · exact List.not_mem_nil
  · exact hqualified.not_mem rfl

theorem slash_not_mem_of_subdomainFaults (h : subdomainFaults text = []) : '/' ∉ text := by
  intro hmem
  have htext : ['.'].intercalate (text.splitOn '.') = text := List.intercalate_splitOn '.'
  rw [← htext] at hmem
  obtain ⟨piece, hpiece, hslash⟩ := exists_of_mem_intercalate hmem (by decide)
  exact ((subdomainFaults_eq_nil_iff.mp h).2 piece hpiece).not_mem rfl hslash

/-! ## Label keys -/

theorem partFaults_eq_nil_iff {part : KeyPart} {check : List Char → List NameFault} :
    partFaults part check text = [] ↔ text ≠ [] ∧ check text = [] := by
  rw [partFaults, List.map_eq_nil_iff]
  split
  next hnil => exact iff_of_false (List.cons_ne_nil _ _) fun h => h.1 (List.isEmpty_iff.mp hnil)
  next hne => exact (and_iff_right fun hnil => hne (List.isEmpty_iff.mpr hnil)).symm

theorem keyNameFaults_eq_nil_iff :
    keyNameFaults text = [] ↔ text ≠ [] ∧ labelValueFaults text = [] := by
  rw [keyNameFaults, partFaults_eq_nil_iff, faults_eq_nil_iff, qualified_accepts_iff,
    labelValueFaults_eq_nil_iff]
  exact and_congr_right fun hne => (or_iff_right hne).symm

theorem domainFaults_eq_nil_iff :
    partFaults .domain subdomainFaults text = [] ↔ subdomainFaults text = [] := by
  rw [partFaults_eq_nil_iff]
  refine and_iff_right_of_imp ?_
  rintro h rfl
  cases h

theorem labelKeyFaults_of_not_mem (h : '/' ∉ text) : labelKeyFaults text = keyNameFaults text := by
  have hall : ∀ c ∈ text, (c != '/') = true := fun c hc =>
    bne_iff_ne.mpr (ne_of_mem_of_not_mem hc h)
  have hspan : text.span (· != '/') = (text, []) := by
    rw [List.span_eq_takeWhile_dropWhile, List.takeWhile_eq_self_iff.mpr hall,
      List.dropWhile_eq_nil_iff.mpr hall]
  simp only [labelKeyFaults, hspan]

theorem labelKeyFaults_append {domain name : List Char} (h : '/' ∉ domain) :
    labelKeyFaults (domain ++ '/' :: name) =
      if name.contains '/' then [.severalSlashes]
      else partFaults .domain subdomainFaults domain ++ keyNameFaults name := by
  have hall : ∀ c ∈ domain, (c != '/') = true := fun c hc =>
    bne_iff_ne.mpr (ne_of_mem_of_not_mem hc h)
  have hstops : Stops (· != '/') ('/' :: name) := stops_cons.mpr (bne_self_eq_false '/')
  have hspan : (domain ++ '/' :: name).span (· != '/') = (domain, '/' :: name) := by
    rw [List.span_eq_takeWhile_dropWhile, takeWhile_run hall hstops, dropWhile_run hall hstops]
  simp only [labelKeyFaults, hspan]

/-- The cases are whether there is a slash. The first one ends the domain. -/
theorem labelKeyFaults_eq_nil_iff :
    labelKeyFaults text = [] ↔ ∃ name, name ≠ [] ∧ labelValueFaults name = [] ∧
      (text = name ∨ ∃ domain, text = domain ++ '/' :: name ∧ subdomainFaults domain = []) := by
  by_cases hmem : '/' ∈ text
  · obtain ⟨domain, name, rfl, hdomain⟩ := List.eq_append_cons_of_mem hmem
    rw [labelKeyFaults_append hdomain]
    constructor
    · intro h
      split at h
      next => cases h
      next =>
        obtain ⟨hdomainFaults, hnameFaults⟩ := List.append_eq_nil_iff.mp h
        obtain ⟨hne, hvalue⟩ := keyNameFaults_eq_nil_iff.mp hnameFaults
        exact ⟨name, hne, hvalue, .inr ⟨domain, rfl, domainFaults_eq_nil_iff.mp hdomainFaults⟩⟩
    · rintro ⟨name', hne, hvalue, rfl | ⟨domain', htext, hsubdomain⟩⟩
      · exact absurd hmem (slash_not_mem_of_labelValueFaults hvalue)
      · obtain ⟨rfl, rfl⟩ :=
          split_unique hdomain (slash_not_mem_of_subdomainFaults hsubdomain) htext
        have hslash : name.contains '/' = false := by
          simpa using slash_not_mem_of_labelValueFaults hvalue
        rw [hslash, if_neg Bool.false_ne_true, domainFaults_eq_nil_iff.mpr hsubdomain,
          keyNameFaults_eq_nil_iff.mpr ⟨hne, hvalue⟩, List.append_nil]
  · rw [labelKeyFaults_of_not_mem hmem, keyNameFaults_eq_nil_iff]
    constructor
    · rintro ⟨hne, hvalue⟩
      exact ⟨text, hne, hvalue, .inl rfl⟩
    · rintro ⟨name, hne, hvalue, rfl | ⟨domain, rfl, -⟩⟩
      · exact ⟨hne, hvalue⟩
      · exact absurd (List.mem_append_right _ List.mem_cons_self) hmem

end Name

namespace Format

open Name

/-- There is nothing to complain about. -/
def Accepts (format : Format) (text : String) : Prop :=
  format.complaints text.toList = []

instance (format : Format) (text : String) : Decidable (format.Accepts text) :=
  inferInstanceAs (Decidable (_ = _))

variable {text : String}

theorem shortName_accepts_iff :
    shortName.Accepts text ↔ text.utf8ByteSize ≤ labelLimit ∧ IsLabel text.toList := by
  rw [Accepts, complaints, List.map_eq_nil_iff, labelFaults_eq_nil_iff, Text.byteSize_toList]

theorem longName_accepts_iff :
    longName.Accepts text ↔
      text.utf8ByteSize ≤ subdomainLimit ∧ ∀ piece ∈ text.toList.splitOn '.', IsLabel piece := by
  rw [Accepts, complaints, List.map_eq_nil_iff, subdomainFaults_eq_nil_iff, Text.byteSize_toList]

theorem labelValue_accepts_iff :
    labelValue.Accepts text ↔
      text = "" ∨ text.utf8ByteSize ≤ labelLimit ∧ IsQualified text.toList := by
  rw [Accepts, complaints, List.map_eq_nil_iff, labelValueFaults_eq_nil_iff, Text.byteSize_toList,
    String.toList_eq_nil_iff]

theorem labelKey_accepts_iff :
    labelKey.Accepts text ↔
      ∃ name, name ≠ "" ∧ labelValue.Accepts name ∧
        (text = name ∨ ∃ domain, text = domain ++ "/" ++ name ∧ longName.Accepts domain) := by
  have htexts : Function.Surjective String.toList :=
    fun word => ⟨String.ofList word, String.toList_ofList⟩
  have hjoined (domain name : String) :
      text.toList = domain.toList ++ '/' :: name.toList ↔ text = domain ++ "/" ++ name := by
    rw [← String.toList_inj, String.toList_append, String.toList_append, List.append_assoc]
    rfl
  simp only [Accepts, complaints, List.map_eq_nil_iff, labelKeyFaults_eq_nil_iff, htexts.exists,
    ne_eq, String.toList_eq_nil_iff, String.toList_inj, hjoined]

/-- A long name is made of labels between points, and a label key is a label value or a long name
and a label value with a slash between them. Short names are names of all kinds. -/
theorem accepts_names (text : String) :
    (longName.Accepts text ↔
        text.utf8ByteSize ≤ 253 ∧ ∀ piece ∈ text.toList.splitOn '.', IsLabel piece) ∧
      (labelKey.Accepts text ↔
        ∃ name, name ≠ "" ∧ labelValue.Accepts name ∧
          (text = name ∨ ∃ domain, text = domain ++ "/" ++ name ∧ longName.Accepts domain)) ∧
      (shortName.Accepts text →
        longName.Accepts text ∧ labelKey.Accepts text ∧ labelValue.Accepts text) := by
  refine ⟨longName_accepts_iff, labelKey_accepts_iff, fun h => ?_⟩
  obtain ⟨hlimit, hlabel⟩ := shortName_accepts_iff.mp h
  have hvalue : labelValue.Accepts text :=
    labelValue_accepts_iff.mpr (.inr ⟨hlimit, hlabel.isQualified⟩)
  have hne : text ≠ "" := mt String.toList_eq_nil_iff.mpr hlabel.ne_nil
  have hpieces : text.toList.splitOn '.' = [text.toList] :=
    List.splitOn_eq_singleton (hlabel.not_mem rfl)
  refine ⟨longName_accepts_iff.mpr ⟨hlimit.trans (by decide), ?_⟩, ?_, hvalue⟩
  · rw [hpieces]
    exact List.forall_mem_singleton.mpr hlabel
  · exact labelKey_accepts_iff.mpr ⟨text, hne, hvalue, .inl rfl⟩

example : labelKey.Accepts "a-1.b/C_d" ∧ ¬longName.Accepts "a-1..b" := by decide +kernel

end Format

end TaggedSchema
