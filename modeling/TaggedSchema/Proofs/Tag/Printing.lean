import TaggedSchema.Proofs.Tag.Reading
import TaggedSchema.Proofs.Text.Numeral

/-!
# Reading printed tags

A printed tag reads as a tag again. It is the same tag if quoting spells no character of its strings
with an escape that reading does not know; such an escape is read without its backslash.
-/

namespace TaggedSchema

namespace Text

/-! ## Quoted characters -/

/-- The escapes that quoting writes and reading knows. -/
def knownEscapes : List (List Char) :=
  [['\\', '"'], ['\\', '\\'], ['\\', 'n'], ['\\', 't']]

/-- Quoting leaves the character as it is, or spells it with an escape that reading knows. -/
def IsPlain (c : Char) : Prop :=
  quotedChar c = [c] ∨ quotedChar c ∈ knownEscapes

instance (c : Char) : Decidable (IsPlain c) := inferInstanceAs (Decidable (_ ∨ _))

/-- What the spelling of a character in quotes is read as. -/
def rereadChar (c : Char) : List Char :=
  if IsPlain c then [c] else (quotedChar c).tail

theorem quotedChar_hexNumeral (code : Nat) : ∀ c ∈ hexNumeral code, quotedChar c = [c] := by
  have hdigits : ∀ d < 16, quotedChar (Nat.digitChar d) = [Nat.digitChar d] := by decide
  intro c hc
  obtain ⟨d, hd, rfl⟩ := exists_digitChar_of_mem_toDigits (by decide) hc
  exact hdigits d hd

theorem quotedChar_hidden {c : Char} (h : isHidden c = true) (hnewline : c ≠ '\n') (htab : c ≠ '\t')
    (hreturn : c ≠ '\r') (hnull : c ≠ '\x00') :
    quotedChar c = '\\' :: 'u' :: '\x7b' :: (hexNumeral c.toNat ++ ['\x7d']) := by
  have hquote : c ≠ '"' := by
    rintro rfl
    cases h
  have hbackslash : c ≠ '\\' := by
    rintro rfl
    cases h
  rw [quotedChar, if_neg hquote, if_neg hbackslash, if_neg hnewline, if_neg htab, if_neg hreturn,
    if_neg hnull, if_pos h]
  rfl

/-- The characters that are not plain are the carriage return, the null character and those that are
spelled by their number. -/
theorem not_isPlain_iff {c : Char} :
    ¬IsPlain c ↔ c = '\r' ∨ c = '\x00' ∨ (isHidden c = true ∧ c ≠ '\n' ∧ c ≠ '\t') := by
  constructor
  · intro h
    have hne (d : Char) (hd : IsPlain d) : c ≠ d := fun hcd => h (hcd ▸ hd)
    have hnewline : c ≠ '\n' := hne '\n' (by decide)
    have htab : c ≠ '\t' := hne '\t' (by decide)
    by_cases hreturn : c = '\r'
    · exact .inl hreturn
    by_cases hnull : c = '\x00'
    · exact .inr (.inl hnull)
    refine .inr (.inr ⟨?_, hnewline, htab⟩)
    by_contra hvisible
    refine h (.inl ?_)
    rw [quotedChar, if_neg (hne '"' (by decide)), if_neg (hne '\\' (by decide)),
      if_neg hnewline, if_neg htab, if_neg hreturn, if_neg hnull, if_neg hvisible]
  · rintro (rfl | rfl | ⟨hhidden, hnewline, htab⟩)
    · decide
    · decide
    · by_cases hreturn : c = '\r'
      · subst hreturn
        decide
      by_cases hnull : c = '\x00'
      · subst hnull
        decide
      rw [IsPlain, quotedChar_hidden hhidden hnewline htab hreturn hnull]
      simp [knownEscapes]

/-- Behind the backslash of an escape that reading does not know, every character stands for
itself. -/
theorem quotedChar_of_not_isPlain {c : Char} (h : ¬IsPlain c) :
    ∃ x tail, quotedChar c = '\\' :: x :: tail ∧ x ≠ 'n' ∧ x ≠ 't' ∧
      ∀ y ∈ x :: tail, quotedChar y = [y] := by
  by_cases hreturn : c = '\r'
  · subst hreturn
    exact ⟨'r', [], rfl, by decide, by decide, List.forall_mem_singleton.mpr rfl⟩
  by_cases hnull : c = '\x00'
  · subst hnull
    exact ⟨'0', [], rfl, by decide, by decide, List.forall_mem_singleton.mpr rfl⟩
  obtain hc | hc | ⟨hhidden, hnewline, htab⟩ := not_isPlain_iff.mp h
  · exact absurd hc hreturn
  · exact absurd hc hnull
  refine ⟨'u', _, quotedChar_hidden hhidden hnewline htab hreturn hnull, by decide, by decide, ?_⟩
  intro y hy
  simp only [List.mem_cons, List.mem_append, List.not_mem_nil, or_false] at hy
  rcases hy with rfl | rfl | hy | rfl
  · decide
  · decide
  · exact quotedChar_hexNumeral _ y hy
  · decide

theorem isPlain_of_mem_rereadChar {c d : Char} (h : d ∈ rereadChar c) : IsPlain d := by
  rw [rereadChar] at h
  split at h
  next hplain => rwa [List.mem_singleton.mp h]
  next hplain =>
    obtain ⟨x, tail, hquoted, -, -, htail⟩ := quotedChar_of_not_isPlain hplain
    rw [hquoted] at h
    exact .inl (htail d h)

/-- No character that is not plain survives. -/
theorem flatMap_rereadChar_eq_self_iff {text : List Char} :
    text.flatMap rereadChar = text ↔ ∀ c ∈ text, IsPlain c := by
  constructor
  · intro h c hc
    rw [← h] at hc
    obtain ⟨d, -, hd⟩ := List.mem_flatMap.mp hc
    exact isPlain_of_mem_rereadChar hd
  · intro h
    have hself : text.map rereadChar = text.map fun c => [c] :=
      List.map_congr_left fun c hc => if_pos (h c hc)
    rw [List.flatMap_def, hself, ← List.flatMap_def, List.flatMap_singleton']

/-- Quoting spells no character of the strings with an escape that reading does not know. -/
def AllPlain (strings : List String) : Prop :=
  ∀ text ∈ strings, ∀ c ∈ text.toList, IsPlain c

theorem allPlain_append {first second : List String} :
    AllPlain (first ++ second) ↔ AllPlain first ∧ AllPlain second :=
  List.forall_mem_append

end Text

open Text

namespace Tag

theorem Escaped.append {run spelled content : List Char} (h : Escaped spelled content)
    (hrun : ∀ c ∈ run, quotedChar c = [c]) : Escaped (run ++ spelled) (run ++ content) := by
  induction run with
  | nil => exact h
  | cons c run ih =>
    rw [List.forall_mem_cons] at hrun
    refine .plain ?_ ?_ (ih hrun.2)
    all_goals
      rintro rfl
      cases hrun.1

theorem unescape_of_quotedChar {c : Char} (h : quotedChar c ∈ knownEscapes) :
    ∃ x, quotedChar c = ['\\', x] ∧ unescape x = c := by
  by_cases hquote : c = '"'
  · exact ⟨'"', by rw [hquote]; rfl, hquote.symm⟩
  by_cases hbackslash : c = '\\'
  · exact ⟨'\\', by rw [hbackslash]; rfl, hbackslash.symm⟩
  by_cases hnewline : c = '\n'
  · exact ⟨'n', by rw [hnewline]; rfl, hnewline.symm⟩
  by_cases htab : c = '\t'
  · exact ⟨'t', by rw [htab]; rfl, htab.symm⟩
  rw [quotedChar, if_neg hquote, if_neg hbackslash, if_neg hnewline, if_neg htab] at h
  split_ifs at h <;> simp [knownEscapes] at h

theorem Escaped.quotedChar {spelled content : List Char} (h : Escaped spelled content) (c : Char) :
    Escaped (quotedChar c ++ spelled) (rereadChar c ++ content) := by
  rw [rereadChar]
  split
  next hplain =>
    rcases hplain with hself | hescape
    · rw [hself]
      exact h.append (List.forall_mem_singleton.mpr hself)
    · obtain ⟨x, hquoted, hx⟩ := unescape_of_quotedChar hescape
      rw [hquoted, ← hx]
      exact h.escape x
  next hplain =>
    obtain ⟨x, tail, hquoted, hn, ht, htail⟩ := quotedChar_of_not_isPlain hplain
    rw [List.forall_mem_cons] at htail
    rw [hquoted]
    exact .other hn ht (h.append htail.2)

theorem escaped_flatMap (text : List Char) :
    Escaped (text.flatMap Text.quotedChar) (text.flatMap rereadChar) := by
  induction text with
  | nil => exact .nil
  | cons c text ih => exact ih.quotedChar c

theorem SpellsString.endsSolid {text : List Char} {content : String}
    (h : SpellsString text content) : EndsSolid text := by
  cases h with
  | @raw content => exact (endsSolid_singleton rfl).append ('\x60' :: content)
  | @escaped spelled => exact (endsSolid_singleton rfl).append ('"' :: spelled)

theorem spellsString_quoted (text : String) :
    SpellsString (quoted text).toList (String.ofList (text.toList.flatMap rereadChar)) := by
  rw [quoted, String.toList_ofList]
  exact .escaped (escaped_flatMap text.toList)

end Tag

/-! ## Literals -/

namespace Literal

/-- What a printed literal is read as. -/
def reread : Literal → Literal
  | string text => string (String.ofList (text.toList.flatMap rereadChar))
  | value => value

def strings : Literal → List String
  | string text => [text]
  | _ => []

/-- A word stands for something that is printed in the same way, or for an integer. -/
theorem ofWord_cases (text : List Char) :
    (ofWord text).toText.toList = text ∨ ∃ n, ofWord text = int n ∧ FitsSigned n := by
  rw [ofWord]
  split_ifs with htrue hfalse
  · exact .inl htrue.symm
  · exact .inl hfalse.symm
  · split
    next n hn => exact .inr ⟨n, rfl, fitsSigned_of_signed? hn⟩
    next => exact .inl String.toList_ofList

theorem ofWord_toString {n : Int} (h : FitsSigned n) : ofWord (toString n).toList = int n := by
  have hsigned := signed?_toString h
  have hne {word : List Char} (hword : signed? word = none) : (toString n).toList ≠ word := by
    rintro rfl
    cases hsigned.symm.trans hword
  rw [ofWord, if_neg (hne rfl), if_neg (hne rfl), hsigned]

theorem ofWord_toText (text : List Char) : ofWord (ofWord text).toText.toList = ofWord text := by
  rcases ofWord_cases text with hsame | ⟨n, hn, hfits⟩
  · rw [hsame]
  · rw [hn]
    exact ofWord_toString hfits

theorem reread_ofWord (text : List Char) : (ofWord text).reread = ofWord text := by
  rw [ofWord]
  split_ifs
  · rfl
  · rfl
  · split <;> rfl

theorem reread_eq_self_iff {value : Literal} :
    value.reread = value ↔ AllPlain value.strings := by
  cases value with
  | string text =>
    rw [reread, string.injEq, ← String.toList_inj, String.toList_ofList,
      flatMap_rereadChar_eq_self_iff]
    simp [strings, AllPlain]
  | _ => exact iff_of_true rfl nofun

end Literal

namespace Tag

theorem isWord_toString (n : Int) : IsWord (toString n).toList := by
  have hdigits (k : Nat) : ∀ c ∈ Nat.toDigits 10 k, isWordChar c = true := by
    intro c hc
    have hdigit : c.isDigit = true := Nat.isDigit_of_mem_toDigits (by decide) (by decide) hc
    simp [isWordChar, Char.isAlphanum, hdigit]
  rcases toList_toString n with ⟨k, -, htext⟩ | ⟨k, -, htext⟩
  · rw [htext]
    exact ⟨Nat.toDigits_ne_nil, hdigits k⟩
  · rw [htext]
    exact ⟨List.cons_ne_nil _ _, List.forall_mem_cons.mpr ⟨rfl, hdigits k⟩⟩

theorem IsWord.toText {text : List Char} (h : IsWord text) :
    IsWord (Literal.ofWord text).toText.toList := by
  rcases Literal.ofWord_cases text with hsame | ⟨n, hn, -⟩
  · rwa [hsame]
  · rw [hn]
    exact isWord_toString n

theorem SpellsLiteral.toText {text : List Char} {value : Literal} (h : SpellsLiteral text value) :
    SpellsLiteral value.toText.toList value.reread := by
  cases h with
  | @string content h => exact .string (spellsString_quoted content)
  | word h =>
    have := SpellsLiteral.word h.toText
    rw [Literal.ofWord_toText] at this
    rwa [Literal.reread_ofWord]

/-! ## Arguments -/

end Tag

def Argument.reread (argument : Argument) : Argument :=
  { argument with value := argument.value.reread }

namespace Tag

theorem SpellsArgument.prepend_blanks {gap text : List Char} {argument : Argument}
    (h : SpellsArgument text argument) (hgap : AllBlank gap) :
    SpellsArgument (gap ++ text) argument := by
  cases h with
  | positional hbefore hvalue hafter =>
    rw [← List.append_assoc]
    exact .positional (hgap.append hbefore) hvalue hafter
  | named hbefore hname hgap₁ hgap₂ hvalue hafter =>
    rw [← List.append_assoc]
    exact .named (hgap.append hbefore) hname hgap₁ hgap₂ hvalue hafter

theorem SpellsArgumentList.prepend_blanks {gap text : List Char} {arguments : List Argument}
    (h : SpellsArgumentList text arguments) (hgap : AllBlank gap) :
    SpellsArgumentList (gap ++ text) arguments := by
  cases h with
  | last h => exact .last (h.prepend_blanks hgap)
  | more h hrest =>
    rw [← List.append_assoc]
    exact .more (h.prepend_blanks hgap) hrest

theorem SpellsArgument.toText {text : List Char} {argument : Argument}
    (h : SpellsArgument text argument) : SpellsArgument argument.toText.toList argument.reread := by
  have hspace : AllBlank [' '] := List.forall_mem_singleton.mpr rfl
  cases h with
  | positional hbefore hvalue hafter =>
    have := SpellsArgument.positional allBlank_nil hvalue.toText allBlank_nil
    simpa [Argument.toText, Argument.reread] using this
  | named hbefore hname hgap hgap' hvalue hafter =>
    have := SpellsArgument.named allBlank_nil hname allBlank_nil hspace hvalue.toText allBlank_nil
    simpa [Argument.toText, Argument.reread] using this

theorem SpellsArgumentList.toText {text : List Char} {arguments : List Argument}
    (h : SpellsArgumentList text arguments) :
    SpellsArgumentList (String.intercalate ", " (arguments.map Argument.toText)).toList
      (arguments.map Argument.reread) := by
  have hspace : AllBlank [' '] := List.forall_mem_singleton.mpr rfl
  induction h with
  | last h =>
    have := SpellsArgumentList.last h.toText
    simpa using this
  | @more text rest argument arguments h hrest ih =>
    have := SpellsArgumentList.more h.toText (ih.prepend_blanks hspace)
    cases hrest <;> simpa using this

/-- The head with its strings read again, on a tag of which `raw` is the text. -/
def Head.reread (head : Head) (raw : String) : Head :=
  { head with arguments := head.arguments.map Argument.reread, raw }

/-- What a printed tag is read as. -/
def reread : Tag → Tag
  | bare head => bare (head.reread (bare head).toText)
  | valued head value => valued (head.reread (valued head value).toText) value.reread
  | composed head inner => composed (head.reread (composed head inner).toText) inner.reread

/-! ## Heads -/

theorem SpellsQualifiedName.toText {names : List Char} {qualifier : Option String} {name : String}
    (h : SpellsQualifiedName names (qualifier, name)) {scope : Scope} {arguments : List Argument}
    {raw : String} :
    (Head.mk qualifier name scope arguments raw).qualifiedName.toList = names := by
  cases h with
  | plain h => exact String.toList_ofList
  | qualified hqualifier h =>
    simp only [Head.qualifiedName, String.toList_append, String.toList_ofList]
    exact List.append_assoc _ [':'] _

theorem IsName.endsSolid {name : List Char} (h : IsName name) : EndsSolid name :=
  endsSolid_of_forall h.1 fun c hc => isBlank_of_isWordChar (isWordChar_of_isNameChar (h.2 c hc))

theorem SpellsQualifiedName.endsSolid {names : List Char} {name : Option String × String}
    (h : SpellsQualifiedName names name) : EndsSolid names := by
  cases h with
  | plain h => exact h.endsSolid
  | @qualified qualifier name hqualifier h =>
    have := h.endsSolid.append (qualifier ++ [':'])
    simpa using this

/-- The arguments of a tag in parentheses, if it has any. -/
def argumentsText (arguments : List Argument) : String :=
  if arguments.isEmpty then ""
  else "(" ++ String.intercalate ", " (arguments.map Argument.toText) ++ ")"

theorem Head.toText_toList (head : Head) :
    head.toText.toList =
      '+' :: (head.qualifiedName.toList ++ (argumentsText head.arguments).toList) := by
  rw [Head.toText, String.toList_append, String.toList_append]
  rfl

theorem SpellsArguments.toText {text : List Char} {arguments : List Argument}
    (h : SpellsArguments text arguments) :
    SpellsArguments (argumentsText arguments).toList (arguments.map Argument.reread) := by
  cases h with
  | absent | empty => exact .absent
  | list h =>
    have hne : arguments.isEmpty = false := by cases h <;> rfl
    have := SpellsArguments.list h.toText
    simpa [argumentsText, hne] using this

/-- Arguments end with a parenthesis, if there are any. -/
theorem SpellsArguments.endsSolid {front text : List Char} {arguments : List Argument}
    (h : SpellsArguments text arguments) (hfront : EndsSolid front) :
    EndsSolid (front ++ text) := by
  have hclose : EndsSolid [')'] := endsSolid_singleton rfl
  cases h with
  | absent => rwa [List.append_nil]
  | @empty gap => exact (hclose.append ('(' :: gap)).append front
  | @list inside => exact (hclose.append ('(' :: inside)).append front

theorem SpellsHead.endsSolid {scope : Scope} {text behind : List Char} {head : Head}
    (h : SpellsHead scope text behind head) : EndsSolid head.toText.toList := by
  cases h with
  | mk hplus hname harguments =>
    rw [Head.toText_toList, hname.toText]
    exact (harguments.toText.endsSolid hname.endsSolid).append ['+']

theorem SpellsHead.toText {scope : Scope} {text behind : List Char} {head : Head}
    (h : SpellsHead scope text behind head) {again : List Char} {whole : String}
    (hwhole : whole.toList = head.toText.toList ++ again) (hends : EndsSolid whole.toList) :
    SpellsHead scope head.toText.toList again (head.reread whole) := by
  have hraw : whole = String.ofList (trimEnd (head.toText.toList ++ again)) := by
    rw [← hwhole, hends.trimEnd_eq, String.ofList_toList]
  cases h with
  | mk hplus hname harguments =>
    rw [hraw, Head.toText_toList, hname.toText]
    exact .mk (.inr rfl) hname harguments.toText

/-! ## Tags -/

/-- A text that is taken as it is spells the same value when it is printed. -/
theorem exists_printedText {c : Char} (rest : List Char) (hblank : isBlank c = false)
    (hplus : c ≠ '+') (hquote : c ≠ '"') (hbacktick : c ≠ '\x60') :
    ∃ c' rest', (Literal.ofWord (trimEnd (c :: rest))).toText.toList = c' :: rest' ∧
      isBlank c' = false ∧ c' ≠ '+' ∧ c' ≠ '"' ∧ c' ≠ '\x60' ∧ EndsSolid (c' :: rest') := by
  rcases Literal.ofWord_cases (trimEnd (c :: rest)) with hsame | ⟨n, hn, -⟩
  · have hends := endsSolid_trimEnd hblank rest
    rw [trimEnd_cons hblank] at hsame hends
    rw [trimEnd_cons hblank]
    exact ⟨c, trimEnd rest, hsame, hblank, hplus, hquote, hbacktick, hends⟩
  · have hword := isWord_toString n
    have hends := endsSolid_of_forall hword.1 fun c hc => isBlank_of_isWordChar (hword.2 c hc)
    obtain ⟨c', rest', htext⟩ := List.exists_cons_of_ne_nil hword.1
    have hc := hword.2 c' (htext ▸ List.mem_cons_self)
    rw [hn]
    refine ⟨c', rest', htext, isBlank_of_isWordChar hc, ?_, ?_, ?_, htext ▸ hends⟩
    all_goals
      rintro rfl
      cases hc

theorem toList_payload (head : Head) (payload : String) :
    (head.toText ++ "=" ++ payload).toList = head.toText.toList ++ '=' :: payload.toList := by
  rw [String.toList_append, String.toList_append, List.append_assoc]
  rfl

theorem exists_plus_toText (tag : Tag) : ∃ rest, tag.toText.toList = '+' :: rest := by
  cases tag with
  | bare head => exact ⟨_, head.toText_toList⟩
  | valued | composed => exact ⟨_, by rw [toText, toList_payload, Head.toText_toList]; rfl⟩

/-- A printed tag spells a tag, and does not end with a blank. The induction is on the nesting of
tags. -/
theorem Spells.toText {scope : Scope} {text : List Char} {tag : Tag} (h : Spells scope text tag) :
    Spells scope tag.toText.toList tag.reread ∧ EndsSolid tag.toText.toList := by
  have hends (head : Head) {payload : String} (h : EndsSolid payload.toList) :
      EndsSolid (head.toText ++ "=" ++ payload).toList := by
    rw [toList_payload]
    exact (h.append ['=']).append _
  induction h with
  | @bare before text after head hbefore hhead hafter =>
    have hwhole : head.toText.toList = head.toText.toList ++ [] := (List.append_nil _).symm
    have hagain := hhead.toText hwhole hhead.endsSolid
    have hspells := Spells.bare allBlank_nil hagain allBlank_nil
    rw [List.append_nil] at hspells
    exact ⟨hspells, hhead.endsSolid⟩
  | @composed before text gap rest head inner hbefore hgap hhead hinner ih =>
    obtain ⟨hspells, hinnerEnds⟩ := ih
    obtain ⟨rest, hrest⟩ := exists_plus_toText inner
    have hwhole := toList_payload head inner.toText
    have hwholeEnds := hends head hinnerEnds
    rw [Tag.reread, Tag.toText]
    refine ⟨?_, hwholeEnds⟩
    rw [hrest] at hwhole hspells
    rw [hwhole]
    exact .composed allBlank_nil allBlank_nil (hhead.toText hwhole hwholeEnds) hspells
  | @string before text gap spelled after head content hbefore hgap hafter hhead hstring =>
    have hwhole := toList_payload head (quoted content)
    have hwholeEnds := hends head (spellsString_quoted content).endsSolid
    rw [Tag.reread, Literal.reread, Tag.toText, Literal.toText]
    refine ⟨?_, hwholeEnds⟩
    have hagain : SpellsHead scope head.toText.toList
        ('=' :: ([] ++ ((quoted content).toList ++ [])))
        (head.reread (head.toText ++ "=" ++ quoted content)) := by
      rw [List.nil_append, List.append_nil]
      exact hhead.toText hwhole hwholeEnds
    have hspells := Spells.string allBlank_nil allBlank_nil allBlank_nil hagain
      (spellsString_quoted content)
    rw [hwhole]
    simpa only [List.nil_append, List.append_nil] using hspells
  | @text before text gap rest c head hbefore hgap hblank hplus hquote hbacktick hhead =>
    obtain ⟨c', rest', htext, hblank', hplus', hquote', hbacktick', hprinted⟩ :=
      exists_printedText rest hblank hplus hquote hbacktick
    have hwhole := toList_payload head (Literal.ofWord (trimEnd (c :: rest))).toText
    have hvalue : EndsSolid (Literal.ofWord (trimEnd (c :: rest))).toText.toList := by
      rw [htext]
      exact hprinted
    have hwholeEnds := hends head hvalue
    rw [htext] at hwhole
    rw [Tag.reread, Literal.reread_ofWord, Tag.toText]
    refine ⟨?_, hwholeEnds⟩
    have hspells := Spells.text allBlank_nil allBlank_nil hblank' hplus' hquote' hbacktick'
      (hhead.toText hwhole hwholeEnds)
    rw [hprinted.trimEnd_eq, ← htext, Literal.ofWord_toText] at hspells
    rw [hwhole, ← htext]
    simpa only [List.nil_append] using hspells

theorem Spells.head_scope {scope : Scope} {text : List Char} {tag : Tag}
    (h : Spells scope text tag) : tag.head.scope = scope := by
  cases h with
  | bare _ hhead | composed _ _ hhead | string _ _ _ hhead | text _ _ _ _ _ _ hhead =>
    cases hhead
    rfl

/-- The strings among the arguments. -/
def Head.strings (head : Head) : List String :=
  head.arguments.flatMap fun argument => argument.value.strings

/-- The strings among the arguments and the values, at every depth. -/
def strings : Tag → List String
  | bare head => head.strings
  | valued head value => head.strings ++ value.strings
  | composed head inner => head.strings ++ inner.strings

/-- The tag with another text in place of the one from which it was read, at every depth. -/
def withRaw (text : Tag → String) : Tag → Tag
  | bare head => bare { head with raw := text (bare head) }
  | valued head value => valued { head with raw := text (valued head value) } value
  | composed head inner =>
    composed { head with raw := text (composed head inner) } (inner.withRaw text)

theorem map_reread_eq_self_iff {arguments : List Argument} :
    arguments.map Argument.reread = arguments ↔
      AllPlain (arguments.flatMap fun argument => argument.value.strings) := by
  have hargument (argument : Argument) :
      argument.reread = argument ↔ AllPlain argument.value.strings := by
    obtain ⟨name?, value⟩ := argument
    rw [Argument.reread, Argument.mk.injEq]
    exact (and_iff_right rfl).trans Literal.reread_eq_self_iff
  induction arguments with
  | nil => exact iff_of_true rfl nofun
  | cons argument arguments ih =>
    rw [List.map_cons, List.cons.injEq, List.flatMap_cons, allPlain_append]
    exact and_congr (hargument argument) ih

theorem reread_withRaw_eq_iff {tag : Tag} (text : String) :
    tag.reread.withRaw (fun _ => text) = tag.withRaw (fun _ => text) ↔ AllPlain tag.strings := by
  have hhead {head : Head} {raw : String} :
      ({ head.reread raw with raw := text } : Head) = { head with raw := text } ↔
        AllPlain head.strings := by
    rw [Head.strings, ← map_reread_eq_self_iff]
    simp [Head.reread]
  induction tag with
  | bare head => rw [reread, withRaw, withRaw, bare.injEq, hhead, strings]
  | valued head value =>
    rw [reread, withRaw, withRaw, valued.injEq, strings, allPlain_append]
    exact and_congr hhead Literal.reread_eq_self_iff
  | composed head inner ih =>
    rw [reread, withRaw, withRaw, composed.injEq, strings, allPlain_append]
    exact and_congr hhead ih

theorem reread_eq_withRaw {tag : Tag} (h : AllPlain tag.strings) :
    tag.reread = tag.withRaw toText := by
  have hhead {head : Head} (h : AllPlain head.strings) (raw : String) :
      head.reread raw = { head with raw } := by
    rw [Head.reread, map_reread_eq_self_iff.mpr h]
  induction tag with
  | bare head => rw [reread, withRaw, hhead h]
  | valued head value =>
    obtain ⟨harguments, hvalue⟩ := allPlain_append.mp h
    rw [reread, withRaw, hhead harguments, Literal.reread_eq_self_iff.mpr hvalue]
  | composed head inner ih =>
    obtain ⟨harguments, hinner⟩ := allPlain_append.mp h
    rw [reread, withRaw, hhead harguments, ih hinner]

/-- A printed tag reads as a tag. It is the same up to the texts that were read exactly if all
characters of its strings are plain. -/
theorem parse_toText {scope : Scope} {input : String} {tag : Tag}
    (h : parse scope input = .ok tag) :
    ∃ again, parse tag.head.scope tag.toText = .ok again ∧
      (again.withRaw (fun _ => "") = tag.withRaw (fun _ => "") ↔ AllPlain tag.strings) ∧
      (again.withRaw (fun _ => "") = tag.withRaw (fun _ => "") → again = tag.withRaw toText) := by
  have hspells := read_sound (parse_succeeds_iff.mp h)
  refine ⟨tag.reread, ?_, reread_withRaw_eq_iff "", fun hsame => ?_⟩
  · rw [hspells.head_scope]
    exact parse_succeeds_iff.mpr (read_complete hspells.toText.1)
  · exact reread_eq_withRaw ((reread_withRaw_eq_iff "").mp hsame)

/-- A line end in quotes is read again as it was, a carriage return is not. -/
theorem parse_toText_lines :
    (∃ tag again, parse .field "item(key: `first\nline`)= +k8s:maxLength= 7 " = .ok tag ∧
      parse tag.head.scope tag.toText = .ok again ∧ again = tag.withRaw toText) ∧
      ∃ tag again, parse .type "item(key: `first\r\nline`)=+k8s:maxLength=7" = .ok tag ∧
        parse tag.head.scope tag.toText = .ok again ∧
          again.withRaw (fun _ => "") ≠ tag.withRaw (fun _ => "") := by
  have hok {scope : Scope} {input : String} {found : List String}
      (h : (parse scope input).toOption.map strings = some found) :
      ∃ tag, parse scope input = .ok tag ∧ tag.strings = found := by
    cases hparse : parse scope input with
    | error error =>
      rw [hparse] at h
      cases h
    | ok tag =>
      rw [hparse] at h
      exact ⟨tag, rfl, Option.some.inj h⟩
  constructor
  · have hfound : (parse .field "item(key: `first\nline`)= +k8s:maxLength= 7 ").toOption.map
        strings = some ["first\nline"] := by
      decide +kernel
    obtain ⟨tag, htag, hstrings⟩ := hok hfound
    obtain ⟨again, hagain, hiff, hsame⟩ := parse_toText htag
    have hall : "first\nline".toList.all (IsPlain ·) = true := by decide +kernel
    have hplain : AllPlain tag.strings := by
      rw [hstrings]
      exact List.forall_mem_singleton.mpr fun c hc =>
        of_decide_eq_true (List.all_eq_true.mp hall c hc)
    exact ⟨tag, again, htag, hagain, hsame (hiff.mpr hplain)⟩
  · have hfound : (parse .type "item(key: `first\r\nline`)=+k8s:maxLength=7").toOption.map
        strings = some ["first\r\nline"] := by
      decide +kernel
    obtain ⟨tag, htag, hstrings⟩ := hok hfound
    obtain ⟨again, hagain, hiff, -⟩ := parse_toText htag
    have hreturn : ¬AllPlain tag.strings := by
      rw [hstrings]
      intro hplain
      have hmem : '\r' ∈ "first\r\nline".toList := by decide +kernel
      exact not_isPlain_iff.mpr (.inl rfl) (hplain _ List.mem_cons_self _ hmem)
    exact ⟨tag, again, htag, hagain, mt hiff.mp hreturn⟩

end Tag

end TaggedSchema
