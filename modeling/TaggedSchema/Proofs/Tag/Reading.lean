import Mathlib.Data.Set.Subsingleton
import TaggedSchema.Proofs.Tag.Grammar

/-!
# Reading by the grammar

A text is read as a tag exactly if it spells the tag. Each reader takes off the front of a text what
spells its result, and stops there if the text cannot go on in the same way.
-/

namespace TaggedSchema.Tag

open Text

variable {text rest front behind : List Char}

/-! ## Classes of characters -/

theorem code_of_isWordChar {c : Char} (h : isWordChar c = true) :
    45 ≤ c.toNat ∧ c.toNat ≤ 122 := by
  have hupper (h : c.isUpper = true) : 65 ≤ c.toNat ∧ c.toNat ≤ 90 := of_decide_eq_true h
  have hlower (h : c.isLower = true) : 97 ≤ c.toNat ∧ c.toNat ≤ 122 :=
    (Bool.and_eq_true_iff.mp h).imp of_decide_eq_true of_decide_eq_true
  have hdigit (h : c.isDigit = true) : 48 ≤ c.toNat ∧ c.toNat ≤ 57 :=
    (Bool.and_eq_true_iff.mp h).imp of_decide_eq_true of_decide_eq_true
  rw [isWordChar, Bool.or_eq_true, Bool.or_eq_true, Bool.or_eq_true, Bool.or_eq_true] at h
  rcases h with (((h | h) | h) | h) | h
  · rcases Bool.or_eq_true_iff.mp h with h | h
    · rcases Bool.or_eq_true_iff.mp h with h | h
      · have := hupper h
        omega
      · have := hlower h
        omega
    · have := hdigit h
      omega
  all_goals
    rw [beq_iff_eq.mp h]
    decide

theorem isBlank_of_isWordChar {c : Char} (h : isWordChar c = true) : isBlank c = false := by
  have hcode := code_of_isWordChar h
  simp only [isBlank, blankRanges, inRanges]
  rw [if_neg (by omega), if_neg (by omega), if_neg (by omega), if_neg (by omega),
    if_pos (by omega)]

theorem isWordChar_of_isNameChar {c : Char} (h : isNameChar c = true) : isWordChar c = true := by
  rw [isNameChar] at h
  rw [isWordChar, h]
  rfl

theorem isQuote_of_isWordChar {c : Char} (h : isWordChar c = true) : isQuote c = false := by
  rw [isQuote, Bool.or_eq_false_iff, beq_eq_false_iff_ne, beq_eq_false_iff_ne]
  refine ⟨?_, ?_⟩
  all_goals
    rintro rfl
    cases h

theorem isWordChar_of_isBlank {c : Char} (h : isBlank c = true) : isWordChar c = false := by
  by_contra hword
  rw [isBlank_of_isWordChar (Bool.not_eq_false _ ▸ hword)] at h
  cases h

theorem IsName.isWord (h : IsName text) : IsWord text :=
  ⟨h.1, fun c hc => isWordChar_of_isNameChar (h.2 c hc)⟩

theorem isWord_takeWhile (h : (text.takeWhile isWordChar).isEmpty = false) :
    IsWord (text.takeWhile isWordChar) :=
  ⟨fun hnil => by simp [hnil] at h, fun _ hc => List.mem_takeWhile_imp hc⟩

theorem IsWord.isEmpty (h : IsWord text) : text.isEmpty = false :=
  List.isEmpty_eq_false_iff.mpr h.1

/-- Blanks and what does not go on as a word do not go on as a word together. -/
theorem stops_isWordChar_append {gap : List Char} (hgap : AllBlank gap)
    (hrest : Stops isWordChar rest) : Stops isWordChar (gap ++ rest) := by
  cases gap with
  | nil => exact hrest
  | cons c gap => exact stops_cons.mpr (isWordChar_of_isBlank (hgap c List.mem_cons_self))

/-! ## Strings -/

theorem Escaped.escape {spelled content : List Char} (h : Escaped spelled content) (c : Char) :
    Escaped ('\\' :: c :: spelled) (unescape c :: content) := by
  rw [unescape]
  split_ifs with hn ht
  · exact hn ▸ .newline h
  · exact ht ▸ .tab h
  · exact .other hn ht h

/-- A backslash that has been taken already is spelled in front of the text. -/
theorem quotedText?_escaped_sound {escaped : Bool} {content : List Char}
    (h : quotedText? '"' escaped text = some (content, rest)) :
    ∃ spelled, text = spelled ++ '"' :: rest ∧
      Escaped (if escaped then '\\' :: spelled else spelled) content := by
  induction text generalizing escaped content with
  | nil => cases h
  | cons c tail ih =>
    rw [quotedText?] at h
    split at h
    next hescaped =>
      subst hescaped
      obtain ⟨⟨content', rest'⟩, hrest, h⟩ := Option.map_eq_some_iff.mp h
      obtain ⟨rfl, rfl⟩ := Prod.mk.inj h
      obtain ⟨spelled, rfl, hspelled⟩ := ih hrest
      exact ⟨c :: spelled, rfl, hspelled.escape c⟩
    next hplain =>
      rw [eq_false_of_ne_true hplain]
      split at h
      next hquote =>
        cases h
        exact ⟨[], by rw [hquote]; rfl, .nil⟩
      next hquote =>
        split at h
        next hbackslash =>
          obtain ⟨spelled, rfl, hspelled⟩ := ih h
          exact ⟨'\\' :: spelled, by rw [hbackslash.1]; rfl, hspelled⟩
        next hbackslash =>
          obtain ⟨⟨content', rest'⟩, hrest, h⟩ := Option.map_eq_some_iff.mp h
          obtain ⟨rfl, rfl⟩ := Prod.mk.inj h
          obtain ⟨spelled, rfl, hspelled⟩ := ih hrest
          exact ⟨c :: spelled, rfl, .plain hquote (fun hc => hbackslash ⟨hc, rfl⟩) hspelled⟩

theorem quotedText?_of_escaped {spelled content : List Char} (h : Escaped spelled content)
    (rest : List Char) : quotedText? '"' false (spelled ++ '"' :: rest) = some (content, rest) := by
  induction h with
  | nil => rfl
  | plain hquote hbackslash h ih => simp [quotedText?, hquote, hbackslash, ih]
  | newline h ih | tab h ih => simp [quotedText?, ih, unescape]
  | other hn ht h ih => simp [quotedText?, ih, unescape, hn, ht]

theorem quotedText?_raw_sound {content : List Char}
    (h : quotedText? '\x60' false text = some (content, rest)) :
    text = content ++ '\x60' :: rest ∧ '\x60' ∉ content := by
  induction text generalizing content with
  | nil => cases h
  | cons c tail ih =>
    simp only [quotedText?, Bool.false_eq_true, if_false] at h
    split at h
    next hquote =>
      cases h
      exact ⟨by rw [hquote]; rfl, List.not_mem_nil⟩
    next hquote =>
      rw [if_neg (by simp)] at h
      obtain ⟨⟨content', rest'⟩, hrest, h⟩ := Option.map_eq_some_iff.mp h
      obtain ⟨rfl, rfl⟩ := Prod.mk.inj h
      obtain ⟨rfl, hcontent⟩ := ih hrest
      refine ⟨rfl, ?_⟩
      rw [List.mem_cons, not_or]
      exact ⟨fun hc => hquote hc.symm, hcontent⟩

theorem quotedText?_of_raw {content : List Char} (h : '\x60' ∉ content) (rest : List Char) :
    quotedText? '\x60' false (content ++ '\x60' :: rest) = some (content, rest) := by
  induction content with
  | nil => rfl
  | cons c content ih =>
    rw [List.mem_cons, not_or] at h
    simp [quotedText?, Ne.symm h.1, ih h.2]

theorem readString_sound {quote : Char} {value : Literal} (hquote : isQuote quote = true)
    (h : readString (quote :: text) = .ok (value, rest)) :
    ∃ spelled content, quote :: text = spelled ++ rest ∧ SpellsString spelled content ∧
      value = .string content := by
  rw [readString] at h
  split at h
  next => cases h
  next content rest' hread =>
    cases h
    rw [isQuote, Bool.or_eq_true, beq_iff_eq, beq_iff_eq] at hquote
    rcases hquote with rfl | rfl
    · obtain ⟨spelled, rfl, hspelled⟩ := quotedText?_escaped_sound hread
      exact ⟨_, _, by simp, .escaped hspelled, rfl⟩
    · obtain ⟨rfl, hcontent⟩ := quotedText?_raw_sound hread
      exact ⟨_, _, by simp, .raw hcontent, rfl⟩

/-- A string begins with a quote, behind which it is read whatever follows. -/
theorem readString_complete {spelled : List Char} {content : String}
    (h : SpellsString spelled content) :
    ∃ quote tail, spelled = quote :: tail ∧ isQuote quote = true ∧
      ∀ rest, readString (quote :: (tail ++ rest)) = .ok (.string content, rest) := by
  cases h with
  | @raw content hcontent =>
    refine ⟨_, _, rfl, rfl, fun rest => ?_⟩
    rw [readString, List.append_assoc, List.singleton_append, quotedText?_of_raw hcontent]
  | @escaped spelled content hspelled =>
    refine ⟨_, _, rfl, rfl, fun rest => ?_⟩
    rw [readString, List.append_assoc, List.singleton_append, quotedText?_of_escaped hspelled]

/-! ## Literals and arguments -/

theorem isBlank_of_isQuote {c : Char} (h : isQuote c = true) : isBlank c = false := by
  rw [isQuote, Bool.or_eq_true, beq_iff_eq, beq_iff_eq] at h
  rcases h with rfl | rfl <;> rfl

/-- A literal begins with a quote or a character of a word. -/
theorem SpellsLiteral.exists_cons {value : Literal} (h : SpellsLiteral text value) :
    ∃ c tail, text = c :: tail ∧ (isQuote c = true ∨ isWordChar c = true) := by
  cases h with
  | string h =>
    obtain ⟨quote, tail, rfl, hquote, -⟩ := readString_complete h
    exact ⟨quote, tail, rfl, .inl hquote⟩
  | word h =>
    obtain ⟨c, tail, rfl⟩ := List.exists_cons_of_ne_nil h.1
    exact ⟨c, tail, rfl, .inr (h.2 c List.mem_cons_self)⟩

theorem SpellsLiteral.stops {value : Literal} (h : SpellsLiteral text value) (rest : List Char) :
    Stops isBlank (text ++ rest) := by
  obtain ⟨c, tail, rfl, hquote | hword⟩ := h.exists_cons
  · exact stops_cons.mpr (isBlank_of_isQuote hquote)
  · exact stops_cons.mpr (isBlank_of_isWordChar hword)

theorem readLiteral_sound {value : Literal} (h : readLiteral text = .ok (value, rest)) :
    ∃ gap front, text = gap ++ (front ++ rest) ∧ AllBlank gap ∧ SpellsLiteral front value := by
  rw [readLiteral] at h
  split at h
  next => cases h
  next c tail htrim =>
    obtain ⟨gap, hgap, rfl⟩ := exists_blanks_of_trimStart htrim
    split at h
    next hquote =>
      obtain ⟨spelled, content, hspelled, hstring, rfl⟩ := readString_sound hquote h
      exact ⟨gap, spelled, by rw [hspelled], hgap, .string hstring⟩
    next =>
      simp only at h
      split at h
      next => cases h
      next hword =>
        cases h
        exact ⟨gap, _, by rw [List.takeWhile_append_dropWhile], hgap,
          .word (isWord_takeWhile (eq_false_of_ne_true hword))⟩

theorem readLiteral_complete {gap : List Char} {value : Literal} (hgap : AllBlank gap)
    (h : SpellsLiteral front value) (hrest : Stops isWordChar rest) :
    readLiteral (gap ++ (front ++ rest)) = .ok (value, rest) := by
  rw [readLiteral, trimStart_append hgap (h.stops rest)]
  cases h with
  | string h =>
    obtain ⟨quote, tail, rfl, hquote, hread⟩ := readString_complete h
    simp only [List.cons_append, hquote, if_true, hread]
  | word h =>
    obtain ⟨c, tail, rfl⟩ := List.exists_cons_of_ne_nil h.1
    have hquote := isQuote_of_isWordChar (h.2 c List.mem_cons_self)
    have htake := takeWhile_run h.2 hrest
    have hdrop := dropWhile_run h.2 hrest
    rw [List.cons_append] at htake hdrop ⊢
    simp only [hquote, htake, hdrop, h.isEmpty, Bool.false_eq_true, if_false]

theorem SpellsArgument.append_blanks {gap : List Char} {argument : Argument}
    (h : SpellsArgument text argument) (hgap : AllBlank gap) :
    SpellsArgument (text ++ gap) argument := by
  cases h with
  | positional hbefore hvalue hafter =>
    have := SpellsArgument.positional hbefore hvalue (hafter.append hgap)
    simpa only [List.append_assoc] using this
  | named hbefore hname hgap₁ hgap₂ hvalue hafter =>
    have := SpellsArgument.named hbefore hname hgap₁ hgap₂ hvalue (hafter.append hgap)
    simpa only [List.append_assoc, List.cons_append] using this

theorem readArgument_sound {argument : Argument} (h : readArgument text = .ok (argument, rest)) :
    ∃ front, text = front ++ rest ∧ SpellsArgument front argument := by
  rw [readArgument] at h
  split at h
  next => cases h
  next c tail htrim =>
    obtain ⟨before, hbefore, rfl⟩ := exists_blanks_of_trimStart htrim
    split at h
    next hquote =>
      split at h
      next => cases h
      next value rest' hread =>
        cases h
        obtain ⟨spelled, content, hspelled, hstring, rfl⟩ := readString_sound hquote hread
        refine ⟨_, ?_, .positional hbefore (.string hstring) allBlank_nil⟩
        rw [hspelled, List.append_nil, List.append_assoc]
    next =>
      simp only at h
      split at h
      next => cases h
      next hempty =>
        have hword := isWord_takeWhile (eq_false_of_ne_true hempty)
        have hsplit := List.takeWhile_append_dropWhile (p := isWordChar) (l := c :: tail)
        generalize List.takeWhile isWordChar (c :: tail) = word at h hword hsplit
        generalize List.dropWhile isWordChar (c :: tail) = behind at h hsplit
        split at h
        next rest' hcolon =>
          obtain ⟨gap, hgap, hdrop⟩ := exists_blanks_of_trimStart hcolon
          split at h
          next hall =>
            split at h
            next => cases h
            next value rest'' hread =>
              cases h
              obtain ⟨gap', literal, rfl, hgap', hliteral⟩ := readLiteral_sound hread
              have hname : IsName word := ⟨hword.1, List.all_eq_true.mp hall⟩
              refine ⟨_, ?_, .named hbefore hname hgap hgap' hliteral allBlank_nil⟩
              rw [← hsplit, hdrop]
              simp
          next => cases h
        next rest' hcolon =>
          cases h
          obtain ⟨gap, hgap, hdrop⟩ := exists_blanks behind
          refine ⟨_, ?_, .positional hbefore (.word hword) hgap⟩
          calc before ++ c :: tail = before ++ (word ++ (gap ++ trimStart behind)) := by
                rw [hdrop, hsplit]
            _ = before ++ (word ++ gap) ++ trimStart behind := by simp

/-- What an argument may be followed by. -/
def EndsArgument (text : List Char) : Prop :=
  ∃ c tail, text = c :: tail ∧ (c = ',' ∨ c = ')')

theorem EndsArgument.stops_isBlank (h : EndsArgument rest) : Stops isBlank rest := by
  obtain ⟨c, tail, rfl, rfl | rfl⟩ := h <;> exact stops_cons.mpr rfl

theorem EndsArgument.stops_isWordChar (h : EndsArgument rest) : Stops isWordChar rest := by
  obtain ⟨c, tail, rfl, rfl | rfl⟩ := h <;> exact stops_cons.mpr rfl

theorem readArgument_word {word : List Char} (hword : IsWord word) (hrest : Stops isWordChar rest)
    (hcolon : ∀ tail, trimStart rest ≠ ':' :: tail) :
    readArgument (word ++ rest) = .ok (⟨none, Literal.ofWord word⟩, trimStart rest) := by
  have hstops := (SpellsLiteral.word hword).stops rest
  have htake := takeWhile_run hword.2 hrest
  have hdrop := dropWhile_run hword.2 hrest
  obtain ⟨c, tail, rfl⟩ := List.exists_cons_of_ne_nil hword.1
  have hquote := isQuote_of_isWordChar (hword.2 c List.mem_cons_self)
  rw [readArgument, trimStart_of_stops hstops]
  rw [List.cons_append] at htake hdrop ⊢
  simp only [hquote, htake, hdrop, hword.isEmpty, Bool.false_eq_true, if_false]

theorem readArgument_named {name gap : List Char} (hname : IsName name) (hgap : AllBlank gap)
    {value : Literal} (hvalue : readLiteral behind = .ok (value, rest)) :
    readArgument (name ++ (gap ++ ':' :: behind)) =
      .ok (⟨some (String.ofList name), value⟩, rest) := by
  have hword := hname.isWord
  have hcolon : Stops isWordChar (':' :: behind) := stops_cons.mpr rfl
  have hstops := (SpellsLiteral.word hword).stops (gap ++ ':' :: behind)
  have htake := takeWhile_run hword.2 (stops_isWordChar_append hgap hcolon)
  have hdrop := dropWhile_run hword.2 (stops_isWordChar_append hgap hcolon)
  have htrim : trimStart (gap ++ ':' :: behind) = ':' :: behind :=
    trimStart_append hgap (stops_cons.mpr rfl)
  have hall : name.all isNameChar = true := List.all_eq_true.mpr hname.2
  obtain ⟨c, tail, rfl⟩ := List.exists_cons_of_ne_nil hword.1
  have hquote := isQuote_of_isWordChar (hword.2 c List.mem_cons_self)
  rw [readArgument, trimStart_of_stops hstops]
  rw [List.cons_append] at htake hdrop ⊢
  simp only [hquote, htake, hdrop, hword.isEmpty, htrim, hall, hvalue, Bool.false_eq_true,
    if_false, if_true]

theorem readArgument_blanks {gap : List Char} (hgap : AllBlank gap) (text : List Char) :
    readArgument (gap ++ text) = readArgument text := by
  rw [readArgument, readArgument, trimStart_append_trimStart hgap]

/-- Blanks behind an argument may be left over. -/
theorem readArgument_complete {argument : Argument} (h : SpellsArgument front argument)
    (hrest : EndsArgument rest) :
    ∃ after, readArgument (front ++ rest) = .ok (argument, after) ∧ trimStart after = rest := by
  cases h with
  | @positional before text after value hbefore hvalue hafter =>
    have hbehind : trimStart (after ++ rest) = rest := trimStart_append hafter hrest.stops_isBlank
    have hstops := stops_isWordChar_append hafter hrest.stops_isWordChar
    rw [List.append_assoc, readArgument_blanks hbefore, List.append_assoc]
    cases hvalue with
    | string h =>
      have htext := (SpellsLiteral.string h).stops (after ++ rest)
      obtain ⟨quote, tail, rfl, hquote, hread⟩ := readString_complete h
      refine ⟨after ++ rest, ?_, hbehind⟩
      rw [readArgument, trimStart_of_stops htext]
      simp only [List.cons_append, hquote, if_true, hread]
    | word h =>
      refine ⟨rest, ?_, trimStart_of_stops hrest.stops_isBlank⟩
      have hcolon (tail : List Char) : trimStart (after ++ rest) ≠ ':' :: tail := by
        rw [hbehind]
        obtain ⟨c, rest', rfl, rfl | rfl⟩ := hrest <;> exact nofun
      rw [readArgument_word h hstops hcolon, hbehind]
  | @named before name gap gap' text after value hbefore hname hgap hgap' hvalue hafter =>
    have hstops := stops_isWordChar_append hafter hrest.stops_isWordChar
    refine ⟨after ++ rest, ?_, trimStart_append hafter hrest.stops_isBlank⟩
    have hread := readArgument_named hname hgap (readLiteral_complete hgap' hvalue hstops)
    rw [List.append_assoc, readArgument_blanks hbefore]
    simpa only [List.append_assoc, List.cons_append] using hread

/-! ## Lists of arguments -/

theorem readMoreArguments_sound {opening : List Char} {arguments : List Argument}
    (h : readMoreArguments opening text = .ok (arguments, rest)) :
    ∃ front, text = front ++ ')' :: rest ∧ SpellsArgumentList front arguments := by
  fun_induction readMoreArguments opening text generalizing arguments rest with
  | case1 | case2 | case5 | case6 => cases h
  | case3 text argument after hargument next hafter arguments' rest' hmore ih =>
    cases h
    obtain ⟨front, rfl, hfront⟩ := readArgument_sound hargument
    obtain ⟨gap, hgap, rfl⟩ := exists_blanks_of_trimStart hafter
    obtain ⟨more, rfl, hlist⟩ := ih hmore
    exact ⟨_, by simp, .more (hfront.append_blanks hgap) hlist⟩
  | case4 text argument after hargument rest' hafter =>
    cases h
    obtain ⟨front, rfl, hfront⟩ := readArgument_sound hargument
    obtain ⟨gap, hgap, rfl⟩ := exists_blanks_of_trimStart hafter
    exact ⟨_, by simp, .last (hfront.append_blanks hgap)⟩

theorem readMoreArguments_comma {opening after next : List Char} {argument : Argument}
    (hargument : readArgument text = .ok (argument, after)) (hafter : trimStart after = ',' :: next)
    {arguments : List Argument} (hmore : readMoreArguments opening next = .ok (arguments, rest)) :
    readMoreArguments opening text = .ok (argument :: arguments, rest) := by
  rw [readMoreArguments]
  split
  next failure hread => cases hread.symm.trans hargument
  next argument' after' hread =>
    cases hread.symm.trans hargument
    split
    next next' hnext =>
      cases hnext.symm.trans hafter
      rw [hmore]
    next hnext => cases hnext.symm.trans hafter
    next hnext => cases hnext.symm.trans hafter
    next hcomma _ _ => exact absurd hafter (hcomma next)

theorem readMoreArguments_close {opening after : List Char} {argument : Argument}
    (hargument : readArgument text = .ok (argument, after))
    (hafter : trimStart after = ')' :: rest) :
    readMoreArguments opening text = .ok ([argument], rest) := by
  rw [readMoreArguments]
  split
  next failure hread => cases hread.symm.trans hargument
  next argument' after' hread =>
    cases hread.symm.trans hargument
    split
    next hnext => cases hnext.symm.trans hafter
    next rest' hnext =>
      cases hnext.symm.trans hafter
      rfl
    next hnext => cases hnext.symm.trans hafter
    next _ hclose _ => exact absurd hafter (hclose rest)

theorem readMoreArguments_complete {opening : List Char} {arguments : List Argument}
    (h : SpellsArgumentList front arguments) :
    readMoreArguments opening (front ++ ')' :: rest) = .ok (arguments, rest) := by
  induction h with
  | last h =>
    obtain ⟨after, hread, hafter⟩ := readArgument_complete h ⟨_, _, rfl, .inr rfl⟩
    exact readMoreArguments_close hread hafter
  | @more text more argument arguments h hmore ih =>
    have hends : EndsArgument (',' :: (more ++ ')' :: rest)) := ⟨_, _, rfl, .inl rfl⟩
    obtain ⟨after, hread, hafter⟩ := readArgument_complete h hends
    rw [List.append_assoc, List.cons_append]
    exact readMoreArguments_comma hread hafter ih

theorem readArguments_sound {arguments : List Argument}
    (h : readArguments text = .ok (arguments, rest)) :
    ∃ front, text = front ++ rest ∧ SpellsArguments front arguments := by
  rw [readArguments.eq_def] at h
  split at h
  next tail =>
    split at h
    next rest' hclose =>
      cases h
      obtain ⟨gap, hgap, rfl⟩ := exists_blanks_of_trimStart hclose
      exact ⟨_, by simp, .empty hgap⟩
    next =>
      obtain ⟨front, rfl, hlist⟩ := readMoreArguments_sound h
      exact ⟨_, by simp, .list hlist⟩
  next =>
    cases h
    exact ⟨[], rfl, .absent⟩

theorem SpellsArgument.not_close {argument : Argument} (h : SpellsArgument text argument)
    (rest : List Char) (tail : List Char) : trimStart (text ++ rest) ≠ ')' :: tail := by
  have hliteral {before text : List Char} {value : Literal} (hbefore : AllBlank before)
      (hvalue : SpellsLiteral text value) (rest : List Char) :
      trimStart (before ++ (text ++ rest)) ≠ ')' :: tail := by
    rw [trimStart_append hbefore (hvalue.stops rest)]
    obtain ⟨c, tail, rfl, hc⟩ := hvalue.exists_cons
    rintro ⟨⟩
    rcases hc with hc | hc <;> cases hc
  cases h with
  | positional hbefore hvalue hafter =>
    rw [List.append_assoc, List.append_assoc]
    exact hliteral hbefore hvalue _
  | named hbefore hname hgap hgap' hvalue hafter =>
    rw [List.append_assoc, List.append_assoc]
    exact hliteral hbefore (.word hname.isWord) _

theorem SpellsArgumentList.not_close {arguments : List Argument}
    (h : SpellsArgumentList text arguments) (rest : List Char) (tail : List Char) :
    trimStart (text ++ rest) ≠ ')' :: tail := by
  cases h with
  | last h => exact h.not_close rest tail
  | more h hmore =>
    rw [List.append_assoc]
    exact h.not_close _ tail

theorem readArguments_complete {arguments : List Argument} (h : SpellsArguments front arguments)
    (hrest : ∀ tail, rest ≠ '(' :: tail) :
    readArguments (front ++ rest) = .ok (arguments, rest) := by
  cases h with
  | absent =>
    rw [List.nil_append, readArguments.eq_def]
    split
    next tail => exact absurd rfl (hrest tail)
    next => rfl
  | @empty gap hgap =>
    have hclose : trimStart (gap ++ ')' :: rest) = ')' :: rest :=
      trimStart_append hgap (stops_cons.mpr rfl)
    rw [List.cons_append, List.append_assoc, List.singleton_append]
    simp only [readArguments, hclose]
  | @list text _ hlist =>
    rw [List.cons_append, List.append_assoc, List.singleton_append]
    simp only [readArguments]
    split
    next rest' hclose => exact absurd hclose (hlist.not_close _ rest')
    next => exact readMoreArguments_complete hlist

/-! ## Names -/

theorem readName_sound {name : List Char} (h : readName text = .ok (name, rest)) :
    text = name ++ rest ∧ IsName name := by
  simp only [readName] at h
  split at h
  next => cases h
  next hname =>
    cases h
    refine ⟨List.takeWhile_append_dropWhile.symm, ?_, fun _ hc => List.mem_takeWhile_imp hc⟩
    exact fun hnil => hname (List.isEmpty_iff.mpr hnil)

theorem readName_complete {name : List Char} (h : IsName name) (hrest : Stops isNameChar rest) :
    readName (name ++ rest) = .ok (name, rest) := by
  simp only [readName, takeWhile_run h.2 hrest, dropWhile_run h.2 hrest]
  rw [if_neg (by simpa using h.1)]

theorem readQualifiedName_sound {name : Option String × String}
    (h : readQualifiedName text = .ok (name, rest)) :
    ∃ front, text = front ++ rest ∧ SpellsQualifiedName front name := by
  rw [readQualifiedName] at h
  split at h
  next => cases h
  next first rest' hfirst =>
    obtain ⟨rfl, hqualifier⟩ := readName_sound hfirst
    split at h
    next => cases h
    next second rest'' hsecond =>
      cases h
      obtain ⟨rfl, hname⟩ := readName_sound hsecond
      exact ⟨_, by simp, .qualified hqualifier hname⟩
  next first rest' _ hfirst =>
    cases h
    obtain ⟨rfl, hname⟩ := readName_sound hfirst
    exact ⟨_, rfl, .plain hname⟩

theorem readQualifiedName_complete {name : Option String × String}
    (h : SpellsQualifiedName front name) (hrest : Stops isNameChar rest)
    (hcolon : ∀ tail, rest ≠ ':' :: tail) :
    readQualifiedName (front ++ rest) = .ok (name, rest) := by
  cases h with
  | plain h =>
    rw [readQualifiedName, readName_complete h hrest]
    split
    next hfailure => cases hfailure
    next tail heq =>
      cases heq
      exact absurd rfl (hcolon tail)
    next heq =>
      cases heq
      rfl
  | @qualified qualifier name hqualifier h =>
    have hstops : Stops isNameChar (':' :: (name ++ rest)) := stops_cons.mpr rfl
    rw [List.append_assoc, List.cons_append, readQualifiedName,
      readName_complete hqualifier hstops]
    simp only [readName_complete h hrest]

/-! ## Tags -/

/-- What may follow the head of a tag. -/
def EndsHead (text : List Char) : Prop :=
  ∀ c ∈ text.head?, isBlank c = true ∨ c = '='

theorem EndsHead.of_allBlank (h : AllBlank text) : EndsHead text :=
  fun c hc => .inl (h c (List.mem_of_mem_head? hc))

theorem EndsHead.of_equals (text : List Char) : EndsHead ('=' :: text) := by
  rintro c ⟨⟩
  exact .inr rfl

theorem EndsHead.stops (h : EndsHead rest) : Stops isNameChar rest := by
  intro c hc
  rcases h c hc with hblank | rfl
  · by_contra hname
    have hword := isWordChar_of_isNameChar (Bool.not_eq_false _ ▸ hname)
    rw [isBlank_of_isWordChar hword] at hblank
    cases hblank
  · rfl

theorem EndsHead.ne_cons (h : EndsHead rest) {c : Char} (hblank : isBlank c = false)
    (hequals : c ≠ '=') (tail : List Char) : rest ≠ c :: tail := by
  rintro rfl
  rcases h c rfl with hc | hc
  · rw [hblank] at hc
    cases hc
  · exact hequals hc

theorem exists_plus (text : List Char) :
    ∃ plus, (plus = [] ∨ plus = ['+']) ∧ text = plus ++ withoutPlus text := by
  rw [withoutPlus.eq_def]
  split
  next rest => exact ⟨['+'], .inr rfl, rfl⟩
  next => exact ⟨[], .inl rfl, rfl⟩

theorem withoutPlus_name {name : Option String × String} (h : SpellsQualifiedName front name)
    {plus : List Char} (hplus : plus = [] ∨ plus = ['+']) (rest : List Char) :
    withoutPlus (plus ++ (front ++ rest)) = front ++ rest := by
  -- Without a plus sign, the text begins with a character of a name.
  have hfirst : ∃ c tail, front = c :: tail ∧ isNameChar c = true := by
    cases h with
    | plain h =>
      obtain ⟨c, tail, rfl⟩ := List.exists_cons_of_ne_nil h.1
      exact ⟨c, tail, rfl, h.2 c List.mem_cons_self⟩
    | qualified h =>
      obtain ⟨c, tail, rfl⟩ := List.exists_cons_of_ne_nil h.1
      exact ⟨c, _, rfl, h.2 c List.mem_cons_self⟩
  rcases hplus with rfl | rfl
  · obtain ⟨c, tail, rfl, hc⟩ := hfirst
    rw [List.nil_append, List.cons_append, withoutPlus.eq_def]
    split
    next heq =>
      cases heq
      cases hc
    next => rfl
  · rfl

/-- The head keeps all the text if nothing is left. -/
theorem Front.head_nil (opening : Front) (scope : Scope) (text : List Char) :
    opening.head scope text [] = ⟨opening.qualifier, opening.name, scope, opening.arguments,
      String.ofList (trimEnd text)⟩ := by
  rw [Front.head, List.length_nil, Nat.sub_zero, List.take_length]

theorem readFront_sound {opening : Front} (h : readFront text = .ok (opening, rest))
    (scope : Scope) :
    ∃ front, text = front ++ rest ∧ SpellsHead scope front rest (opening.head scope text []) := by
  rw [readFront] at h
  split at h
  next => cases h
  next qualifier name behind hname =>
    split at h
    next => cases h
    next arguments rest' harguments =>
      cases h
      obtain ⟨plus, hplus, htext⟩ := exists_plus text
      obtain ⟨names, hnames, hspelled⟩ := readQualifiedName_sound hname
      obtain ⟨front, rfl, hfront⟩ := readArguments_sound harguments
      have hwhole : text = plus ++ (names ++ front) ++ rest := by
        rw [htext, hnames]
        simp
      refine ⟨plus ++ (names ++ front), hwhole, ?_⟩
      rw [Front.head_nil, hwhole]
      exact .mk hplus hspelled hfront

theorem readFront_complete {scope : Scope} {head : Head}
    (h : SpellsHead scope front rest head) (hrest : EndsHead rest) :
    ∃ opening, readFront (front ++ rest) = .ok (opening, rest) ∧
      opening.head scope (front ++ rest) [] = head := by
  cases h with
  | @mk plus names text _ qualifier name arguments hplus hname harguments =>
    have hplain : ∀ tail, text ++ rest ≠ ':' :: tail := by
      intro tail
      cases harguments with
      | absent => exact hrest.ne_cons rfl (by decide) tail
      | _ => exact nofun
    have hstops : Stops isNameChar (text ++ rest) := by
      cases harguments with
      | absent => exact hrest.stops
      | _ => exact stops_cons.mpr rfl
    have hopen : ∀ tail, rest ≠ '(' :: tail := hrest.ne_cons rfl (by decide)
    have hwhole : plus ++ (names ++ text) ++ rest = plus ++ (names ++ (text ++ rest)) := by simp
    refine ⟨⟨qualifier, name, arguments⟩, ?_, Front.head_nil _ _ _⟩
    rw [readFront, hwhole, withoutPlus_name hname hplus]
    simp only [readQualifiedName_complete hname hstops hplain,
      readArguments_complete harguments hopen]

/-- A head begins with a plus sign or a name. -/
theorem SpellsHead.stops {scope : Scope} {head : Head} (h : SpellsHead scope text behind head)
    (rest : List Char) : Stops isBlank (text ++ rest) := by
  cases h with
  | mk hplus hname harguments =>
    rcases hplus with rfl | rfl
    · cases hname with
      | plain h =>
        have := (SpellsLiteral.word h.isWord).stops
        simpa only [List.nil_append, List.append_assoc] using this _
      | qualified h =>
        have := (SpellsLiteral.word h.isWord).stops
        simpa only [List.nil_append, List.append_assoc] using this _
    · exact stops_cons.mpr rfl

theorem readEnd_sound (h : readEnd text = .ok rest) : rest = [] ∧ AllBlank text := by
  rw [readEnd] at h
  split at h
  next htrim =>
    cases h
    exact ⟨rfl, allBlank_of_trimStart htrim⟩
  next => cases h
  next => cases h

/-- A value that is not a tag is a string, or a text that is taken as it is. It takes all the
text. -/
theorem readValue_sound {c : Char} {value : Literal} (h : readValue c text = .ok (value, rest)) :
    rest = [] ∧
      ((∃ spelled after content, c :: text = spelled ++ after ∧ SpellsString spelled content ∧
          AllBlank after ∧ value = .string content) ∨
        (c ≠ '"' ∧ c ≠ '\x60') ∧ value = Literal.ofWord (trimEnd (c :: text))) := by
  rw [readValue] at h
  split at h
  next hquote =>
    split at h
    next => cases h
    next value rest' hread =>
      split at h
      next htrim =>
        cases h
        obtain ⟨spelled, content, hspelled, hstring, rfl⟩ := readString_sound hquote hread
        exact ⟨rfl, .inl
          ⟨spelled, rest', content, hspelled, hstring, allBlank_of_trimStart htrim, rfl⟩⟩
      next => cases h
  next hquote =>
    cases h
    rw [isQuote, Bool.or_eq_true, beq_iff_eq, beq_iff_eq, not_or] at hquote
    exact ⟨rfl, .inr ⟨hquote, rfl⟩⟩

/-- A tag takes all the text. -/
theorem read_rest {scope : Scope} {tag : Tag} (h : read scope text = .ok (tag, rest)) :
    rest = [] := by
  fun_induction read scope text generalizing tag with
  | case1 | case2 | case3 | case5 | case7 => cases h
  | case4 input front payload hfront rest' inner after hpayload hinner ih =>
    cases h
    exact ih hinner
  | case6 input front payload hfront c rest' hpayload hplus value after hvalue =>
    cases h
    exact (readValue_sound hvalue).1
  | case8 input front after hequals hfront rest' hend =>
    cases h
    exact (readEnd_sound hend).1

theorem read_sound {scope : Scope} {tag : Tag} (h : read scope text = .ok (tag, rest)) :
    Spells scope text tag := by
  obtain rfl := read_rest h
  fun_induction read scope text generalizing tag with
  | case1 | case2 | case3 | case5 | case7 => cases h
  | case4 input opening payload hopening rest inner after hpayload hinner ih =>
    cases h
    obtain ⟨before, hbefore, hinput⟩ := exists_blanks input
    obtain ⟨front, hfront, hspelled⟩ := readFront_sound hopening scope
    obtain ⟨gap, hgap, rfl⟩ := exists_blanks_of_trimStart hpayload
    rw [hfront] at hinput hspelled ⊢
    rw [← hinput]
    exact .composed hbefore hgap hspelled (ih hinner)
  | case6 input opening payload hopening c rest hpayload hplus value after hvalue =>
    cases h
    obtain ⟨before, hbefore, hinput⟩ := exists_blanks input
    obtain ⟨front, hfront, hspelled⟩ := readFront_sound hopening scope
    obtain ⟨gap, hgap, rfl⟩ := exists_blanks_of_trimStart hpayload
    rw [hfront] at hinput hspelled ⊢
    rw [← hinput]
    obtain ⟨-, ⟨spelled, after, content, hsplit, hstring, hafter, rfl⟩ | ⟨hquote, rfl⟩⟩ :=
      readValue_sound hvalue
    · rw [hsplit] at hspelled ⊢
      exact .string hbefore hgap hafter hspelled hstring
    · have hblank : isBlank c = false := stops_cons.mp (hpayload ▸ stops_trimStart _)
      exact .text hbefore hgap hblank hplus hquote.1 hquote.2 hspelled
  | case8 input opening after hequals hopening rest hend =>
    cases h
    obtain ⟨before, hbefore, hinput⟩ := exists_blanks input
    obtain ⟨front, hfront, hspelled⟩ := readFront_sound hopening scope
    rw [hfront] at hinput hspelled ⊢
    rw [← hinput]
    exact .bare hbefore hspelled (readEnd_sound hend).2

theorem read_end {scope : Scope} {opening : Front}
    (hopening : readFront (trimStart text) = .ok (opening, rest))
    (hrest : ∀ payload, rest ≠ '=' :: payload) :
    read scope text =
      match readEnd rest with
      | .error failure => .error failure
      | .ok rest => .ok (bare (opening.head scope (trimStart text) rest), rest) := by
  rw [read]
  split
  next hread => cases hread.symm.trans hopening
  next payload hread =>
    cases hread.symm.trans hopening
    exact absurd rfl (hrest payload)
  next hread =>
    cases hread.symm.trans hopening
    rfl

theorem read_payload {scope : Scope} {opening : Front} {payload : List Char} {c : Char}
    (hopening : readFront (trimStart text) = .ok (opening, '=' :: payload))
    (hpayload : trimStart payload = c :: rest) :
    read scope text =
      if c = '+' then
        match read scope (c :: rest) with
        | .error failure => .error failure
        | .ok (inner, rest) =>
          .ok (composed (opening.head scope (trimStart text) rest) inner, rest)
      else
        match readValue c rest with
        | .error failure => .error failure
        | .ok (value, rest) =>
          .ok (valued (opening.head scope (trimStart text) rest) value, rest) := by
  rw [read]
  split
  next hread => cases hread.symm.trans hopening
  next hread =>
    cases hread.symm.trans hopening
    split
    next hnil => cases hnil.symm.trans hpayload
    next hcons =>
      cases hcons.symm.trans hpayload
      rfl
  next hequals hread =>
    cases hread.symm.trans hopening
    exact absurd rfl (hequals payload)

/-- The induction is on the nesting of tags. -/
theorem read_complete {scope : Scope} {tag : Tag} (h : Spells scope text tag) :
    read scope text = .ok (tag, []) := by
  have hfront {before front behind : List Char} {head : Head} (hbefore : AllBlank before)
      (hhead : SpellsHead scope front behind head) (hbehind : EndsHead behind) :
      ∃ opening, readFront (trimStart (before ++ (front ++ behind))) = .ok (opening, behind) ∧
        opening.head scope (trimStart (before ++ (front ++ behind))) [] = head := by
    rw [trimStart_append hbefore (hhead.stops behind)]
    exact readFront_complete hhead hbehind
  induction h with
  | @bare before text after head hbefore hhead hafter =>
    have hequals (payload : List Char) : after ≠ '=' :: payload := by
      rintro rfl
      cases hafter '=' List.mem_cons_self
    obtain ⟨opening, hopening, hkept⟩ := hfront hbefore hhead (.of_allBlank hafter)
    rw [read_end hopening hequals, readEnd, trimStart_of_allBlank hafter]
    exact congrArg (fun head => Except.ok (bare head, [])) hkept
  | @composed before text gap rest head inner hbefore hgap hhead hinner ih =>
    have hpayload : trimStart (gap ++ '+' :: rest) = '+' :: rest :=
      trimStart_append hgap (stops_cons.mpr rfl)
    obtain ⟨opening, hopening, hkept⟩ := hfront hbefore hhead (.of_equals _)
    rw [read_payload hopening hpayload, if_pos rfl, ih]
    exact congrArg (fun head => Except.ok (composed head inner, [])) hkept
  | @string before text gap spelled after head content hbefore hgap hafter hhead hstring =>
    have hpayload := trimStart_append hgap ((SpellsLiteral.string hstring).stops after)
    obtain ⟨quote, tail, rfl, hquote, hread⟩ := readString_complete hstring
    have hplus : quote ≠ '+' := by
      rintro rfl
      cases hquote
    rw [List.cons_append] at hpayload
    have hvalue : readValue quote (tail ++ after) = .ok (.string content, []) := by
      simp only [readValue, hquote, if_true, hread, trimStart_of_allBlank hafter]
    obtain ⟨opening, hopening, hkept⟩ := hfront hbefore hhead (.of_equals _)
    rw [read_payload hopening hpayload, if_neg hplus, hvalue]
    exact congrArg (fun head => Except.ok (valued head (.string content), [])) hkept
  | @text before text gap rest c head hbefore hgap hblank hplus hquote hbacktick hhead =>
    have hpayload : trimStart (gap ++ c :: rest) = c :: rest :=
      trimStart_append hgap (stops_cons.mpr hblank)
    have hc : isQuote c = false := by
      rw [isQuote, Bool.or_eq_false_iff, beq_eq_false_iff_ne, beq_eq_false_iff_ne]
      exact ⟨hquote, hbacktick⟩
    have hvalue : readValue c rest = .ok (Literal.ofWord (trimEnd (c :: rest)), []) := by
      simp only [readValue, hc, Bool.false_eq_true, if_false]
    obtain ⟨opening, hopening, hkept⟩ := hfront hbefore hhead (.of_equals _)
    rw [read_payload hopening hpayload, if_neg hplus, hvalue]
    exact congrArg
      (fun head => Except.ok (valued head (Literal.ofWord (trimEnd (c :: rest))), [])) hkept

theorem parse_succeeds_iff {scope : Scope} {input : String} {tag : Tag} :
    parse scope input = .ok tag ↔ read scope input.toList = .ok (tag, []) := by
  rw [parse]
  split
  next found rest hread => simp [hread, read_rest hread]
  next hread => simp [hread]
  next hread => exact absurd rfl (read_isFaultIn hread).isFault

/-- A text is read as a tag exactly if it spells that tag, and it spells one tag at most. -/
theorem parse_eq_ok_iff_spells (scope : Scope) (input : String) :
    (∀ tag, parse scope input = .ok tag ↔ Spells scope input.toList tag) ∧
      {tag | Spells scope input.toList tag}.Subsingleton := by
  have hiff (tag : Tag) : parse scope input = .ok tag ↔ Spells scope input.toList tag :=
    parse_succeeds_iff.trans ⟨read_sound, read_complete⟩
  refine ⟨hiff, fun tag htag other hother => ?_⟩
  have hsame := ((hiff tag).mpr htag).symm.trans ((hiff other).mpr hother)
  exact Except.ok.inj hsame

end TaggedSchema.Tag
