import TaggedSchema.Proofs.Path.Grammar
import TaggedSchema.Proofs.Text.Bytes

/-!
# Where reading a path fails

In front of a fault stands what has been read of the path, and behind it what the fault is about.
The position of an error counts what has been read, but no white space in front of it, although the
input that is quoted has it.
-/

namespace TaggedSchema.Path

open Text

/-- The text has been read, and `nameDue` says that a name may come next: at the start, and where a
point stands behind a path. -/
inductive IsRead : Bool → List Char → Prop where
  | start : IsRead true []
  | path {text : List Char} {segments : List Segment} (hne : text ≠ [])
      (htext : Spells true text segments) : IsRead false text
  | point {text : List Char} (htext : IsRead false text) : IsRead true (text ++ ['.'])

/-- Where the path may go on, it does not do so with `part` and `rest`, and the fault is found
between the two. A missing point has no case of its own: where no name may come, only a point or a
bracket is left to come, except right behind a bracket, and there a separator is missing. -/
inductive Fault.Breaks : Fault → Bool → List Char → List Char → Prop where
  | unclosedBracket {nameDue : Bool} {inside : List Char} (hopen : ']' ∉ inside) :
      Breaks .unclosedBracket nameDue [] ('[' :: inside)
  | emptyBrackets {nameDue : Bool} {more : List Char} :
      Breaks .emptyBrackets nameDue [] ('[' :: ']' :: more)
  | positionTooLarge {nameDue : Bool} {digits more : List Char}
      (hdigits : ∀ c ∈ digits, isAsciiDigit c = true)
      (hlarge : 18446744073709551616 ≤ digitsValue digits) :
      Breaks .positionTooLarge nameDue ['['] (digits ++ ']' :: more)
  | noSeparator {nameDue : Bool} {content more : List Char} {c : Char} {segment : Segment}
      (hne : content ≠ []) (hclose : ']' ∉ content) (hsegment : bracketed content = some segment)
      (hc : isNameEnd c = false) :
      Breaks .noSeparator nameDue ('[' :: (content ++ [']'])) (c :: more)
  | emptyName {more : List Char} : Breaks .emptyName true [] ('.' :: more)
  | trailingPoint : Breaks .trailingPoint false ['.'] []
  | strayBracket {name more : List Char} (hname : ∀ c ∈ name, isNameEnd c = false)
      (hclose : ']' ∈ name) (hmore : continues more = true) :
      Breaks .strayBracket true [] (name ++ more)

/-- The fault is found between `front` and `rest`. -/
def Fault.StandsAt (fault : Fault) (front rest : List Char) : Prop :=
  ∃ nameDue read part, IsRead nameDue read ∧ fault.Breaks nameDue part rest ∧ front = read ++ part

/-- Where `front` has been read, the fault is found in `text` with `rest` left of it. -/
def Fault.StandsIn (fault : Fault) (front text rest : List Char) : Prop :=
  ∃ middle, text = middle ++ rest ∧ fault.StandsAt (front ++ middle) rest

variable {nameDue : Bool} {text front part rest : List Char} {segments : List Segment}
  {fault : Fault}

/-! ## What has been read -/

theorem Spells.continues_append (h : Spells false front segments)
    (hrest : Path.continues rest = true) : Path.continues (front ++ rest) = true := by
  cases h with
  | nil => exact hrest
  | bracket | point => rfl

/-- The induction is on what is spelled in front. -/
theorem Spells.scan_append (h : Spells nameDue front segments)
    (hfront : front = [] → nameDue = false) (hrest : Path.continues rest = true) :
    scan nameDue (front ++ rest) = (segments ++ ·) <$> scan false rest := by
  induction h with
  | nil nameDue =>
    rw [hfront rfl]
    exact (id_map (scan false rest)).symm
  | @bracket nameDue content behind segment segments hne hclose hsegment hbehind ih =>
    rw [List.cons_append, List.append_assoc, List.cons_append,
      scan_bracket hne hclose hsegment (hbehind.continues_append hrest), ih fun _ => rfl]
    cases scan false rest <;> rfl
  | @point behind segments hne hbehind ih =>
    rw [List.cons_append, scan_point (List.append_ne_nil_of_left_ne_nil hne _),
      ih fun hnil => absurd hnil hne]
  | @name name behind segments hne hname hclose hbehind ih =>
    rw [List.append_assoc, scan_name hne hname hclose (hbehind.continues_append hrest),
      ih fun _ => rfl]
    cases scan false rest <;> rfl

theorem Spells.append {others : List Segment} (h : Spells nameDue front segments)
    (hfront : front = [] → nameDue = false) (hrest : Spells false rest others) :
    Spells nameDue (front ++ rest) (segments ++ others) := by
  rw [← scan_eq_ok_iff, h.scan_append hfront hrest.continues, scan_complete hrest]
  rfl

theorem IsRead.append (h : IsRead nameDue front) (hne : text ≠ [])
    (htext : Spells nameDue text segments) : IsRead false (front ++ text) := by
  have hwhole : front ++ text ≠ [] := List.append_ne_nil_of_right_ne_nil _ hne
  cases h with
  | start => exact .path hwhole htext
  | path hfront hspells => exact .path hwhole (hspells.append (absurd · hfront) htext)
  | point hread =>
    cases hread with
    | path hfront hspells =>
      rw [List.append_assoc] at hwhole ⊢
      exact .path hwhole (hspells.append (absurd · hfront) (.point hne htext))

/-- Behind what has been read, the rest is read as it is. -/
theorem IsRead.scan_append (h : IsRead nameDue front) (hne : rest ≠ [])
    (hrest : nameDue = false → Path.continues rest = true) :
    ∃ segments : List Segment,
      scan true (front ++ rest) = (segments ++ ·) <$> scan nameDue rest := by
  cases h with
  | start => exact ⟨[], (id_map (scan true rest)).symm⟩
  | path hfront hspells => exact ⟨_, hspells.scan_append (absurd · hfront) (hrest rfl)⟩
  | point hread =>
    cases hread with
    | @path text segments hfront hspells =>
      refine ⟨segments, ?_⟩
      rw [List.append_assoc, hspells.scan_append (absurd · hfront) rfl, List.singleton_append,
        scan_point hne]

/-! ## Faults -/

theorem Fault.Breaks.continues (h : fault.Breaks false part rest) :
    Path.continues (part ++ rest) = true := by
  cases h <;> rfl

theorem bracketed_eq_none_iff {content : List Char} :
    bracketed content = none ↔
      (∀ c ∈ content, isAsciiDigit c = true) ∧ 18446744073709551616 ≤ digitsValue content := by
  rw [bracketed, isPosition, ← List.all_eq_true]
  cases content.all isAsciiDigit <;> simp

theorem Fault.Breaks.scan (h : fault.Breaks nameDue part rest) :
    Path.scan nameDue (part ++ rest) = .error (fault, rest) := by
  cases h with
  | @unclosedBracket nameDue inside hopen =>
    have hdrop : inside.dropWhile (· != ']') = [] :=
      List.dropWhile_eq_nil_iff.mpr (bne_of_not_mem hopen)
    rw [List.nil_append, scan.eq_def]
    simp only [if_true]
    split
    next => rfl
    next hafter =>
      rw [hdrop] at hafter
      cases hafter
  | @emptyBrackets nameDue more => exact scan_closed List.not_mem_nil
  | @positionTooLarge nameDue digits more hdigits hlarge =>
    have hclose : ']' ∉ digits := fun hmem => absurd (hdigits _ hmem) (by decide)
    have hne : digits ≠ [] := by
      rintro rfl
      cases hlarge
    rw [List.singleton_append, scan_closed hclose, List.isEmpty_eq_false_iff.mpr hne,
      bracketed_eq_none_iff.mpr ⟨hdigits, hlarge⟩]
    rfl
  | @noSeparator nameDue content more c segment hne hclose hsegment hc =>
    have hcontinues : Path.continues (c :: more) = false := hc
    rw [List.cons_append, List.append_assoc, List.singleton_append, scan_closed hclose,
      List.isEmpty_eq_false_iff.mpr hne, hsegment]
    simp [hcontinues]
  | emptyName => simp [Path.scan]
  | trailingPoint => simp [Path.scan]
  | @strayBracket name more hname hclose hmore =>
    rw [List.nil_append, scan_run (List.ne_nil_of_mem hclose) hname hmore,
      if_pos (List.contains_iff_mem.mpr hclose)]

theorem IsRead.standsIn (hfront : IsRead nameDue front) (h : fault.Breaks nameDue part rest) :
    fault.StandsIn front (part ++ rest) rest :=
  ⟨part, rfl, nameDue, front, part, hfront, h, rfl⟩

theorem Fault.StandsIn.behind {taken : List Char} (h : fault.StandsIn (front ++ taken) text rest) :
    fault.StandsIn front (taken ++ text) rest := by
  obtain ⟨middle, rfl, hstands⟩ := h
  rw [List.append_assoc] at hstands
  exact ⟨taken ++ middle, (List.append_assoc ..).symm, hstands⟩

/-- Where reading fails, it has come to a place where the path does not go on. The induction is on
the text that is left, and `front` grows by each part that is read. -/
theorem scan_failsWith (hfront : IsRead nameDue front)
    (htext : nameDue = false → Path.continues text = true) :
    FailsWith (fun failure => failure.1.StandsIn front text failure.2) (scan nameDue text) := by
  fun_induction Path.scan nameDue text generalizing front with
  | case1 => exact .ok _
  | case2 nameDue tail hdrop =>
    have hopen : ']' ∉ tail := fun hmem =>
      absurd (List.dropWhile_eq_nil_iff.mp hdrop _ hmem) (by decide)
    exact .error (hfront.standsIn (.unclosedBracket hopen))
  | case3 nameDue tail close after hdrop content =>
    rename_i hempty
    obtain ⟨-, htail⟩ := split_of_dropWhile hdrop
    have hcontent : tail.takeWhile (· != ']') = [] := List.isEmpty_iff.mp hempty
    rw [htail, hcontent]
    exact .error (hfront.standsIn .emptyBrackets)
  | case4 nameDue tail close after hdrop content hne =>
    rename_i hnone
    obtain ⟨-, htail⟩ := split_of_dropWhile hdrop
    obtain ⟨hdigits, hlarge⟩ := bracketed_eq_none_iff.mp hnone
    rw [htail]
    exact .error (hfront.standsIn (.positionTooLarge hdigits hlarge))
  | case5 nameDue tail close after hdrop content hne segment hsegment hcontinues =>
    rename_i ih
    obtain ⟨hclose, htail⟩ := split_of_dropWhile hdrop
    have hread : IsRead false (front ++ '[' :: (content ++ [']'])) :=
      hfront.append (List.cons_ne_nil _ _)
        (.bracket (mt List.isEmpty_iff.mpr hne) hclose hsegment (.nil false))
    rw [htail, ← bracket_append]
    exact .map (fun failure hfails => (ih hread (fun _ => hcontinues) failure hfails).behind) _
  | case6 nameDue tail close after hdrop content hne segment hsegment =>
    rename_i hstops
    obtain ⟨hclose, htail⟩ := split_of_dropWhile hdrop
    cases after with
    | nil => exact absurd rfl hstops
    | cons c more =>
      rw [htail, ← bracket_append]
      exact .error (hfront.standsIn (.noSeparator (mt List.isEmpty_iff.mpr hne) hclose hsegment
        (eq_false_of_ne_true hstops)))
  | case7 => exact .error (hfront.standsIn .emptyName)
  | case8 nameDue tail hdue hempty =>
    rw [eq_false_of_ne_true hdue] at hfront
    rw [List.isEmpty_iff.mp hempty]
    exact .error (hfront.standsIn .trailingPoint)
  | case9 nameDue tail hdue hne _ ih =>
    rw [eq_false_of_ne_true hdue] at hfront
    exact fun failure hfails => (ih hfront.point (by simp) failure hfails).behind
  | case10 nameDue c tail hbracket hpoint hdue =>
    -- A point is never missing: a name has been read to its end, and behind a bracket the text has
    -- been found to continue.
    have hcontinues := htext (by simpa using hdue)
    simp [Path.continues, hbracket, hpoint] at hcontinues
  | case11 nameDue c tail hbracket hpoint hdue name =>
    rename_i hclose
    obtain rfl : nameDue = true := by simpa using hdue
    rw [← run_append c tail]
    exact .error (hfront.standsIn (.strayBracket (isNameEnd_of_mem_run hbracket hpoint tail)
      (List.contains_iff_mem.mp hclose) (continues_dropWhile tail)))
  | case12 nameDue c tail hbracket hpoint hdue name hclose =>
    rename_i ih
    obtain rfl : nameDue = true := by simpa using hdue
    have hread : IsRead false (front ++ (name ++ [])) :=
      hfront.append (List.cons_ne_nil _ _) (.name (List.cons_ne_nil _ _)
        (isNameEnd_of_mem_run hbracket hpoint tail) (mt List.contains_iff_mem.mpr hclose)
        (.nil false))
    rw [List.append_nil] at hread
    have hcontinues := continues_dropWhile tail
    rw [← run_append c tail]
    exact .map (fun failure hfails => (ih hread (fun _ => hcontinues) failure hfails).behind) _

/-- Reading a text fails with the fault that stands in it, and where it stands. -/
theorem scan_eq_error_iff :
    scan true text = .error (fault, rest) ↔
      ∃ front, text = front ++ rest ∧ fault.StandsAt front rest := by
  constructor
  · intro h
    exact scan_failsWith .start (by simp) (fault, rest) h
  · rintro ⟨front, rfl, nameDue, read, part, hread, hbreaks, rfl⟩
    have hscan := hbreaks.scan
    have hne : part ++ rest ≠ [] := by
      intro hnil
      rw [hnil, Path.scan] at hscan
      cases hscan
    have hcontinues : nameDue = false → Path.continues (part ++ rest) = true := by
      rintro rfl
      exact hbreaks.continues
    obtain ⟨segments, hwhole⟩ := hread.scan_append hne hcontinues
    rw [List.append_assoc, hwhole, hscan]
    rfl

/-! ## Errors -/

/-- The input of an error taken apart: white space, what has been read, what is left at the fault,
and white space. -/
structure ParseError.SplitsAt (error : ParseError) (before front rest behind : String) :
    Prop where
  input_eq : error.input = before ++ front ++ rest ++ behind
  blank_before : AllBlank before.toList
  blank_behind : AllBlank behind.toList
  trimmed : trim error.input.toList = (front ++ rest).toList
  standsAt : error.fault.StandsAt front.toList rest.toList
  position_eq : error.position = front.utf8ByteSize

variable {gap input : String} {error : ParseError}

theorem parse_eq_error_iff_scan :
    parse input = .error error ↔ error.input = input ∧
      ∃ rest, scan true (trim input.toList) = .error (error.fault, rest) ∧
        error.position = offsetOf (trim input.toList) rest := by
  rw [parse]
  split
  next hroot =>
    have hscan : ∃ segments, scan true (trim input.toList) = .ok segments := by
      rcases hroot with hnil | hroot
      · exact ⟨[], by rw [hnil, scan]⟩
      · exact ⟨[.field rootText], by rw [hroot]; decide +kernel⟩
    obtain ⟨segments, hscan⟩ := hscan
    simp [hscan]
  next =>
    have hstarts := scan_startsWithName (trim input.toList)
    rw [startsWithName] at hstarts
    rw [hstarts]
    cases hscan : scan true (trim input.toList) with
    | ok segments => simp
    | error failure =>
      obtain ⟨found, rest⟩ := failure
      constructor
      · rintro ⟨⟩
        exact ⟨rfl, rest, rfl, rfl⟩
      · rintro ⟨hinput, _, ⟨⟩, hposition⟩
        simp only [← hposition]
        rw [← hinput]

/-- A text is no path exactly if there is a fault in it, which is reported at the size of what
stands in front of it behind the white space. -/
theorem parse_eq_error_iff :
    parse input = .error error ↔ error.input = input ∧
      ∃ before front rest behind, error.SplitsAt before front rest behind := by
  rw [parse_eq_error_iff_scan]
  refine and_congr_right fun hinput => ?_
  subst hinput
  simp only [scan_eq_error_iff]
  constructor
  · rintro ⟨rest, ⟨front, htrim, hstands⟩, hposition⟩
    obtain ⟨before, behind, hbefore, hbehind, hinput⟩ := exists_blanks_around error.input.toList
    refine ⟨String.ofList before, String.ofList front, String.ofList rest, String.ofList behind,
      ?input, ?before, ?behind, ?trimmed, ?stands, ?position⟩
    case input =>
      rw [← String.toList_inj, hinput, htrim]
      simp
    case before => rwa [String.toList_ofList]
    case behind => rwa [String.toList_ofList]
    case trimmed => rw [htrim, String.toList_append, String.toList_ofList, String.toList_ofList]
    case stands => rwa [String.toList_ofList, String.toList_ofList]
    case position => rw [hposition, htrim, offsetOf_append, utf8ByteSize_ofList]
  · rintro ⟨before, front, rest, behind, h⟩
    have htrim := h.trimmed
    rw [String.toList_append] at htrim
    refine ⟨rest.toList, ⟨front.toList, htrim, h.standsAt⟩, ?_⟩
    rw [h.position_eq, htrim, offsetOf_append, byteSize_toList]

/-- White space in front is only seen in the input that an error quotes. -/
theorem parse_append_of_allBlank (hgap : AllBlank gap.toList) :
    parse (gap ++ input) =
      (parse input).mapError fun error => { error with input := gap ++ input } := by
  rw [parse, parse, String.toList_append, trim_append_of_allBlank hgap]
  split
  next => rfl
  next =>
    split
    next => rfl
    next => rfl

/-- The position of an error does not grow with the white space in front of the input, and so it is
too small by the size of all of it: it is the offset of the text at fault exactly if there is no
white space in front. -/
theorem parse_error_behind_blanks (hgap : AllBlank gap.toList) (h : parse input = .error error) :
    parse (gap ++ input) = .error { error with input := gap ++ input } ∧
      (parse (gap ++ input) =
          .error ⟨gap ++ input, gap.utf8ByteSize + error.position, error.fault⟩ ↔ gap = "") ∧
      ∃ before front rest behind,
        ParseError.SplitsAt { error with input := gap ++ input } before front rest behind ∧
          (error.position = (before ++ front).utf8ByteSize ↔ before = "") := by
  have hbehind : parse (gap ++ input) = .error { error with input := gap ++ input } := by
    rw [parse_append_of_allBlank hgap, h]
    rfl
  refine ⟨hbehind, ?_, ?_⟩
  · rw [hbehind, Except.error.injEq, ParseError.mk.injEq, and_iff_right rfl, and_iff_left rfl,
      ← String.utf8ByteSize_eq_zero_iff]
    omega
  · obtain ⟨-, before, front, rest, behind, hsplits⟩ := parse_eq_error_iff.mp hbehind
    refine ⟨before, front, rest, behind, hsplits, ?_⟩
    have hposition : error.position = front.utf8ByteSize := hsplits.position_eq
    rw [hposition, String.utf8ByteSize_append, ← String.utf8ByteSize_eq_zero_iff]
    omega

theorem parse_error_behind_blanks_ports :
    AllBlank "\u3000".toList ∧
      parse " ports[0].a[b" = .error ⟨" ports[0].a[b", 10, .unclosedBracket⟩ ∧
      parse "\u3000 ports[0].a[b" = .error ⟨"\u3000 ports[0].a[b", 10, .unclosedBracket⟩ ∧
      parse "\u3000 ports[0].a[b" ≠ .error ⟨"\u3000 ports[0].a[b", 13, .unclosedBracket⟩ := by
  have hgap : AllBlank "\u3000".toList := List.all_eq_true.mp (by decide +kernel)
  have hinput : parse " ports[0].a[b" = .error ⟨" ports[0].a[b", 10, .unclosedBracket⟩ := by
    decide +kernel
  obtain ⟨hbehind, hshifted, -⟩ := parse_error_behind_blanks hgap hinput
  exact ⟨hgap, hinput, hbehind, fun hclaim => absurd (hshifted.mp hclaim) (by decide)⟩

end TaggedSchema.Path
