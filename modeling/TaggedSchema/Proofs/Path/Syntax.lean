import TaggedSchema.Proofs.Path.Grammar
import TaggedSchema.Proofs.Text.Language

/-!
# The documented syntax of field paths

Field names have a point in front, except for the first, and brackets have none. The parser also
takes brackets behind points. Apart from those it accepts exactly the documented texts.
-/

namespace TaggedSchema.Path

open Text
open scoped Computability

/-! ## The languages -/

def names : Language Char :=
  {name | name ≠ [] ∧ ∀ c ∈ name, c ≠ '.' ∧ c ≠ '[' ∧ c ≠ ']'}

/-- Anything may stand in a bracket but the closing one. A position must fit 64 bits. -/
def brackets : Language Char :=
  {text | ∃ content, text = '[' :: (content ++ [']']) ∧ content ≠ [] ∧ ']' ∉ content ∧
    ((∀ c ∈ content, isAsciiDigit c = true) → digitsValue content < 18446744073709551616)}

def points : Language Char := {['.']}

/-- What may follow a part of a path, where `pointed` may stand behind a point. -/
def furtherParts (pointed : Language Char) : Language Char :=
  points * pointed + brackets

def pathTexts (pointed : Language Char) : Language Char :=
  (names + brackets) * (furtherParts pointed)∗

/-- The documented syntax. -/
def documentedTexts : Language Char := pathTexts names

/-- The texts in which a bracket stands behind a point. The first such bracket follows a documented
text. -/
def pointedBracketTexts : Language Char :=
  documentedTexts * (points * brackets) * (furtherParts (names + brackets))∗

variable {nameDue : Bool} {text front rest content : List Char} {segments : List Segment}

theorem cons_mem_points_mul {l : Language Char} (h : text ∈ l) : '.' :: text ∈ points * l :=
  Language.mem_mul.mpr ⟨['.'], rfl, text, h, rfl⟩

theorem exists_of_mem_points_mul {l : Language Char} (h : text ∈ points * l) :
    ∃ rest ∈ l, text = '.' :: rest := by
  obtain ⟨_, rfl, rest, hrest, rfl⟩ := Language.mem_mul.mp h
  exact ⟨rest, hrest, rfl⟩

/-! ## What is read -/

theorem bracketed_succeeds_iff :
    (∃ segment, bracketed content = some segment) ↔
      ((∀ c ∈ content, isAsciiDigit c = true) → digitsValue content < 18446744073709551616) := by
  rw [bracketed, isPosition, ← List.all_eq_true]
  split
  next hkey =>
    rw [Bool.not_eq_true'] at hkey
    simp [hkey]
  next hposition =>
    rw [Bool.not_eq_true', Bool.not_eq_false] at hposition
    simp [hposition]

/-- What is read is made of parts. The induction is on the text that is left. -/
theorem Spells.mem_parts (h : Spells nameDue text segments) :
    (nameDue = false → text ∈ (furtherParts (names + brackets))∗) ∧
      (nameDue = true → text ≠ [] → text ∈ pathTexts (names + brackets)) := by
  induction h with
  | nil => exact ⟨fun _ => Language.nil_mem_kstar _, fun _ hne => absurd rfl hne⟩
  | @bracket nameDue content rest segment segments hne hclose hsegment hrest ih =>
    have hbracket : '[' :: (content ++ [']']) ∈ brackets :=
      ⟨content, rfl, hne, hclose, bracketed_succeeds_iff.mp ⟨segment, hsegment⟩⟩
    rw [← bracket_append]
    exact ⟨fun _ => append_mem_kstar (.inr hbracket) (ih.1 rfl),
      fun _ _ => Language.append_mem_mul (.inr hbracket) (ih.1 rfl)⟩
  | @point rest segments hne hrest ih =>
    refine ⟨fun _ => ?_, nofun⟩
    obtain ⟨part, hpart, behind, hbehind, rfl⟩ := Language.mem_mul.mp (ih.2 rfl hne)
    exact append_mem_kstar (.inl (cons_mem_points_mul hpart)) hbehind
  | @name name rest segments hne hname hclose hrest ih =>
    refine ⟨nofun, fun _ _ => Language.append_mem_mul (.inl ⟨hne, fun c hc => ?_⟩) (ih.1 rfl)⟩
    obtain ⟨hpoint, hbracket⟩ := isNameEnd_eq_false_iff.mp (hname c hc)
    exact ⟨hpoint, hbracket, fun hsame => hclose (hsame ▸ hc)⟩

/-- A part where a name may come. -/
theorem exists_spells_part (hfront : front ∈ names + brackets)
    (hrest : Spells false rest segments) :
    ∃ segments', Spells true (front ++ rest) segments' := by
  rcases hfront with ⟨hne, hchars⟩ | ⟨content, rfl, hne, hclose, hfits⟩
  · refine ⟨_, .name hne (fun c hc => ?_) (fun hc => (hchars _ hc).2.2 rfl) hrest⟩
    simp [isNameEnd, hchars c hc]
  · obtain ⟨segment, hsegment⟩ := bracketed_succeeds_iff.mpr hfits
    rw [List.cons_append, List.append_assoc]
    exact ⟨_, .bracket hne hclose hsegment hrest⟩

theorem ne_nil_of_mem_parts (h : text ∈ names + brackets) : text ≠ [] := by
  rcases h with ⟨hne, -⟩ | ⟨content, rfl, -⟩
  · exact hne
  · exact List.cons_ne_nil _ _

theorem exists_spells_of_mem_kstar (h : text ∈ (furtherParts (names + brackets))∗) :
    ∃ segments, Spells false text segments := by
  obtain ⟨parts, rfl, hparts⟩ := Language.mem_kstar.mp h
  clear h
  induction parts with
  | nil => exact ⟨_, .nil false⟩
  | cons part parts ih =>
    obtain ⟨hpart, hparts⟩ := List.forall_mem_cons.mp hparts
    obtain ⟨segments, hrest⟩ := ih hparts
    rw [List.flatten_cons]
    rcases hpart with hpointed | ⟨content, rfl, hne, hclose, hfits⟩
    · obtain ⟨part, hpart, rfl⟩ := exists_of_mem_points_mul hpointed
      obtain ⟨segments, hspells⟩ := exists_spells_part hpart hrest
      have hne : part ++ parts.flatten ≠ [] :=
        List.append_ne_nil_of_left_ne_nil (ne_nil_of_mem_parts hpart) _
      exact ⟨segments, .point hne hspells⟩
    · obtain ⟨segment, hsegment⟩ := bracketed_succeeds_iff.mpr hfits
      rw [List.cons_append, List.append_assoc]
      exact ⟨_, .bracket hne hclose hsegment hrest⟩

theorem spells_iff_mem_pathTexts (hne : text ≠ []) :
    (∃ segments, Spells (startsWithName text) text segments) ↔
      text ∈ pathTexts (names + brackets) := by
  have hstarts (segments : List Segment) :
      Spells (startsWithName text) text segments ↔ Spells true text segments := by
    rw [← scan_eq_ok_iff, ← scan_eq_ok_iff, scan_startsWithName]
  simp only [hstarts]
  constructor
  · rintro ⟨segments, h⟩
    exact h.mem_parts.2 rfl hne
  · intro h
    obtain ⟨part, hpart, rest, hrest, rfl⟩ := Language.mem_mul.mp h
    obtain ⟨segments, hspells⟩ := exists_spells_of_mem_kstar hrest
    exact exists_spells_part hpart hspells

/-! ## Brackets behind points -/

/-- Of the parts that are read behind others only the brackets with a point are not documented. So
a text that is read is documented up to the first of those. -/
theorem pathTexts_eq : pathTexts (names + brackets) = documentedTexts + pointedBracketTexts := by
  have hparts : furtherParts (names + brackets) = furtherParts names + points * brackets := by
    rw [furtherParts, furtherParts, mul_add, add_right_comm]
  calc pathTexts (names + brackets)
      = (names + brackets) * (furtherParts names + points * brackets)∗ := by
        rw [pathTexts, hparts]
    _ = documentedTexts + documentedTexts * (points * brackets) *
          (furtherParts names + points * brackets)∗ := by
        rw [documentedTexts, pathTexts, kstar_add (furtherParts names), mul_add, ← kstar_add]
        simp only [mul_assoc]
    _ = documentedTexts + pointedBracketTexts := by rw [pointedBracketTexts, hparts]

theorem exists_cons_of_mem_furtherParts {pointed : Language Char}
    (h : text ∈ furtherParts pointed) : ∃ c tail, text = c :: tail ∧ isNameEnd c = true := by
  rcases h with hpointed | ⟨content, rfl, -⟩
  · obtain ⟨part, -, rfl⟩ := exists_of_mem_points_mul hpointed
    exact ⟨_, _, rfl, rfl⟩
  · exact ⟨_, _, rfl, rfl⟩

theorem continues_append {pointed : Language Char} (hfront : front ∈ (furtherParts pointed)∗)
    (hrest : continues rest = true) : continues (front ++ rest) = true := by
  rcases mem_kstar_iff.mp hfront with rfl | ⟨part, hpart, behind, -, rfl⟩
  · exact hrest
  · obtain ⟨c, tail, rfl, hend⟩ := exists_cons_of_mem_furtherParts hpart
    exact hend

theorem continues_of_mem {pointed : Language Char} (h : text ∈ (furtherParts pointed)∗) :
    continues text = true := by
  have hcontinues : continues (text ++ []) = true := continues_append h rfl
  rwa [List.append_nil] at hcontinues

theorem name_append_ne (h : text ∈ names) (rest tail : List Char) : text ++ rest ≠ '[' :: tail := by
  obtain ⟨c, name, rfl⟩ := List.exists_cons_of_ne_nil h.1
  rintro ⟨⟩
  exact (h.2 _ List.mem_cons_self).2.1 rfl

section Unique

variable {front' rest' : List Char}

/-- Where the path may go on behind them, two parts in front of one text leave the same rest. -/
theorem part_unique (hfront : front ∈ names + brackets) (hfront' : front' ∈ names + brackets)
    (hrest : continues rest = true) (hrest' : continues rest' = true)
    (h : front ++ rest = front' ++ rest') : rest = rest' := by
  have hinside {name : List Char} (hname : name ∈ names) (c : Char) (hc : c ∈ name) :
      (!isNameEnd c) = true := by
    simp [isNameEnd, hname.2 c hc]
  rcases hfront with hname | ⟨content, rfl, -, hclose, -⟩ <;>
    rcases hfront' with hname' | ⟨content', rfl, -, hclose', -⟩
  · exact (run_unique (hinside hname) (continues_iff_stops.mp hrest) (hinside hname')
      (continues_iff_stops.mp hrest') h).2
  · exact absurd h (name_append_ne hname rest _)
  · exact absurd h.symm (name_append_ne hname' rest' _)
  · simp only [List.cons_append, List.append_assoc, List.cons.injEq, true_and] at h
    exact (split_unique hclose hclose' h).2

theorem furtherPart_unique (hfront : front ∈ furtherParts names)
    (hfront' : front' ∈ furtherParts names) (hrest : continues rest = true)
    (hrest' : continues rest' = true) (h : front ++ rest = front' ++ rest') : rest = rest' := by
  rcases hfront with hpointed | hbracket <;> rcases hfront' with hpointed' | hbracket'
  · obtain ⟨name, hname, rfl⟩ := exists_of_mem_points_mul hpointed
    obtain ⟨name', hname', rfl⟩ := exists_of_mem_points_mul hpointed'
    exact part_unique (.inl hname) (.inl hname') hrest hrest' (List.cons.inj h).2
  · obtain ⟨name, -, rfl⟩ := exists_of_mem_points_mul hpointed
    obtain ⟨content, rfl, -⟩ := hbracket'
    cases h
  · obtain ⟨name, -, rfl⟩ := exists_of_mem_points_mul hpointed'
    obtain ⟨content, rfl, -⟩ := hbracket
    cases h
  · exact part_unique (.inr hbracket) (.inr hbracket') hrest hrest' h

end Unique

/-- The induction is on the parts in front. -/
theorem mem_kstar_of_append (hfront : front ∈ (furtherParts names)∗)
    (h : front ++ rest ∈ (furtherParts names)∗) (hrest : continues rest = true) :
    rest ∈ (furtherParts names)∗ := by
  obtain ⟨parts, rfl, hparts⟩ := Language.mem_kstar.mp hfront
  clear hfront
  induction parts with
  | nil => exact h
  | cons part parts ih =>
    obtain ⟨hpart, hparts⟩ := List.forall_mem_cons.mp hparts
    rw [List.flatten_cons, List.append_assoc] at h
    rcases mem_kstar_iff.mp h with hnil | ⟨part', hpart', behind, hbehind, hsame⟩
    · obtain ⟨c, tail, rfl, -⟩ := exists_cons_of_mem_furtherParts hpart
      cases hnil
    · have hcontinues := continues_append (Language.join_mem_kstar hparts) hrest
      refine ih hparts ?_
      rwa [furtherPart_unique hpart hpart' hcontinues (continues_of_mem hbehind) hsame.symm]

theorem mem_kstar_of_documentedTexts (hfront : front ∈ documentedTexts)
    (h : front ++ rest ∈ documentedTexts) (hrest : continues rest = true) :
    rest ∈ (furtherParts names)∗ := by
  obtain ⟨part, hpart, parts, hparts, rfl⟩ := Language.mem_mul.mp hfront
  obtain ⟨part', hpart', parts', hparts', hsame⟩ := Language.mem_mul.mp h
  rw [List.append_assoc] at hsame
  have hcontinues := continues_append hparts hrest
  rw [part_unique hpart' hpart (continues_of_mem hparts') hcontinues hsame] at hparts'
  exact mem_kstar_of_append hparts hparts' hrest

/-- No name begins with a bracket, so what is documented does not go on so behind a documented
text. -/
theorem not_mem_pointedBracketTexts (h : text ∈ documentedTexts) : text ∉ pointedBracketTexts := by
  intro hpointed
  obtain ⟨_, hmiddle, rest, -, rfl⟩ := Language.mem_mul.mp hpointed
  obtain ⟨front, hfront, _, hbracket, rfl⟩ := Language.mem_mul.mp hmiddle
  obtain ⟨_, ⟨content, rfl, -⟩, rfl⟩ := exists_of_mem_points_mul hbracket
  rw [List.append_assoc] at h
  rcases mem_kstar_iff.mp (mem_kstar_of_documentedTexts hfront h rfl) with
    hnil | ⟨part, hpart, behind, -, hsame⟩
  · cases hnil
  rcases hpart with hnamed | ⟨content', rfl, -⟩
  · obtain ⟨name, hname, rfl⟩ := exists_of_mem_points_mul hnamed
    exact name_append_ne hname behind _ (List.cons.inj hsame).2
  · cases hsame

/-- A text is read as a path exactly if, apart from white space around it, it is empty, is the text
of the root path, has the documented syntax, or has it up to a bracket behind a point. The last is
never documented. -/
theorem exists_parse_iff_documented (input : String) :
    ((∃ path, parse input = .ok path) ↔
      trim input.toList = [] ∨ trim input.toList = rootText.toList ∨
        trim input.toList ∈ documentedTexts ∨ trim input.toList ∈ pointedBracketTexts) ∧
      ∀ text ∈ documentedTexts, text ∉ pointedBracketTexts := by
  refine ⟨?_, fun _ => not_mem_pointedBracketTexts⟩
  rw [← Language.mem_add, ← pathTexts_eq]
  generalize htext : trim input.toList = text
  by_cases hroot : text = [] ∨ text = rootText.toList
  · refine iff_of_true ⟨root, parse_eq_ok_iff.mpr ?_⟩ (or_assoc.mp (.inl hroot))
    rw [htext]
    exact .inl ⟨hroot, rfl⟩
  · rw [← or_assoc, or_iff_right hroot,
      ← spells_iff_mem_pathTexts fun hnil => hroot (.inl hnil)]
    constructor
    · rintro ⟨path, hpath⟩
      rw [parse_eq_ok_iff, htext] at hpath
      exact ⟨_, (hpath.resolve_left fun h => hroot h.1).2⟩
    · rintro ⟨segments, hspells⟩
      refine ⟨⟨segments⟩, parse_eq_ok_iff.mpr (.inr ?_)⟩
      rw [htext]
      exact ⟨hroot, hspells⟩

example : parse "a.[0]" = .ok ⟨[.field "a", .index 0]⟩ := by decide +kernel

end TaggedSchema.Path
