import TaggedSchema.Proofs.Tag.Printing

/-!
# The texts that tags keep

A tag keeps the whole text from which it was read, without the blanks around it, and every tag
inside it keeps the end of that text from its own plus sign on. What a tag keeps reads as the tag.
-/

namespace TaggedSchema.Tag

open Text

variable {scope : Scope} {text before behind : List Char} {head : Head} {tag : Tag}

/-- The tags inside a tag, from the outside in. -/
def nested : Tag → List Tag
  | composed _ inner => inner :: inner.nested
  | _ => []

/-! ## Heads -/

/-- A head ends with a name or a parenthesis. -/
theorem SpellsHead.endsSolid_text (h : SpellsHead scope text behind head) : EndsSolid text := by
  cases h with
  | @mk plus names _ _ _ _ _ hplus hname harguments =>
    exact (harguments.endsSolid hname.endsSolid).append plus

theorem SpellsHead.trim_append (h : SpellsHead scope text behind head) (hbefore : AllBlank before) :
    trim (before ++ (text ++ behind)) = text ++ trimEnd behind := by
  rw [trim, trimStart_append hbefore (h.stops behind), h.endsSolid_text.trimEnd_append]

theorem SpellsHead.raw_eq (h : SpellsHead scope text behind head) (hbefore : AllBlank before) :
    head.raw = String.ofList (trim (before ++ (text ++ behind))) := by
  rw [trim, trimStart_append hbefore (h.stops behind)]
  cases h
  rfl

/-- What a head keeps does not depend on blanks at the end. -/
theorem SpellsHead.trimEnd_behind (h : SpellsHead scope text behind head) :
    SpellsHead scope text (trimEnd behind) head := by
  cases h with
  | mk hplus hname harguments =>
    rw [← trimEnd_append_trimEnd]
    exact .mk hplus hname harguments

/-! ## Tags -/

theorem Spells.raw_eq (h : Spells scope text tag) : tag.raw = String.ofList (trim text) := by
  cases h with
  | bare hbefore hhead | composed hbefore _ hhead | string hbefore _ _ hhead
  | text hbefore _ _ _ _ _ hhead => exact hhead.raw_eq hbefore

/-- The induction is on the nesting of tags. -/
theorem Spells.trim (h : Spells scope text tag) : Spells scope (trim text) tag := by
  have hpayload {c : Char} (hc : isBlank c = false) (gap rest : List Char) :
      trimEnd ('=' :: (gap ++ c :: rest)) = '=' :: (gap ++ c :: trimEnd rest) :=
    trimEnd_append_cons hc ('=' :: gap) rest
  induction h with
  | @bare before text after head hbefore hhead hafter =>
    have hagain := hhead.trimEnd_behind
    rw [hhead.trim_append hbefore]
    rw [trimEnd_of_allBlank hafter] at hagain ⊢
    exact .bare allBlank_nil hagain allBlank_nil
  | @composed before text gap rest head inner hbefore hgap hhead hinner ih =>
    have hagain := hhead.trimEnd_behind
    have hplus : Text.trim ('+' :: rest) = '+' :: trimEnd rest := trim_append_cons rfl [] rest
    rw [hhead.trim_append hbefore]
    rw [hpayload rfl] at hagain ⊢
    exact .composed allBlank_nil hgap hagain (hplus ▸ ih)
  | @string before text gap spelled after head content hbefore hgap hafter hhead hstring =>
    have hagain := hhead.trimEnd_behind
    have hsolid : EndsSolid ('=' :: gap ++ spelled) := hstring.endsSolid.append _
    have hspelled : trimEnd ('=' :: (gap ++ (spelled ++ after))) =
        '=' :: (gap ++ (spelled ++ [])) := by
      have := hsolid.trimEnd_append after
      rw [trimEnd_of_allBlank hafter] at this
      simpa using this
    rw [hhead.trim_append hbefore]
    rw [hspelled] at hagain ⊢
    exact .string allBlank_nil hgap allBlank_nil hagain hstring
  | @text before text gap rest c head hbefore hgap hblank hplus hquote hbacktick hhead =>
    have hagain := hhead.trimEnd_behind
    have hvalue : trimEnd (c :: rest) = trimEnd (c :: trimEnd rest) :=
      (trimEnd_append_trimEnd [c] rest).symm
    rw [hhead.trim_append hbefore, hvalue]
    rw [hpayload hblank] at hagain ⊢
    exact .text allBlank_nil hgap hblank hplus hquote hbacktick hagain

theorem Spells.parse_raw (h : Spells scope text tag) : parse scope tag.raw = .ok tag := by
  rw [parse_succeeds_iff, h.raw_eq, String.toList_ofList]
  exact read_complete h.trim

/-- Every tag inside is spelled by an end of the text that begins with a plus sign. -/
theorem Spells.exists_of_mem_nested (h : Spells scope text tag) {inner : Tag}
    (hinner : inner ∈ tag.nested) :
    ∃ front rest, text = front ++ '+' :: rest ∧ Spells scope ('+' :: rest) inner := by
  induction h with
  | bare | string | text => cases hinner
  | @composed before text gap rest head child hbefore hgap hhead hchild ih =>
    have hwhole : before ++ (text ++ '=' :: (gap ++ '+' :: rest)) =
        before ++ (text ++ '=' :: gap) ++ '+' :: rest := by
      simp
    rcases List.mem_cons.mp hinner with rfl | hdeep
    · exact ⟨_, rest, hwhole, hchild⟩
    · obtain ⟨front, rest', hrest, hspells⟩ := ih hdeep
      refine ⟨before ++ (text ++ '=' :: gap) ++ front, rest', ?_, hspells⟩
      rw [hwhole, hrest, List.append_assoc _ front]

/-- A tag keeps the input without the blanks around it. What a tag inside it keeps begins with a
plus sign and ends the text of the tag around it. Each of these texts reads as the tag that keeps
it. -/
theorem raw_of_parse {input : String} (h : parse scope input = .ok tag) :
    tag.raw = String.ofList (trim input.toList) ∧
      (∀ inner ∈ tag.nested, ∃ front rest, inner.raw = "+" ++ rest ∧ tag.raw = front ++ inner.raw) ∧
      ∀ part ∈ tag :: tag.nested, parse scope part.raw = .ok part := by
  have hspells := read_sound (parse_succeeds_iff.mp h)
  refine ⟨hspells.raw_eq, fun inner hinner => ?_, fun part hpart => ?_⟩
  · obtain ⟨front, rest, htext, hinside⟩ := hspells.exists_of_mem_nested hinner
    have hraw : inner.raw = String.ofList ('+' :: trimEnd rest) := by
      rw [hinside.raw_eq]
      exact congrArg String.ofList (trim_append_cons rfl [] rest)
    refine ⟨String.ofList (trimStart front), String.ofList (trimEnd rest), ?_, ?_⟩
    · rw [hraw, ← List.singleton_append, String.ofList_append]
    · rw [hspells.raw_eq, htext, trim_append_cons rfl, hraw, String.ofList_append]
  · rcases List.mem_cons.mp hpart with rfl | hinside
    · exact hspells.parse_raw
    · obtain ⟨front, rest, -, hinner⟩ := hspells.exists_of_mem_nested hinside
      exact hinner.parse_raw

/-- The raw texts of a chain of three tags, which was read between blanks. -/
theorem raw_of_parse_chain :
    ∃ tag, parse .field " +k8s:ifEnabled(A)=\u3000+k8s:eachVal=+k8s:maxLength=16\t" = .ok tag ∧
      tag.raw = "+k8s:ifEnabled(A)=\u3000+k8s:eachVal=+k8s:maxLength=16" ∧
      tag.nested.map raw = ["+k8s:eachVal=+k8s:maxLength=16", "+k8s:maxLength=16"] ∧
      ∀ part ∈ tag :: tag.nested, parse .field part.raw = .ok part := by
  have hnested :
      (parse .field " +k8s:ifEnabled(A)=\u3000+k8s:eachVal=+k8s:maxLength=16\t").toOption.map
        (fun tag => tag.nested.map raw) =
          some ["+k8s:eachVal=+k8s:maxLength=16", "+k8s:maxLength=16"] := by
    decide +kernel
  cases hparse : parse .field " +k8s:ifEnabled(A)=\u3000+k8s:eachVal=+k8s:maxLength=16\t" with
  | error error =>
    rw [hparse] at hnested
    cases hnested
  | ok tag =>
    rw [hparse] at hnested
    obtain ⟨hraw, -, hparts⟩ := raw_of_parse hparse
    refine ⟨tag, rfl, ?_, Option.some.inj hnested, hparts⟩
    rw [hraw]
    decide +kernel

end TaggedSchema.Tag
