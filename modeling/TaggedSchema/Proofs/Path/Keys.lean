import TaggedSchema.Proofs.Path.WellFormed

/-!
# Addresses of keys

The canonical form is read from the text of a path, where a key stands in brackets without quotes.
Two keys below one path have the same canonical form only if they are one number, or if both close
the bracket that they stand in.
-/

namespace TaggedSchema.Path

open Text

/-- The keys are the same number in digits, up to zeros in front. -/
def SameNumber (key key' : String) : Prop :=
  ∃ n, natural? key.toList = some n ∧ natural? key'.toList = some n

/-- The key ends the bracket in which it is written. -/
def ClosesBracket (key : String) : Prop := ']' ∈ key.toList

variable {nameDue : Bool} {front rest content inner : List Char} {segments done : List Segment}

/-! ## Reading up to a bracket -/

/-- With a bracket behind it, `front` is read as the segments `done`, and then a bracket is open
with `inner` in it. It is the bracket behind `front` itself, or one that `front` opens. -/
structure OpensBracket (nameDue : Bool) (front : List Char) (done : List Segment)
    (inner : List Char) : Prop where
  notClosed : ']' ∉ inner
  opened : inner = [] ∨ '[' ∈ inner
  spells_iff (rest : List Char) (segments : List Segment) :
    Spells nameDue (front ++ '[' :: rest) segments ↔
      ∃ more, Spells false ('[' :: (inner ++ rest)) more ∧ segments = done ++ more

theorem opensBracket_open (nameDue : Bool) {inner : List Char} (hclose : ']' ∉ inner) :
    OpensBracket nameDue ('[' :: inner) [] (inner ++ ['[']) where
  notClosed := by simpa using hclose
  opened := .inr (by simp)
  spells_iff rest segments := by
    rw [List.append_assoc, List.cons_append, spells_bracket_any nameDue false]
    simp

theorem opensBracket_nil (nameDue : Bool) : OpensBracket nameDue [] [] [] where
  notClosed := nofun
  opened := .inl rfl
  spells_iff rest segments := by
    rw [List.nil_append, spells_bracket_any nameDue false]
    simp

theorem OpensBracket.bracket (h : OpensBracket false front done inner) {segment : Segment}
    (hne : content ≠ []) (hclose : ']' ∉ content) (hsegment : bracketed content = some segment)
    (nameDue : Bool) :
    OpensBracket nameDue ('[' :: (content ++ ']' :: front)) (segment :: done) inner where
  notClosed := h.notClosed
  opened := h.opened
  spells_iff rest segments := by
    rw [List.cons_append, List.append_assoc, List.cons_append, spells_bracket_iff hclose,
      and_iff_right hne]
    simp only [hsegment, h.spells_iff]
    constructor
    · rintro ⟨_, _, ⟨⟩, ⟨more, hmore, rfl⟩, rfl⟩
      exact ⟨more, hmore, rfl⟩
    · rintro ⟨more, hmore, rfl⟩
      exact ⟨_, _, rfl, ⟨more, hmore, rfl⟩, rfl⟩

theorem OpensBracket.point (h : OpensBracket true front done inner) :
    OpensBracket false ('.' :: front) done inner where
  notClosed := h.notClosed
  opened := h.opened
  spells_iff rest segments := by
    have hne : front ++ '[' :: rest ≠ [] := by simp
    rw [List.cons_append, spells_point_iff, and_iff_right rfl, and_iff_right hne, h.spells_iff]

theorem OpensBracket.name (h : OpensBracket false front done inner) {name : List Char}
    (hne : name ≠ []) (hname : ∀ c ∈ name, isNameEnd c = false) (hclose : ']' ∉ name)
    (hrest : continues front = true) :
    OpensBracket true (name ++ front) (.field (String.ofList name) :: done) inner where
  notClosed := h.notClosed
  opened := h.opened
  spells_iff rest segments := by
    have hcontinues : continues (front ++ '[' :: rest) = true := by
      cases front with
      | nil => rfl
      | cons => exact hrest
    rw [List.append_assoc, spells_name_iff hne hname hcontinues, and_iff_right rfl,
      and_iff_right hclose]
    simp only [h.spells_iff]
    constructor
    · rintro ⟨_, ⟨more, hmore, rfl⟩, rfl⟩
      exact ⟨more, hmore, rfl⟩
    · rintro ⟨more, hmore, rfl⟩
      exact ⟨_, ⟨more, hmore, rfl⟩, rfl⟩

/-- If some text with a bracket behind `front` is read, then `front` leads to an open bracket
whatever is behind. -/
theorem exists_opensBracket {nameDue : Bool} {front : List Char} {segments : List Segment}
    (h : Spells nameDue (front ++ '[' :: rest) segments) :
    ∃ done inner, OpensBracket nameDue front done inner := by
  match front with
  | [] => exact ⟨_, _, opensBracket_nil nameDue⟩
  | c :: front =>
    rw [List.cons_append] at h
    by_cases hbracket : c = '['
    · subst hbracket
      by_cases hclose : ']' ∈ front
      · obtain ⟨content, after, hfront, hcontent⟩ := List.eq_append_cons_of_mem hclose
        rw [hfront, List.append_assoc, List.cons_append, spells_bracket_iff hcontent] at h
        obtain ⟨hne, segment, more, hsegment, hmore, -⟩ := h
        obtain ⟨done, inner, hopens⟩ := exists_opensBracket hmore
        rw [hfront]
        exact ⟨_, _, hopens.bracket hne hcontent hsegment nameDue⟩
      · exact ⟨_, _, opensBracket_open nameDue hclose⟩
    by_cases hpoint : c = '.'
    · subst hpoint
      obtain ⟨rfl, -, hrest⟩ := spells_point_iff.mp h
      obtain ⟨done, inner, hopens⟩ := exists_opensBracket hrest
      exact ⟨_, _, hopens.point⟩
    -- Otherwise a name goes on up to its end in `front`, if it has one there.
    have hsplit := List.takeWhile_append_dropWhile (p := (!isNameEnd ·)) (l := front)
    have hname := isNameEnd_of_mem_run hbracket hpoint front
    have hrest := continues_dropWhile front
    have hbehind : continues (front.dropWhile (!isNameEnd ·) ++ '[' :: rest) = true := by
      cases hdrop : front.dropWhile (!isNameEnd ·) with
      | nil => rfl
      | cons => rwa [hdrop] at hrest
    rw [← hsplit, List.append_assoc, ← List.cons_append,
      spells_name_iff (List.cons_ne_nil _ _) hname hbehind] at h
    obtain ⟨rfl, hclose, more, hmore, -⟩ := h
    obtain ⟨done, inner, hopens⟩ := exists_opensBracket hmore
    have hopens := hopens.name (List.cons_ne_nil _ _) hname hclose hrest
    rw [List.cons_append, hsplit] at hopens
    exact ⟨_, _, hopens⟩
termination_by front.length
decreasing_by
  · rw [hfront, List.length_cons, List.length_append, List.length_cons]
    omega
  · simp
  · have := (List.dropWhile_suffix (!isNameEnd ·) (l := front)).length_le
    simp only [List.length_cons]
    omega

/-! ## Reading a key -/

/-- A bracket whose content does not close it is one segment. -/
theorem spells_closed (hclose : ']' ∉ content)
    (h : Spells false ('[' :: (content ++ [']'])) segments) :
    ∃ segment, content ≠ [] ∧ bracketed content = some segment ∧ segments = [segment] := by
  obtain ⟨hne, segment, more, hsegment, hmore, rfl⟩ := (spells_bracket_iff hclose).mp h
  exact ⟨segment, hne, hsegment, by rw [(Spells.nil false).unique hmore]⟩

/-- If its content closes it, then more segments follow. -/
theorem length_of_spells_closing (hclose : ']' ∈ content)
    (h : Spells false ('[' :: (content ++ [']'])) segments) : 1 < segments.length := by
  obtain ⟨before, after, rfl, hbefore⟩ := List.eq_append_cons_of_mem hclose
  rw [List.append_assoc, List.cons_append, spells_bracket_iff hbefore] at h
  obtain ⟨-, segment, more, -, hmore, rfl⟩ := h
  cases more with
  | nil => exact absurd hmore.eq_nil (List.append_ne_nil_of_right_ne_nil _ (List.cons_ne_nil _ _))
  | cons => simp

theorem bracketed_eq {content' : List Char} {segment : Segment} (hne : content ≠ [])
    (hne' : content' ≠ []) (h : bracketed content = some segment)
    (h' : bracketed content' = some segment) :
    content = content' ∨ ∃ n, natural? content = some n ∧ natural? content' = some n := by
  have hnatural {content : List Char} (hne : content ≠ []) (hdigits : isPosition content = true) :
      natural? content = some (digitsValue content) := by
    rw [isPosition] at hdigits
    rw [natural?, hdigits, List.isEmpty_eq_false_iff.mpr hne]
    rfl
  rw [bracketed] at h h'
  split at h <;> split at h'
  next =>
    cases h
    rw [Option.some.injEq, Segment.key.injEq, String.ofList_inj] at h'
    exact .inl h'.symm
  next =>
    cases h
    split at h' <;> cases h'
  next =>
    cases h'
    split at h <;> cases h
  next hdigits hdigits' =>
    rw [Bool.not_eq_true', Bool.not_eq_false] at hdigits hdigits'
    rw [Option.ite_none_right_eq_some] at h h'
    obtain ⟨-, ⟨⟩⟩ := h
    obtain ⟨-, heq⟩ := h'
    rw [Option.some.injEq, Segment.index.injEq] at heq
    exact .inr ⟨_, hnatural hne hdigits, heq ▸ hnatural hne' hdigits'⟩

/-- Two keys that are read alike behind the same text. -/
theorem OpensBracket.keys (h : OpensBracket nameDue front done inner) {key key' : String}
    (hkeys : key ≠ key')
    (hspells : Spells nameDue (front ++ '[' :: (key.toList ++ [']'])) segments)
    (hspells' : Spells nameDue (front ++ '[' :: (key'.toList ++ [']'])) segments) :
    SameNumber key key' ∨ ClosesBracket key ∧ ClosesBracket key' := by
  obtain ⟨more, hmore, rfl⟩ := (h.spells_iff _ _).mp hspells
  obtain ⟨more', hmore', hsame⟩ := (h.spells_iff _ _).mp hspells'
  rw [← List.append_cancel_left hsame] at hmore'
  rw [← List.append_assoc] at hmore hmore'
  have hcloses {key : String} : ']' ∈ inner ++ key.toList ↔ ClosesBracket key := by
    rw [List.mem_append, or_iff_right h.notClosed, ClosesBracket]
  by_cases hkey : ClosesBracket key <;> by_cases hkey' : ClosesBracket key'
  · exact .inr ⟨hkey, hkey'⟩
  · obtain ⟨segment, -, -, rfl⟩ := spells_closed (mt hcloses.mp hkey') hmore'
    exact absurd (length_of_spells_closing (hcloses.mpr hkey) hmore) (by simp)
  · obtain ⟨segment, -, -, rfl⟩ := spells_closed (mt hcloses.mp hkey) hmore
    exact absurd (length_of_spells_closing (hcloses.mpr hkey') hmore') (by simp)
  · obtain ⟨segment, hne, hsegment, rfl⟩ := spells_closed (mt hcloses.mp hkey) hmore
    obtain ⟨segment, hne', hsegment', ⟨⟩⟩ := spells_closed (mt hcloses.mp hkey') hmore'
    rcases bracketed_eq hne hne' hsegment hsegment' with hsame | ⟨n, hn, hn'⟩
    · exact absurd (String.toList_inj.mp (List.append_cancel_left hsame)) hkeys
    · rcases h.opened with rfl | hopen
      · exact .inl ⟨n, hn, hn'⟩
      · rw [natural?, Option.ite_none_left_eq_some, Bool.or_eq_true, not_or, Bool.not_eq_true',
          Bool.not_eq_false, List.all_append, Bool.and_eq_true, List.all_eq_true] at hn
        exact absurd (hn.1.2.1 _ hopen) (by decide)

/-! ## Paths that end in a key -/

/-- The text of a path in front of the bracket of a key. -/
def keyFront (base : Path) : List Char :=
  match base.segments with
  | .field name :: segments => name.toList ++ joined segments
  | segments => joined segments

theorem joined_append (segments segments' : List Segment) :
    joined (segments ++ segments') = joined segments ++ joined segments' :=
  List.flatMap_append

theorem toList_toText_key (base : Path) (key : String) :
    (base.key key).toText.toList = keyFront base ++ '[' :: (key.toList ++ [']']) := by
  have hkey : joined [.key key] = '[' :: (key.toList ++ [']']) := by
    rw [joined_cons, toList_key]
    exact List.append_nil _
  have hother {segment : Segment} {segments : List Segment}
      (hne : ∀ name, segment ≠ .field name) :
      (Path.mk (segment :: segments ++ [.key key])).toText.toList =
        joined (segment :: segments) ++ '[' :: (key.toList ++ [']']) := by
    rw [List.cons_append, toList_toText_of_ne hne, ← List.cons_append, joined_append, hkey]
  obtain ⟨segments⟩ := base
  cases segments with
  | nil =>
    have hne (name : String) : Segment.key key ≠ .field name := nofun
    exact (toList_toText_of_ne hne).trans hkey
  | cons segment segments =>
    cases segment with
    | field name =>
      have htext : (Path.mk (.field name :: (segments ++ [.key key]))).toText.toList =
          name.toList ++ joined (segments ++ [.key key]) := toList_toText_field
      rw [joined_append, hkey, ← List.append_assoc] at htext
      exact htext
    | index | key => exact hother fun _ => nofun

/-- The part of the text in front of the bracket that is read. -/
def keyLead (base : Path) : List Char := trimStart (keyFront base)

theorem trim_toText_key (base : Path) (key : String) :
    trim (base.key key).toText.toList = keyLead base ++ '[' :: (key.toList ++ [']']) := by
  have hstart : trimStart (keyFront base ++ '[' :: (key.toList ++ [']'])) =
      keyLead base ++ '[' :: (key.toList ++ [']']) := by
    rw [keyLead, trimStart, trimStart, List.dropWhile_append]
    split
    next hnil => rw [List.isEmpty_iff.mp hnil]; rfl
    next => rfl
  have hend : EndsSolid (keyLead base ++ '[' :: (key.toList ++ [']'])) := by
    have hclosed : EndsSolid [']'] := ⟨List.cons_ne_nil _ _, stops_cons.mpr rfl⟩
    rw [← List.cons_append, ← List.append_assoc]
    exact hclosed.append _
  rw [toList_toText_key, trim, hstart, hend.trimEnd_eq]

/-- Whether a name may come first in the text of a key below the path. -/
def keyNameDue (base : Path) : Bool := startsWithName (keyLead base ++ ['['])

theorem parse_key_iff {base path : Path} {key : String} :
    parse (base.key key).toText = .ok path ↔
      Spells (keyNameDue base) (keyLead base ++ '[' :: (key.toList ++ [']'])) path.segments := by
  have hstarts : startsWithName (keyLead base ++ '[' :: (key.toList ++ [']'])) =
      keyNameDue base := by
    rw [keyNameDue]
    cases keyLead base <;> rfl
  have hroot : ¬(keyLead base ++ '[' :: (key.toList ++ [']']) = [] ∨
      keyLead base ++ '[' :: (key.toList ++ [']']) = rootText.toList) := by
    rintro (hnil | hroot)
    · exact List.append_ne_nil_of_right_ne_nil _ (List.cons_ne_nil _ _) hnil
    · have hlast := congrArg List.getLast? hroot
      rw [← List.cons_append, ← List.append_assoc, List.getLast?_concat] at hlast
      revert hlast
      decide
  rw [parse_eq_ok_iff, trim_toText_key, hstarts, and_iff_right hroot,
    or_iff_right fun h => hroot h.1]

theorem key_inj {base : Path} {key key' : String} (h : base.key key = base.key key') :
    key = key' := by
  simpa [Path.key, extend] using h

/-- Different keys below one path have the same canonical form only by being read alike. -/
theorem canonical_key_eq_iff {base : Path} {key key' : String} (hkeys : key ≠ key') :
    (base.key key).canonical = (base.key key').canonical ↔
      ∃ path, parse (base.key key).toText = .ok path ∧ parse (base.key key').toText = .ok path := by
  constructor
  · intro heq
    rcases (base.key key).canonical_cases with hread | hself <;>
      rcases (base.key key').canonical_cases with hread' | hself'
    · exact ⟨_, hread, heq ▸ hread'⟩
    · rw [hself'] at heq
      rw [heq] at hread
      exact ⟨_, hread, parse_of_wellFormed (wellFormed_of_parse hread)⟩
    · rw [hself] at heq
      rw [← heq] at hread'
      exact ⟨_, parse_of_wellFormed (wellFormed_of_parse hread'), hread'⟩
    · rw [hself, hself'] at heq
      exact absurd (key_inj heq) hkeys
  · rintro ⟨path, hread, hread'⟩
    rw [canonical_of_parse hread, canonical_of_parse hread']

theorem canonical_key_eq {base : Path} {key key' : String} (hkeys : key ≠ key')
    (h : (base.key key).canonical = (base.key key').canonical) :
    SameNumber key key' ∨ ClosesBracket key ∧ ClosesBracket key' := by
  obtain ⟨path, hread, hread'⟩ := (canonical_key_eq_iff hkeys).mp h
  rw [parse_key_iff] at hread hread'
  obtain ⟨done, inner, hopens⟩ := exists_opensBracket hread
  exact hopens.keys hkeys hread hread'

/-! ## Below a well-formed path -/

theorem WellFormed.key {base : Path} (h : base.WellFormed) {key : String}
    (hkey : (Segment.key key).WellFormed) : (base.key key).WellFormed where
  segments := by
    refine List.forall_mem_append.mpr ⟨h.segments, ?_⟩
    exact List.forall_mem_singleton.mpr hkey
  front name hhead := by
    refine h.front name ?_
    rw [Path.key, extend, List.head?_append] at hhead
    exact (Option.or_eq_some_iff.mp hhead).resolve_right fun h => by cases h.2
  back name hlast := by
    rw [Path.key, extend, List.getLast?_concat] at hlast
    cases hlast
  notRoot hroot := by
    have hlast := congrArg List.getLast? hroot
    rw [Path.key, extend, List.getLast?_concat] at hlast
    cases hlast

/-- Behind a well-formed path a key is read on its own. -/
theorem parse_key_of_wellFormed {base path : Path} (h : base.WellFormed) {key : String} :
    parse (base.key key).toText = .ok path ↔
      ∃ more, Spells false ('[' :: (key.toList ++ [']'])) more ∧
        path.segments = base.segments ++ more := by
  -- Some key that is read as itself shows what is read up to the bracket.
  have hkey : (Segment.key "k").WellFormed := ⟨by decide, by decide, 'k', by decide, rfl⟩
  have hread := parse_of_wellFormed (h.key hkey)
  rw [parse_key_iff] at hread ⊢
  obtain ⟨done, inner, hopens⟩ := exists_opensBracket hread
  obtain ⟨more, hmore, hsegments⟩ := (hopens.spells_iff _ _).mp hread
  rw [← List.append_assoc] at hmore
  have hclose : ']' ∉ inner ++ "k".toList := by simpa using hopens.notClosed
  obtain ⟨segment, -, hsegment, rfl⟩ := spells_closed hclose hmore
  obtain ⟨hdone, hkey⟩ := List.append_inj' hsegments rfl
  rw [bracketed_key ⟨'k', by simp, rfl⟩, Option.some.injEq] at hsegment
  rw [← hsegment, List.singleton_inj, Segment.key.injEq] at hkey
  have hinner : inner ++ "k".toList = "k".toList :=
    String.toList_ofList.symm.trans (congrArg String.toList hkey.symm)
  obtain rfl := List.append_left_eq_self.mp hinner
  rw [hopens.spells_iff, hdone]
  rfl

/-- So two keys below a well-formed path are read alike if they are below the root path. -/
theorem canonical_key_eq_iff_root {base : Path} (h : base.WellFormed) {key key' : String}
    (hkeys : key ≠ key') :
    (base.key key).canonical = (base.key key').canonical ↔
      (root.key key).canonical = (root.key key').canonical := by
  have hread {base path : Path} {key : String} {more : List Segment} (h : base.WellFormed)
      (hpath : path.segments = base.segments ++ more) :
      parse (base.key key).toText = .ok path ↔
        Spells false ('[' :: (key.toList ++ [']'])) more := by
    rw [parse_key_of_wellFormed h, hpath]
    simp
  rw [canonical_key_eq_iff hkeys, canonical_key_eq_iff hkeys]
  constructor
  · rintro ⟨path, hkey, hkey'⟩
    obtain ⟨more, -, hpath⟩ := (parse_key_of_wellFormed h).mp hkey
    rw [hread h hpath] at hkey hkey'
    exact ⟨⟨more⟩, (hread wellFormed_root rfl).mpr hkey, (hread wellFormed_root rfl).mpr hkey'⟩
  · rintro ⟨path, hkey, hkey'⟩
    have hpath : path.segments = root.segments ++ path.segments := rfl
    rw [hread wellFormed_root hpath] at hkey hkey'
    exact ⟨⟨base.segments ++ path.segments⟩, (hread h rfl).mpr hkey, (hread h rfl).mpr hkey'⟩

/-- Keys that are one number below the bound of positions are such keys. -/
theorem canonical_key_eq_of_sameNumber {base : Path} (h : base.WellFormed) {key key' : String}
    {n : Nat} (hn : n < 18446744073709551616) (hkey : natural? key.toList = some n)
    (hkey' : natural? key'.toList = some n) :
    (base.key key).canonical = (base.key key').canonical := by
  have hread {key : String} (hkey : natural? key.toList = some n) :
      (base.key key).canonical = base.index n := by
    refine canonical_of_parse ((parse_key_of_wellFormed h).mpr ⟨[.index n], ?_, rfl⟩)
    rw [natural?, Option.ite_none_left_eq_some, Bool.or_eq_true, not_or, Bool.not_eq_true',
      Bool.not_eq_false, Option.some.injEq] at hkey
    obtain ⟨⟨hempty, hdigits⟩, hvalue⟩ := hkey
    refine .bracket (mt List.isEmpty_iff.mpr hempty) ?_ ?_ (.nil false)
    · exact fun hclose => absurd (List.all_eq_true.mp hdigits _ hclose) (by decide)
    · rw [bracketed, isPosition, hdigits, hvalue]
      simp [hn]
  rw [hread hkey, hread hkey']

end TaggedSchema.Path
