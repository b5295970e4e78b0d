import TaggedSchema.Path.Parser
import TaggedSchema.Proofs.Results
import TaggedSchema.Proofs.Text.Blank

/-!
# The grammar of field paths

Which texts spell which segments. A path is read in one way at most, and exactly if its text
spells it.
-/

namespace TaggedSchema.Path

open Text

/-- The text spells the segments. `nameDue` says that a field name may come first, as it may at the
start and behind a point; in other places only a point or a bracket goes on. -/
inductive Spells : Bool → List Char → List Segment → Prop where
  | nil (nameDue : Bool) : Spells nameDue [] []
  | bracket {nameDue : Bool} {content rest : List Char} {segment : Segment}
      {segments : List Segment} (hne : content ≠ []) (hclose : ']' ∉ content)
      (hsegment : bracketed content = some segment) (hrest : Spells false rest segments) :
      Spells nameDue ('[' :: (content ++ ']' :: rest)) (segment :: segments)
  | point {rest : List Char} {segments : List Segment} (hne : rest ≠ [])
      (hrest : Spells true rest segments) : Spells false ('.' :: rest) segments
  | name {name rest : List Char} {segments : List Segment} (hne : name ≠ [])
      (hname : ∀ c ∈ name, isNameEnd c = false) (hclose : ']' ∉ name)
      (hrest : Spells false rest segments) :
      Spells true (name ++ rest) (.field (String.ofList name) :: segments)

variable {nameDue : Bool} {text rest content : List Char} {segments : List Segment}

/-! ## Reading one part -/

theorem isNameEnd_eq_false_iff {c : Char} : isNameEnd c = false ↔ c ≠ '.' ∧ c ≠ '[' := by
  rw [isNameEnd, Bool.or_eq_false_iff, beq_eq_false_iff_ne, beq_eq_false_iff_ne]

theorem continues_iff_stops : continues text = true ↔ Stops (!isNameEnd ·) text := by
  cases text with
  | nil => exact ⟨fun _ => nofun, fun _ => rfl⟩
  | cons c rest =>
    rw [stops_cons, Bool.not_eq_false']
    exact Iff.rfl

theorem continues_dropWhile (text : List Char) :
    continues (text.dropWhile (!isNameEnd ·)) = true :=
  continues_iff_stops.mpr (stops_dropWhile _ _)

theorem bracket_append (content rest : List Char) :
    '[' :: (content ++ [']']) ++ rest = '[' :: (content ++ ']' :: rest) := by
  simp

theorem run_append (c : Char) (tail : List Char) :
    c :: tail.takeWhile (!isNameEnd ·) ++ tail.dropWhile (!isNameEnd ·) = c :: tail :=
  congrArg (c :: ·) List.takeWhile_append_dropWhile

/-- A name goes on up to the next point or bracket. -/
theorem isNameEnd_of_mem_run {c : Char} (hbracket : c ≠ '[') (hpoint : c ≠ '.') (tail : List Char) :
    ∀ d ∈ c :: tail.takeWhile (!isNameEnd ·), isNameEnd d = false := by
  refine List.forall_mem_cons.mpr ⟨isNameEnd_eq_false_iff.mpr ⟨hpoint, hbracket⟩, fun d hd => ?_⟩
  simpa using List.mem_takeWhile_imp (p := (!isNameEnd ·)) hd

theorem Spells.continues (h : Spells false text segments) : Path.continues text = true := by
  cases h <;> rfl

/-- A bracket goes up to the first one that closes. -/
theorem scan_closed (hclose : ']' ∉ content) :
    scan nameDue ('[' :: (content ++ ']' :: rest)) =
      if content.isEmpty then .error (.emptyBrackets, '[' :: (content ++ ']' :: rest))
      else (bracketed content).elim (.error (.positionTooLarge, content ++ ']' :: rest))
        fun segment =>
          if continues rest then (scan false rest).map (segment :: ·)
          else .error (.noSeparator, rest) := by
  have hinside := bne_of_not_mem hclose
  have hstops : Stops (· != ']') (']' :: rest) := stops_cons.mpr rfl
  rw [scan.eq_def]
  simp only [if_true]
  split
  next hdrop =>
    rw [dropWhile_run hinside hstops] at hdrop
    cases hdrop
  next c after hdrop =>
    rw [dropWhile_run hinside hstops] at hdrop
    cases hdrop
    rw [takeWhile_run hinside hstops]
    cases bracketed content <;> rfl

theorem scan_bracket (hne : content ≠ []) (hclose : ']' ∉ content) {segment : Segment}
    (hsegment : bracketed content = some segment) (hrest : continues rest = true) :
    scan nameDue ('[' :: (content ++ ']' :: rest)) = (scan false rest).map (segment :: ·) := by
  rw [scan_closed hclose, List.isEmpty_eq_false_iff.mpr hne, hsegment]
  simp [hrest]

theorem scan_point (hne : rest ≠ []) : scan false ('.' :: rest) = scan true rest := by
  rw [scan.eq_def]
  simp [hne]

/-- A closing bracket in a name is found where the name begins. -/
theorem scan_run {name : List Char} (hne : name ≠ []) (hname : ∀ c ∈ name, isNameEnd c = false)
    (hrest : continues rest = true) :
    scan true (name ++ rest) =
      if name.contains ']' then .error (.strayBracket, name ++ rest)
      else (scan false rest).map (.field (String.ofList name) :: ·) := by
  obtain ⟨c, tail, rfl⟩ := List.exists_cons_of_ne_nil hne
  obtain ⟨hc, htail⟩ := List.forall_mem_cons.mp hname
  obtain ⟨hpoint, hbracket⟩ := isNameEnd_eq_false_iff.mp hc
  have hinside : ∀ c ∈ tail, (!isNameEnd c) = true := fun c hc => by rw [htail c hc]; rfl
  have hstops := continues_iff_stops.mp hrest
  rw [List.cons_append, scan.eq_def]
  simp only [hpoint, hbracket, if_false, Bool.not_true, Bool.false_eq_true,
    takeWhile_run hinside hstops, dropWhile_run hinside hstops]

theorem scan_name {name : List Char} (hne : name ≠ []) (hname : ∀ c ∈ name, isNameEnd c = false)
    (hclose : ']' ∉ name) (hrest : continues rest = true) :
    scan true (name ++ rest) = (scan false rest).map (.field (String.ofList name) :: ·) := by
  rw [scan_run hne hname hrest, if_neg (mt List.contains_iff_mem.mp hclose)]

/-! ## Reading a text -/

theorem scan_complete (h : Spells nameDue text segments) : scan nameDue text = .ok segments := by
  induction h with
  | nil => rw [scan]
  | bracket hne hclose hsegment hrest ih =>
    rw [scan_bracket hne hclose hsegment hrest.continues, ih]
    rfl
  | point hne hrest ih => rw [scan_point hne, ih]
  | name hne hname hclose hrest ih =>
    rw [scan_name hne hname hclose hrest.continues, ih]
    rfl

theorem scan_sound (h : scan nameDue text = .ok segments) : Spells nameDue text segments := by
  fun_induction scan nameDue text generalizing segments with
  | case1 nameDue =>
    cases h
    exact .nil _
  | case2 | case3 | case4 | case6 | case7 | case8 | case10 | case11 => cases h
  | case5 nameDue rest close after hdrop content hne segment hsegment =>
    rename_i ih
    obtain ⟨inner, hinner, rfl⟩ := map_succeeds_iff.mp h
    obtain ⟨hclose, hrest⟩ := split_of_dropWhile hdrop
    rw [hrest]
    exact .bracket (mt List.isEmpty_iff.mpr hne) hclose hsegment (ih hinner)
  | case9 nameDue rest hdue hne _ ih =>
    rw [eq_false_of_ne_true hdue]
    exact .point (mt List.isEmpty_iff.mpr hne) (ih h)
  | case12 nameDue c rest hbracket hpoint hdue name hclose =>
    rename_i ih
    obtain ⟨inner, hinner, rfl⟩ := map_succeeds_iff.mp h
    rw [← run_append c rest, eq_true_of_ne_false (mt (congrArg _) hdue)]
    exact .name (List.cons_ne_nil _ _) (isNameEnd_of_mem_run hbracket hpoint rest)
      (mt List.contains_iff_mem.mpr hclose) (ih hinner)

/-- A text is read as the segments that it spells. -/
theorem scan_eq_ok_iff : scan nameDue text = .ok segments ↔ Spells nameDue text segments :=
  ⟨scan_sound, scan_complete⟩

theorem Spells.unique {others : List Segment} (h : Spells nameDue text segments)
    (hothers : Spells nameDue text others) : others = segments :=
  Except.ok.inj ((scan_complete hothers).symm.trans (scan_complete h))

/-! ## The first part of a text -/

/-- A bracket may come wherever a name may and wherever it may not. -/
theorem scan_bracket_any (nameDue nameDue' : Bool) :
    scan nameDue ('[' :: rest) = scan nameDue' ('[' :: rest) := by
  rw [scan.eq_def, scan.eq_def nameDue']
  simp only [if_true]

theorem spells_bracket_any (nameDue nameDue' : Bool) :
    Spells nameDue ('[' :: rest) segments ↔ Spells nameDue' ('[' :: rest) segments := by
  rw [← scan_eq_ok_iff, ← scan_eq_ok_iff, scan_bracket_any nameDue nameDue']

theorem spells_bracket_iff (hclose : ']' ∉ content) :
    Spells nameDue ('[' :: (content ++ ']' :: rest)) segments ↔
      content ≠ [] ∧ ∃ segment more, bracketed content = some segment ∧
        Spells false rest more ∧ segments = segment :: more := by
  constructor
  · intro h
    generalize htext : '[' :: (content ++ ']' :: rest) = text at h
    cases h with
    | nil => cases htext
    | bracket hne hclose' hsegment hrest =>
      obtain ⟨rfl, rfl⟩ := split_unique hclose hclose' (List.cons.inj htext).2
      exact ⟨hne, _, _, hsegment, hrest, rfl⟩
    | point => cases htext
    | @name name rest segments hne hname =>
      obtain ⟨c, tail, rfl⟩ := List.exists_cons_of_ne_nil hne
      obtain ⟨rfl, -⟩ := List.cons.inj htext
      cases hname _ List.mem_cons_self
  · rintro ⟨hne, segment, more, hsegment, hrest, rfl⟩
    exact .bracket hne hclose hsegment hrest

theorem spells_point_iff :
    Spells nameDue ('.' :: rest) segments ↔
      nameDue = false ∧ rest ≠ [] ∧ Spells true rest segments := by
  constructor
  · intro h
    generalize htext : '.' :: rest = text at h
    cases h with
    | nil | bracket => cases htext
    | point hne hrest =>
      cases htext
      exact ⟨rfl, hne, hrest⟩
    | @name name rest segments hne hname =>
      obtain ⟨c, tail, rfl⟩ := List.exists_cons_of_ne_nil hne
      obtain ⟨rfl, -⟩ := List.cons.inj htext
      cases hname _ List.mem_cons_self
  · rintro ⟨rfl, hne, hrest⟩
    exact .point hne hrest

theorem spells_name_iff {name : List Char} (hne : name ≠ [])
    (hname : ∀ c ∈ name, isNameEnd c = false) (hstops : Path.continues rest = true) :
    Spells nameDue (name ++ rest) segments ↔
      nameDue = true ∧ ']' ∉ name ∧ ∃ more, Spells false rest more ∧
        segments = .field (String.ofList name) :: more := by
  constructor
  · intro h
    obtain ⟨c, tail, rfl⟩ := List.exists_cons_of_ne_nil hne
    have hc := hname _ List.mem_cons_self
    generalize htext : c :: tail ++ rest = text at h
    cases h with
    | nil => cases htext
    | bracket | point =>
      obtain rfl := (List.cons.inj htext).1
      cases hc
    | @name name' rest' segments hne' hname' hclose hrest =>
      have hinside {name : List Char} (h : ∀ c ∈ name, isNameEnd c = false) (c : Char)
          (hc : c ∈ name) : (!isNameEnd c) = true := by rw [h c hc]; rfl
      obtain ⟨rfl, rfl⟩ := run_unique (hinside hname) (continues_iff_stops.mp hstops)
        (hinside hname') (continues_iff_stops.mp hrest.continues) htext
      exact ⟨rfl, hclose, _, hrest, rfl⟩
  · rintro ⟨rfl, hclose, more, hrest, rfl⟩
    exact .name hne hname hclose hrest

/-- Whether a name may come first in the text of a whole path. -/
def startsWithName (text : List Char) : Bool :=
  text.head? != some '['

/-- A whole path is read as if a name could come first, also where a bracket does. -/
theorem scan_startsWithName (text : List Char) :
    scan (startsWithName text) text = scan true text := by
  cases hname : startsWithName text with
  | true => rfl
  | false =>
    obtain ⟨rest, rfl⟩ : ∃ rest, text = '[' :: rest := by
      simpa [startsWithName, List.head?_eq_some_iff] using hname
    exact scan_bracket_any false true

/-- A blank text and the one of the root path spell the root path. Any other is taken without the
white space around it. -/
theorem parse_eq_ok_iff {input : String} {path : Path} : parse input = .ok path ↔
    (trim input.toList = [] ∨ trim input.toList = rootText.toList) ∧ path = root ∨
      ¬(trim input.toList = [] ∨ trim input.toList = rootText.toList) ∧
        Spells (startsWithName (trim input.toList)) (trim input.toList) path.segments := by
  rw [parse]
  split
  next hroot =>
    rw [and_iff_right hroot, or_iff_left fun h => h.1 hroot, Except.ok.injEq, eq_comm]
  next hroot =>
    rw [or_iff_right fun h => hroot h.1, and_iff_right hroot, ← scan_eq_ok_iff, startsWithName]
    split
    next segments hscan => rw [hscan, Except.ok.injEq, Except.ok.injEq, Path.mk.injEq]
    next fault rest hscan =>
      rw [hscan]
      exact ⟨nofun, nofun⟩

end TaggedSchema.Path
