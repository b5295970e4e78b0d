import TaggedSchema.Proofs.Path.Grammar
import TaggedSchema.Proofs.Text.Numeral

/-!
# Paths that their texts spell

A path is read back from its text exactly if it is well formed, and only well-formed paths are ever
read. So a path that has been read once does not change when it is written and read again.
-/

namespace TaggedSchema

open Text

/-- The text of the segment is read as the segment. -/
def Segment.WellFormed : Segment → Prop
  | field name => name ≠ "" ∧ ∀ c ∈ name.toList, c ≠ '.' ∧ c ≠ '[' ∧ c ≠ ']'
  | index position => position < 18446744073709551616
  | key text => text ≠ "" ∧ ']' ∉ text.toList ∧ ∃ c ∈ text.toList, isAsciiDigit c = false

namespace Path

/-- All segments are well formed, reading takes no white space off either end, and the path is not
the field that is called like the root path. -/
structure WellFormed (path : Path) : Prop where
  segments : ∀ segment ∈ path.segments, segment.WellFormed
  front : ∀ name, path.segments.head? = some (.field name) → Stops isBlank name.toList
  back : ∀ name, path.segments.getLast? = some (.field name) →
    Stops isBlank name.toList.reverse
  notRoot : path.segments ≠ [.field rootText]

variable {nameDue : Bool} {text rest content : List Char} {segments : List Segment} {name : String}

/-! ## Brackets -/

theorem bracketed_key (h : ∃ c ∈ content, isAsciiDigit c = false) :
    bracketed content = some (.key (String.ofList content)) := by
  have hkey : isPosition content = false := by
    rw [isPosition, List.all_eq_false]
    simpa using h
  rw [bracketed, hkey]
  rfl

theorem bracketed_toDigits {position : Nat} (h : position < 18446744073709551616) :
    bracketed (Nat.toDigits 10 position) = some (.index position) := by
  have hread := natural?_toDigits position
  rw [natural?] at hread
  split at hread
  next => cases hread
  next hdigits =>
    rw [Bool.or_eq_true, not_or, Bool.not_eq_true', Bool.not_eq_false] at hdigits
    rw [bracketed, isPosition, hdigits.2, Option.some.inj hread]
    simp [h]

theorem wellFormed_of_bracketed {segment : Segment} (hne : content ≠ []) (hclose : ']' ∉ content)
    (h : bracketed content = some segment) : segment.WellFormed := by
  rw [bracketed] at h
  split at h
  next hkey =>
    cases h
    rw [Bool.not_eq_true', isPosition, List.all_eq_false] at hkey
    refine ⟨by simpa using hne, by simpa using hclose, ?_⟩
    simpa using hkey
  next =>
    split at h
    next hlt =>
      cases h
      exact hlt
    next => cases h

theorem bracketed_ne_field (h : bracketed content = some (.field name)) : False := by
  rw [bracketed] at h
  split at h
  · cases h
  · split at h <;> cases h

/-! ## What is read is well formed -/

theorem Spells.wellFormed (h : Spells nameDue text segments) :
    ∀ segment ∈ segments, segment.WellFormed := by
  induction h with
  | nil => exact List.forall_mem_nil _
  | bracket hne hclose hsegment hrest ih =>
    exact List.forall_mem_cons.mpr ⟨wellFormed_of_bracketed hne hclose hsegment, ih⟩
  | point hne hrest ih => exact ih
  | @name name rest segments hne hname hclose hrest ih =>
    refine List.forall_mem_cons.mpr ⟨⟨by simpa using hne, fun c hc => ?_⟩, ih⟩
    rw [String.toList_ofList] at hc
    obtain ⟨hpoint, hbracket⟩ := isNameEnd_eq_false_iff.mp (hname c hc)
    exact ⟨hpoint, hbracket, fun hsame => hclose (hsame ▸ hc)⟩

theorem Spells.eq_nil (h : Spells nameDue text []) : text = [] := by
  cases h with
  | nil => rfl
  | point hne hrest =>
    cases hrest
    exact absurd rfl hne

/-- A name that is read first stands at the front of the text. -/
theorem Spells.front (h : Spells true text (.field name :: segments)) : name.toList <+: text := by
  cases h with
  | bracket _ _ hsegment => exact (bracketed_ne_field hsegment).elim
  | @name name rest _ _ _ _ hrest =>
    rw [String.toList_ofList]
    exact List.prefix_append _ _

/-- A name that is read last stands at the end of the text. -/
theorem Spells.back (h : Spells nameDue text segments)
    (hlast : segments.getLast? = some (.field name)) : name.toList <:+ text := by
  induction h with
  | nil => cases hlast
  | @bracket nameDue content rest segment segments hne hclose hsegment hrest ih =>
    cases segments with
    | nil =>
      rw [List.getLast?_singleton, Option.some.injEq] at hlast
      rw [hlast] at hsegment
      exact (bracketed_ne_field hsegment).elim
    | cons next segments =>
      rw [List.getLast?_cons_cons] at hlast
      exact (ih hlast).trans ⟨'[' :: (content ++ [']']), by simp⟩
  | point hne hrest ih => exact (ih hlast).trans (List.suffix_cons _ _)
  | @name name rest segments hne hname hclose hrest ih =>
    cases segments with
    | nil =>
      rw [List.getLast?_singleton, Option.some.injEq, Segment.field.injEq] at hlast
      rw [hrest.eq_nil, ← hlast, String.toList_ofList]
      exact ⟨[], (List.append_nil name).symm⟩
    | cons next segments =>
      rw [List.getLast?_cons_cons] at hlast
      exact (ih hlast).trans (List.suffix_append _ _)

/-- A text of one name is that name. -/
theorem Spells.eq_of_name (h : Spells true text [.field name]) : text = name.toList := by
  cases h with
  | bracket _ _ hsegment => exact (bracketed_ne_field hsegment).elim
  | name hne hname hclose hrest => rw [hrest.eq_nil, List.append_nil, String.toList_ofList]

/-- Only a name can come first where the text does not begin with a bracket. -/
theorem Spells.startsWithName
    (h : Spells (startsWithName text) text (.field name :: segments)) :
    Path.startsWithName text = true := by
  by_contra hbracket
  rw [eq_false_of_ne_true hbracket] at h
  cases h with
  | bracket _ _ hsegment => exact (bracketed_ne_field hsegment).elim
  | point hne hrest => exact hbracket rfl

theorem stops_of_prefix {p : Char → Bool} {front : List Char} (h : front <+: text)
    (hne : front ≠ []) (hstops : Stops p text) : Stops p front := by
  obtain ⟨c, tail, rfl⟩ := List.exists_cons_of_ne_nil hne
  obtain ⟨rest, rfl⟩ := h
  exact stops_cons.mpr (stops_cons.mp hstops)

theorem wellFormed_root : root.WellFormed :=
  ⟨List.forall_mem_nil _, nofun, nofun, nofun⟩

theorem wellFormed_of_parse {input : String} {path : Path} (h : parse input = .ok path) :
    path.WellFormed := by
  rcases parse_eq_ok_iff.mp h with ⟨-, rfl⟩ | ⟨hroot, hspells⟩
  · exact wellFormed_root
  have hsegments := hspells.wellFormed
  have hname (name : String) (hmem : .field name ∈ path.segments) : name.toList ≠ [] :=
    mt String.toList_eq_nil_iff.mp (hsegments (.field name) hmem).1
  refine ⟨hsegments, ?front, ?back, ?notRoot⟩
  case front =>
    intro name hhead
    obtain ⟨rest, hpath⟩ := List.head?_eq_some_iff.mp hhead
    rw [hpath] at hspells
    have htrue := hspells.startsWithName
    rw [htrue] at hspells
    exact stops_of_prefix hspells.front (hname name (List.mem_of_mem_head? hhead))
      (stops_trim _)
  case back =>
    intro name hlast
    have hsuffix := List.reverse_prefix.mpr (hspells.back hlast)
    have hne := hname name (List.mem_of_getLast? hlast)
    exact stops_of_prefix hsuffix (mt List.reverse_eq_nil_iff.mp hne) (stops_reverse_trim _)
  case notRoot =>
    intro hpath
    rw [hpath] at hspells
    have htrue := hspells.startsWithName
    rw [htrue] at hspells
    exact hroot (.inr hspells.eq_of_name)

/-! ## What is well formed is read -/

/-- The text of segments behind others. -/
def joined (segments : List Segment) : List Char :=
  segments.flatMap fun segment => segment.toText.toList

theorem joined_cons (segment : Segment) (segments : List Segment) :
    joined (segment :: segments) = segment.toText.toList ++ joined segments :=
  List.flatMap_cons

theorem toList_index (position : Nat) :
    (Segment.index position).toText.toList = '[' :: (Nat.toDigits 10 position ++ [']']) := by
  change ("[" ++ position.repr ++ "]").toList = _
  rw [String.toList_append, String.toList_append, Nat.toList_repr]
  rfl

theorem toList_key (key : String) :
    (Segment.key key).toText.toList = '[' :: (key.toList ++ [']']) := by
  rw [Segment.toText, String.toList_append, String.toList_append]
  rfl

theorem toList_field (name : String) : (Segment.field name).toText.toList = '.' :: name.toList := by
  rw [Segment.toText, String.toList_append]
  rfl

theorem spells_name (hname : (Segment.field name).WellFormed) (hrest : Spells false rest segments) :
    Spells true (name.toList ++ rest) (.field name :: segments) := by
  have hspells := Spells.name (mt String.toList_eq_nil_iff.mp hname.1)
    (fun c hc => by simp [isNameEnd, hname.2 c hc]) (fun hc => (hname.2 _ hc).2.2 rfl) hrest
  rwa [String.ofList_toList] at hspells

theorem spells_index {position : Nat} (h : (Segment.index position).WellFormed)
    (hrest : Spells false rest segments) (nameDue : Bool) :
    Spells nameDue ((Segment.index position).toText.toList ++ rest)
      (.index position :: segments) := by
  rw [toList_index, List.cons_append, List.append_assoc, List.singleton_append]
  refine .bracket Nat.toDigits_ne_nil (fun hclose => ?_) (bracketed_toDigits h) hrest
  have hdigit := Nat.isDigit_of_mem_toDigits (by decide) (by decide) hclose
  cases hdigit

theorem spells_key {key : String} (h : (Segment.key key).WellFormed)
    (hrest : Spells false rest segments) (nameDue : Bool) :
    Spells nameDue ((Segment.key key).toText.toList ++ rest) (.key key :: segments) := by
  have hsegment := bracketed_key h.2.2
  rw [String.ofList_toList] at hsegment
  rw [toList_key, List.cons_append, List.append_assoc, List.singleton_append]
  exact .bracket (mt String.toList_eq_nil_iff.mp h.1) h.2.1 hsegment hrest

theorem spells_joined (h : ∀ segment ∈ segments, segment.WellFormed) :
    Spells false (joined segments) segments := by
  induction segments with
  | nil => exact .nil _
  | cons segment segments ih =>
    obtain ⟨hsegment, hsegments⟩ := List.forall_mem_cons.mp h
    rw [joined_cons]
    cases segment with
    | field name =>
      have hspells := spells_name hsegment (ih hsegments)
      rw [toList_field, List.cons_append]
      refine .point (fun hnil => ?_) hspells
      exact hsegment.1 (String.toList_eq_nil_iff.mp (List.append_eq_nil_iff.mp hnil).1)
    | index position => exact spells_index hsegment (ih hsegments) false
    | key key => exact spells_key hsegment (ih hsegments) false

theorem toList_toText_field :
    (Path.mk (.field name :: segments)).toText.toList = name.toList ++ joined segments := by
  rw [toText, String.toList_append, String.toList_join, List.flatMap_map]
  rfl

/-- Behind a bracket in front, a path is written like the rest of one. -/
theorem toList_toText_of_ne {segment : Segment} (h : ∀ name, segment ≠ .field name) :
    (Path.mk (segment :: segments)).toText.toList = joined (segment :: segments) := by
  have htext : (Path.mk (segment :: segments)).toText =
      String.join ((segment :: segments).map Segment.toText) := by
    cases segment with
    | field name => exact absurd rfl (h name)
    | index | key => rfl
  rw [htext, String.toList_join, List.flatMap_map]
  rfl

/-- The text of well-formed segments spells them. -/
theorem spells_toText {path : Path} (hne : path.segments ≠ [])
    (h : ∀ segment ∈ path.segments, segment.WellFormed) :
    Spells (startsWithName path.toText.toList) path.toText.toList path.segments := by
  obtain ⟨segments⟩ := path
  obtain ⟨segment, segments, rfl⟩ := List.exists_cons_of_ne_nil hne
  obtain ⟨hsegment, hsegments⟩ := List.forall_mem_cons.mp h
  have hrest := spells_joined hsegments
  cases segment with
  | field name =>
    rw [toList_toText_field]
    have hstarts : startsWithName (name.toList ++ joined segments) = true := by
      obtain ⟨c, tail, hname⟩ :=
        List.exists_cons_of_ne_nil (mt String.toList_eq_nil_iff.mp hsegment.1)
      have hc := (hsegment.2 c (hname ▸ List.mem_cons_self)).2.1
      rw [hname, startsWithName, List.cons_append, List.head?_cons]
      simpa using hc
    rw [hstarts]
    exact spells_name hsegment hrest
  | index position =>
    rw [toList_toText_of_ne, joined_cons]
    · exact spells_index hsegment hrest _
    · rintro name ⟨⟩
  | key key =>
    rw [toList_toText_of_ne, joined_cons]
    · exact spells_key hsegment hrest _
    · rintro name ⟨⟩

/-! ## Ends of texts -/

theorem stops_append {p : Char → Bool} {front back : List Char} (hfront : Stops p front)
    (hback : front = [] → Stops p back) : Stops p (front ++ back) := by
  cases front with
  | nil => exact hback rfl
  | cons c front => exact stops_cons.mpr (stops_cons.mp hfront)

/-- Only a name at the end can bring white space there. -/
theorem Spells.stops_reverse (h : Spells nameDue text segments)
    (hback : ∀ name, segments.getLast? = some (.field name) → Stops isBlank name.toList.reverse) :
    Stops isBlank text.reverse := by
  -- What is last of the rest is last of all.
  have hlast {segment : Segment} {segments : List Segment}
      (hback : ∀ name, (segment :: segments).getLast? = some (.field name) →
        Stops isBlank name.toList.reverse) (name : String)
      (hname : segments.getLast? = some (.field name)) : Stops isBlank name.toList.reverse := by
    refine hback name ?_
    rw [List.getLast?_cons, hname]
    rfl
  induction h with
  | nil => exact nofun
  | @bracket nameDue content rest segment segments hne hclose hsegment hrest ih =>
    have htext : ('[' :: (content ++ ']' :: rest)).reverse =
        rest.reverse ++ ']' :: (content.reverse ++ ['[']) := by simp
    rw [htext]
    exact stops_append (ih (hlast hback)) fun _ => stops_cons.mpr rfl
  | point hne hrest ih =>
    rw [List.reverse_cons]
    exact stops_append (ih hback) fun hnil => absurd (List.reverse_eq_nil_iff.mp hnil) hne
  | @name name rest segments hne hname hclose hrest ih =>
    rw [List.reverse_append]
    refine stops_append (ih (hlast hback)) fun hnil => ?_
    rw [List.reverse_eq_nil_iff.mp hnil] at hrest
    rw [(Spells.nil false).unique hrest] at hback
    have hstops := hback _ rfl
    rwa [String.toList_ofList] at hstops

/-- Only a name at the front can bring white space there. -/
theorem Spells.stops (h : Spells (Path.startsWithName text) text segments)
    (hfront : ∀ name, segments.head? = some (.field name) → Stops isBlank name.toList) :
    Stops isBlank text := by
  generalize hstarts : Path.startsWithName text = starts at h
  cases h with
  | nil => exact nofun
  | bracket | point => exact stops_cons.mpr rfl
  | name hne hname hclose hrest =>
    have hstops := hfront _ rfl
    rw [String.toList_ofList] at hstops
    exact stops_append hstops fun hnil => absurd hnil hne

theorem parse_of_wellFormed {path : Path} (h : path.WellFormed) : parse path.toText = .ok path := by
  by_cases hne : path.segments = []
  · obtain ⟨segments⟩ := path
    cases hne
    decide +kernel
  have hspells := spells_toText hne h.segments
  have htrim := trim_of_stops (hspells.stops h.front) (hspells.stops_reverse h.back)
  refine parse_eq_ok_iff.mpr (.inr ?_)
  rw [htrim]
  refine ⟨?_, hspells⟩
  rintro (hnil | hroot)
  · rw [hnil] at hspells
    exact hne ((Spells.nil _).unique hspells)
  · rw [hroot] at hspells
    have hends : ∀ c ∈ rootText.toList, isNameEnd c = false := by
      have hnone : rootText.toList.any isNameEnd = false := by decide
      simpa using List.any_eq_false.mp hnone
    have hname := @Spells.name rootText.toList _ _ (by decide) hends (by decide) (.nil false)
    rw [List.append_nil, String.ofList_toList] at hname
    exact h.notRoot (hname.unique hspells)

/-! ## Canonical forms -/

theorem canonical_of_parse {path read : Path} (h : parse path.toText = .ok read) :
    path.canonical = read := by
  rw [canonical, h]

theorem canonical_of_wellFormed {path : Path} (h : path.WellFormed) : path.canonical = path :=
  canonical_of_parse (parse_of_wellFormed h)

theorem canonical_cases (path : Path) :
    parse path.toText = .ok path.canonical ∨ path.canonical = path := by
  rw [canonical]
  split
  next read hread => exact .inl hread
  next => exact .inr rfl

theorem canonical_canonical (path : Path) : path.canonical.canonical = path.canonical := by
  rcases path.canonical_cases with hread | hself
  · exact canonical_of_wellFormed (wellFormed_of_parse hread)
  · rw [hself, hself]

/-- A path is read back from its text exactly if it is well formed. Only well-formed paths are ever
read, so the canonical form of a path is its own. -/
theorem wellFormed_iff_parse_toText :
    (∀ path : Path, path.WellFormed ↔ parse path.toText = .ok path) ∧
      (∀ text path, parse text = .ok path → path.WellFormed) ∧
      ∀ path : Path, path.canonical.canonical = path.canonical := by
  exact ⟨fun path => ⟨parse_of_wellFormed, wellFormed_of_parse⟩,
    fun text path => wellFormed_of_parse, canonical_canonical⟩

theorem wellFormed_iff_parse_toText_ports :
    parse " spec.[00][name=a b].ports " =
        .ok ⟨[.field "spec", .index 0, .key "name=a b", .field "ports"]⟩ ∧
      (Path.mk [.field "spec", .index 0, .key "name=a b", .field "ports"]).WellFormed := by
  have hread : parse " spec.[00][name=a b].ports " =
      .ok ⟨[.field "spec", .index 0, .key "name=a b", .field "ports"]⟩ := by
    decide +kernel
  exact ⟨hread, wellFormed_iff_parse_toText.2.1 _ _ hread⟩

end Path

end TaggedSchema
