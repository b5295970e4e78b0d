import Mathlib.Data.List.Pairwise
import TaggedSchema.Proofs.Schema.Places
import TaggedSchema.Proofs.Validation.Fields
import TaggedSchema.Schema.Compile

/-!
# Elements that move

An element of a list that is identified by its value or by key fields is compared with the element
of the earlier list that it is a version of, wherever in the list that one has been. So an element
that has only moved is not looked at again, and on update nothing is reported at it but that it
repeats another one.
-/

namespace TaggedSchema

theorem sameKeys_symm {keys : List String} {a b : Value} (h : sameKeys keys a b = true) :
    sameKeys keys b a = true := by
  rw [sameKeys, List.all_eq_true] at h ⊢
  exact fun key hkey => Value.beq_symm (h key hkey)

theorem sameKeys_trans {keys : List String} {a b c : Value} (hab : sameKeys keys a b = true)
    (hbc : sameKeys keys b c = true) : sameKeys keys a c = true := by
  rw [sameKeys, List.all_eq_true] at hab hbc ⊢
  exact fun key hkey => Value.beq_trans (hab key hkey) (hbc key hkey)

theorem sameKeys_of_beq {a b : Value} (h : a == b) (keys : List String) :
    sameKeys keys a b = true :=
  List.all_eq_true.mpr fun key _ => Value.member_beq h key

namespace ListSemantics

/-- An element is equal to one of the earlier elements. If elements have key fields, those of the
earlier elements differ, and no other element has the identity of this one. -/
structure Recognizes (semantics : ListSemantics) (items earlier : List Value) (position : Nat)
    (item : Value) : Prop where
  here : items[position]? = some item
  known : ∃ old ∈ earlier, item == old
  identified : semantics.identity ≠ .positional
  distinct : semantics.identity = .keys →
    earlier.Pairwise fun a b => sameKeys semantics.keys a b = false
  alone : semantics.identity = .keys → ∀ other ∈ items.zipIdx,
    keyIdentity? semantics.keys other.1 = keyIdentity? semantics.keys item → other.2 = position

variable {semantics : ListSemantics} {items earlier : List Value} {position : Nat} {item : Value}

/-- Of earlier elements with different keys, the one with the keys of an element is the one that is
equal to it. -/
theorem find?_sameKeys {old : Value}
    (hdistinct : earlier.Pairwise fun a b => sameKeys semantics.keys a b = false)
    (hold : old ∈ earlier) (hsame : item == old) :
    (earlier.find? fun other => sameKeys semantics.keys other item) = some old := by
  have hkeys : sameKeys semantics.keys old item = true :=
    sameKeys_of_beq (Value.beq_symm hsame) semantics.keys
  obtain ⟨found, hfound⟩ : ∃ found,
      (earlier.find? fun other => sameKeys semantics.keys other item) = some found :=
    Option.isSome_iff_exists.mp (List.find?_isSome.mpr ⟨old, hold, hkeys⟩)
  have hfoundKeys := List.find?_some hfound
  have hsymm : Std.Symm fun a b => sameKeys semantics.keys a b = false :=
    ⟨fun a b hne => Bool.eq_false_iff.mpr fun h => Bool.eq_false_iff.mp hne (sameKeys_symm h)⟩
  rw [hfound]
  by_contra hne
  have hdiffer := hdistinct.forall (List.mem_of_find?_eq_some hfound) hold
    fun heq => hne (congrArg some heq)
  rw [sameKeys_trans hfoundKeys (sameKeys_symm hkeys)] at hdiffer
  cases hdiffer

/-- The element is compared with an equal one. -/
theorem Recognizes.counterpart? (h : semantics.Recognizes items earlier position item) :
    ∃ old, semantics.counterpart? earlier item = some old ∧ item == old := by
  obtain ⟨old, hold, hsame⟩ := h.known
  rw [ListSemantics.counterpart?]
  cases hidentity : semantics.identity with
  | positional => exact absurd hidentity h.identified
  | value =>
    obtain ⟨found, hfound⟩ : ∃ found, (earlier.find? fun other => other == item) = some found :=
      Option.isSome_iff_exists.mp (List.find?_isSome.mpr ⟨old, hold, Value.beq_symm hsame⟩)
    have hequal := List.find?_some hfound
    exact ⟨found, hfound, Value.beq_symm hequal⟩
  | keys => exact ⟨old, find?_sameKeys (h.distinct hidentity) hold hsame, hsame⟩

/-- No other element has its address. -/
theorem Recognizes.position_unique (h : semantics.Recognizes items earlier position item)
    {list : Path} {other : Nat} {otherItem : Value} (hother : items[other]? = some otherItem)
    (hpath : semantics.elementPath list other otherItem =
      semantics.elementPath list position item) : other = position := by
  have hindex (a b : Nat) (hindex : list.index a = list.index b) : a = b := by
    simpa [Path.index, Path.extend] using hindex
  have hkey (a b : String) (hkey : list.key a = list.key b) : a = b := by
    simpa [Path.key, Path.extend] using hkey
  rw [elementPath, elementPath] at hpath
  cases hidentity : semantics.identity with
  | positional => exact absurd hidentity h.identified
  | value =>
    simp only [hidentity] at hpath
    exact hindex _ _ hpath
  | keys =>
    simp only [hidentity] at hpath
    cases hitem : keyIdentity? semantics.keys item <;>
      cases hitem' : keyIdentity? semantics.keys otherItem <;>
      simp only [hitem, hitem'] at hpath
    · exact hindex _ _ hpath
    · simp [Path.key, Path.index, Path.extend] at hpath
    · simp [Path.key, Path.index, Path.extend] at hpath
    · have hmem : (otherItem, other) ∈ items.zipIdx := List.mem_zipIdx_iff_getElem?.mpr hother
      exact h.alone hidentity _ hmem (by rw [hitem, hitem', hkey _ _ hpath])

end ListSemantics

namespace Rule

/-- Whether the rule is on a single item of a list. -/
def isOnItem : Rule → Bool
  | within (.item _) _ _ => true
  | _ => false

/-- The rule inside a rule on the subfield with this name. -/
def onSubfield? (jsonName : String) : Rule → Option Rule
  | within (.subfield name) inner _ => if name = jsonName then some inner else none
  | _ => none

end Rule

namespace Context

variable {c : Context} {site : Site} {violation : Violation}

/-- The walk at an element that has only moved finds nothing. -/
theorem walk_moved {semantics : ListSemantics} {items earlier : List Value} {position : Nat}
    {item : Value} (hold : site.old = some (.array earlier))
    (hmoved : semantics.Recognizes items earlier position item) (element : Plan)
    (rules : List Rule) :
    c.walk item (site.element element semantics rules position item) = [] := by
  obtain ⟨old, hcounterpart, hsame⟩ := hmoved.counterpart?
  have hinner : (site.element element semantics rules position item).old = some old := by
    rw [Site.element, Site.inner, hold]
    exact hcounterpart
  have hunchanged : (site.element element semantics rules position item).isUnchanged item =
      true := by
    rw [Site.isUnchanged, hinner]
    exact hsame
  exact (Course.unchanged hunchanged).walk_eq

/-- At an element that has only moved, the walk over the list finds at most that it is repeated. -/
theorem kind_of_mem_walk_moved {semantics : ListSemantics} {items earlier : List Value}
    {position : Nat} {item : Value} (hsemantics : site.plan.semantics? = some semantics)
    (hnoItems : ∀ rule ∈ c.rulesAt site, rule.isOnItem = false)
    (hold : site.old = some (.array earlier))
    (hmoved : semantics.Recognizes items earlier position item)
    (h : violation ∈ c.walk (.array items) site)
    (hunder : (semantics.elementPath site.path position item).segments <+:
      violation.path.segments) : violation.kind = .duplicate := by
  obtain ⟨access, element, hplan⟩ := Plan.semantics?_eq_some_iff.mp hsemantics
  obtain ⟨segment, hextend, -⟩ := semantics.elementPath_extend site.path position item
  rw [hextend] at hunder
  -- A path that ends at the list is too short.
  have helsewhere (hpath : violation.path = site.path) : violation.kind = .duplicate :=
    absurd (hpath ▸ hunder) (site.path.not_under_extend segment)
  rcases mem_walk h with ⟨-, hat | hhere | ⟨inner, innerSite, hleads, hinner⟩⟩
  · exact helsewhere hat.path
  · cases hhere with
    | breach hrule hbreach heq =>
      apply helsewhere
      rw [heq, Violation.nativeIf_path, (Constraint.isAt_of_breach? hbreach).path]
    | repeated hdeep hplan' hitems hunique hfound heq =>
      obtain ⟨otherPosition, other, hduplicate⟩ := ListSemantics.eq_duplicate_of_mem hfound
      rw [heq, Violation.nativeIf_kind, hduplicate]
      rfl
    | union hdeep hplan' => cases hplan.symm.trans hplan'
  · cases hleads with
    | subfield hplan' | field hdeep hplan' | entry hdeep hplan' | key hdeep hplan' =>
      cases hplan.symm.trans hplan'
    | item hplan' hitems hrule => cases hnoItems _ hrule
    | @element access' element' semantics' items' other otherPosition hdeep hplan' hitems hother =>
      cases hplan.symm.trans hplan'
      cases hitems
      -- The element at which the violation is found is the one that has moved.
      have hpath : semantics.elementPath site.path otherPosition inner =
          semantics.elementPath site.path position item := by
        obtain ⟨segment', hextend', -⟩ :=
          semantics.elementPath_extend site.path otherPosition inner
        have hprefix := walk_under hinner
        rw [Site.element, Site.inner, hextend'] at hprefix
        rw [hextend', hextend, segment_unique hunder hprefix]
      have hposition := hmoved.position_unique hother hpath
      subst hposition
      cases hmoved.here.symm.trans hother
      rw [walk_moved hold hmoved] at hinner
      cases hinner

/-- The active rules at a field of a struct: those of the field, those of the types that its plan
names, and those that the rules of the struct contain for the field. -/
def activeFieldRules (c : Context) (structRules : List Rule) (field : CompiledField) : List Rule :=
  activeRules c.gates field.rules ++ c.lentRules field.plan.access.named ++
    activeRules c.gates (structRules.filterMap (Rule.onSubfield? field.jsonName))

/-- A field of a struct with these rules is a list with these semantics, and no rule is on a single
item of it. -/
structure IsListField (c : Context) (structRules : List Rule) (semantics : ListSemantics)
    (field : CompiledField) : Prop where
  semantics : field.plan.semantics? = some semantics
  noItems : ∀ rule ∈ c.activeFieldRules structRules field, rule.isOnItem = false

instance (structRules : List Rule) (semantics : ListSemantics) (field : CompiledField) :
    Decidable (c.IsListField structRules semantics field) :=
  decidable_of_iff (field.plan.semantics? = some semantics ∧
      ∀ rule ∈ c.activeFieldRules structRules field, rule.isOnItem = false)
    ⟨fun ⟨hsemantics, hnoItems⟩ => ⟨hsemantics, hnoItems⟩,
    fun h => ⟨h.semantics, h.noItems⟩⟩

section

variable {structRules : List Rule} {semantics : ListSemantics} {field : CompiledField}
  {inner rule : Rule}

theorem IsListField.noItems_field (h : c.IsListField structRules semantics field)
    {isShallow : Bool} (hrule : rule ∈ c.rulesAt (site.field field field.rules isShallow)) :
    rule.isOnItem = false := by
  refine h.noItems rule (List.mem_append_left _ ?_)
  rw [rulesAt] at hrule
  split at hrule
  · exact List.mem_append_left _ hrule
  · exact hrule

theorem IsListField.noItems_subfield (h : c.IsListField structRules semantics field) {tag : String}
    (hinner : .within (.subfield field.jsonName) inner tag ∈ structRules)
    (hrule : rule ∈ c.rulesAt (site.field field [inner] true)) : rule.isOnItem = false := by
  refine h.noItems rule (List.mem_append_right _ ?_)
  obtain ⟨given, hgiven, hactive⟩ := List.mem_filterMap.mp hrule
  rw [List.mem_singleton.mp hgiven] at hactive
  refine List.mem_filterMap.mpr ⟨inner, List.mem_filterMap.mpr ⟨_, hinner, ?_⟩, hactive⟩
  rw [Rule.onSubfield?, if_pos rfl]

end

section

variable {access : Access} {type jsonName : String} {body : CompiledStruct}
  {semantics : ListSemantics} {value old : Value} {items earlier : List Value} {position : Nat}
  {item : Value}

variable (hlists : ∀ field ∈ body.fields, field.jsonName = jsonName →
    c.IsListField (c.rulesAt site) semantics field)
  (hnew : value.member jsonName = .array items) (hexisting : site.existing = some old)
  (hold : old.member jsonName = .array earlier)
  (hmoved : semantics.Recognizes items earlier position item)
  (hunder : (semantics.elementPath (site.path.field jsonName) position item).segments <+:
    violation.path.segments)

include hlists hnew hexisting hold hmoved hunder

theorem kind_of_mem_walk_field {field : CompiledField} {rules : List Rule} {isShallow : Bool}
    (hmem : field ∈ body.fields) (hname : field.jsonName = jsonName)
    (hrules : ∀ rule ∈ c.rulesAt (site.field field rules isShallow), rule.isOnItem = false)
    (h : violation ∈ c.walk (value.member jsonName) (site.field field rules isShallow)) :
    violation.kind = .duplicate := by
  rw [hnew] at h
  have hsemantics := (hlists field hmem hname).semantics
  subst hname
  refine kind_of_mem_walk_moved hsemantics hrules ?_ hmoved h hunder
  rw [Site.field, hexisting, Option.map_some, hold]

/-- Both ways into a field, through a rule of the struct and through the field itself, lead to a
list with the earlier list at its side. -/
theorem LeadsTo.kind_of_moved {inner : Value} {innerSite : Site}
    (hleads : c.LeadsTo value site inner innerSite) (hplan : site.plan = .struct access type)
    (hbody : c.schema.struct? type = some body) (hinner : violation ∈ c.walk inner innerSite) :
    violation.kind = .duplicate := by
  obtain ⟨segment, hextend, -⟩ :=
    semantics.elementPath_extend (site.path.field jsonName) position item
  have hfield : (site.path.field jsonName).segments <+: violation.path.segments :=
    (List.prefix_append _ _).trans (hextend ▸ hunder)
  have hsegment := walk_under hinner
  cases hleads with
  | @subfield _ type' subfield tag body' field rule hplan' hobject hbody' hget hrule =>
    cases hplan.symm.trans hplan'
    cases hbody.symm.trans hbody'
    have hname : field.jsonName = subfield := CompiledStruct.jsonName_of_field? hget
    have hmem : field ∈ body.fields := List.mem_of_find?_eq_some hget
    subst hname
    cases segment_unique hfield hsegment
    exact kind_of_mem_walk_field hlists hnew hexisting hold hmoved hunder hmem rfl
      (fun _ => (hlists field hmem rfl).noItems_subfield hrule) hinner
  | @field _ type' body' field hdeep hplan' hobject hbody' hmem =>
    cases hplan.symm.trans hplan'
    cases hbody.symm.trans hbody'
    cases segment_unique hfield hsegment
    exact kind_of_mem_walk_field hlists hnew hexisting hold hmoved hunder hmem rfl
      (fun _ => (hlists field hmem rfl).noItems_field) hinner
  | item hplan' | element hdeep hplan' | entry hdeep hplan' | key hdeep hplan' =>
    cases hplan.symm.trans hplan'

/-- What the walk over a struct finds at an element that has only moved is found by the walk over
the list or by a union. -/
theorem kind_or_origin_of_moved (hplan : site.plan = .struct access type)
    (hbody : c.schema.struct? type = some body) (h : violation ∈ c.walk value site) :
    violation.kind = .duplicate ∨ violation.origin = "union" := by
  obtain ⟨segment, hextend, -⟩ :=
    semantics.elementPath_extend (site.path.field jsonName) position item
  -- A path that ends at the struct is too short.
  have helsewhere (hpath : violation.path = site.path) :
      violation.kind = .duplicate ∨ violation.origin = "union" :=
    absurd ((List.prefix_append _ _).trans (hextend ▸ hunder)) (not_under_field hpath)
  rcases mem_walk h with ⟨-, hat | hhere | ⟨inner, innerSite, hleads, hinner⟩⟩
  · exact helsewhere hat.path
  · cases hhere with
    | breach hrule hbreach heq =>
      apply helsewhere
      rw [heq, Violation.nativeIf_path, (Constraint.isAt_of_breach? hbreach).path]
    | repeated hdeep hplan' => cases hplan.symm.trans hplan'
    | union hdeep hplan' hobject hbody' hfound heq =>
      rcases CompiledStruct.mem_unionViolations hfound with hat | ⟨horigin, -⟩
      · apply helsewhere
        rw [heq, Violation.nativeIf_path, hat.path]
      · rw [heq, Violation.nativeIf_origin]
        exact .inr horigin
  · exact .inl (hleads.kind_of_moved hlists hnew hexisting hold hmoved hunder hplan hbody hinner)

end

end Context

/-- On update nothing is reported at an element that has only moved, or inside it, but that it
repeats another one, or by a union. All fields that bear the name of the list have to be lists of
this kind. -/
theorem validate_update_moved {c : Context} {name : String} {body : CompiledStruct}
    (hbody : c.schema.struct? name = some body) {jsonName : String} {semantics : ListSemantics}
    (hlists : ∀ field ∈ body.fields, field.jsonName = jsonName →
      c.IsListField (c.lentRules [name]) semantics field)
    {new old : Value} {items earlier : List Value} (hnew : new.member jsonName = .array items)
    (hold : old.member jsonName = .array earlier) {position : Nat} {item : Value}
    (hmoved : semantics.Recognizes items earlier position item) :
    ∃ violations, validate c.schema name c.gates new (some old) = .ok violations ∧
      ∀ violation ∈ violations,
        violation.path.startsWith
            (semantics.elementPath (Path.root.field jsonName) position item) = true →
          violation.kind = .duplicate ∨ violation.origin = "union" := by
  have hobject : old.isObject = true := by
    cases old with
    | object members => rfl
    | _ => cases hold
  refine ⟨_, Schema.validate_of_struct? hbody c.gates new (some old), ?_⟩
  intro violation hviolation hunder
  exact Context.kind_or_origin_of_moved hlists hnew (Context.existing_root hobject) hold hmoved
    (Path.startsWith_iff.mp hunder) rfl hbody hviolation

/-- The books on a shelf have short titles and are told apart by their numbers. -/
def shelfTypes : Universe := Catalog.ofList
  [⟨"Book", [], .struct
    [⟨"Number", none, .scalar .string, []⟩,
      ⟨"Title", none, .scalar .string, ["+k8s:maxLength=3"]⟩]⟩,
    ⟨"Shelf", [], .struct
      [⟨"Books", none, .slice (.named "Book"), ["+k8s:listType=map", "+k8s:listMapKey=number"]⟩]⟩]

def shelfContext : Context := ⟨(compile shelfTypes .default).schema, fun _ => false⟩

/-- What the books are told apart by. -/
def byNumber : ListSemantics := ⟨.map, ["number"], none, false⟩

def bookOf (number title : String) : Value :=
  .ofMembers [("number", .string number), ("title", .string title)]

def earlierBooks : List Value := [bookOf "1" "long", bookOf "3" "b"]

def laterBooks : List Value := [bookOf "2" "long", bookOf "1" "long"]

def shelfOf (books : List Value) : Value := .ofMembers [("books", .array books)]

/-- A new book has been put in front of one whose title has been too long before. Only the title of
the new one is reported. -/
theorem validate_update_moved_shelf :
    ∃ body, shelfContext.schema.struct? "Shelf" = some body ∧
      (∀ field ∈ body.fields, field.jsonName = "books" →
        shelfContext.IsListField (shelfContext.lentRules ["Shelf"]) byNumber field) ∧
      byNumber.Recognizes laterBooks earlierBooks 1 (bookOf "1" "long") ∧
      ∃ violations, violations.length = 1 ∧
        validate shelfContext.schema "Shelf" shelfContext.gates (shelfOf laterBooks)
          (some (shelfOf earlierBooks)) = .ok violations ∧
        ∀ violation ∈ violations,
          violation.path.startsWith
              (byNumber.elementPath (Path.root.field "books") 1 (bookOf "1" "long")) = true →
            violation.kind = .duplicate ∨ violation.origin = "union" := by
  have hcompiled : (shelfContext.schema.struct? "Shelf").any (fun body =>
      ∀ field ∈ body.fields, field.jsonName = "books" →
        shelfContext.IsListField (shelfContext.lentRules ["Shelf"]) byNumber field) = true := by
    decide +kernel
  obtain ⟨body, hbody, hlists⟩ := (Option.any_eq_true _ _).mp hcompiled
  have hlists := of_decide_eq_true hlists
  have hmoved : byNumber.Recognizes laterBooks earlierBooks 1 (bookOf "1" "long") :=
    ⟨rfl, by decide +kernel, by decide, fun _ => by decide +kernel, fun _ => by decide +kernel⟩
  have hnew : (shelfOf laterBooks).member "books" = .array laterBooks := rfl
  have hold : (shelfOf earlierBooks).member "books" = .array earlierBooks := rfl
  obtain ⟨violations, hvalidate, hfound⟩ := validate_update_moved hbody hlists hnew hold hmoved
  have hlength : (validate shelfContext.schema "Shelf" shelfContext.gates (shelfOf laterBooks)
      (some (shelfOf earlierBooks))).toOption.map List.length = some 1 := by
    decide +kernel
  rw [hvalidate] at hlength
  exact ⟨body, hbody, hlists, hmoved, violations, Option.some.inj hlength, hvalidate, hfound⟩

/-- Two fields of a struct bear one name, and only the first one has elements that are told
apart. -/
def rosterTypes : Universe := Catalog.ofList
  [⟨"Roster", [], .struct
    [⟨"Names", some "names", .slice (.scalar .string), ["+k8s:listType=set"]⟩,
      ⟨"Lines", some "names", .slice (.scalar .string), ["+k8s:eachVal=+k8s:maxLength=1"]⟩]⟩]

def rosterContext : Context := ⟨(compile rosterTypes .default).schema, fun _ => false⟩

/-- What the names are told apart by. -/
def byValue : ListSemantics := ⟨.set, [], none, false⟩

def rosterOf (names : List Value) : Value := .ofMembers [("names", .array names)]

/-- It is not enough that one of the fields with the name of a list is such a list. The other one
has no earlier version of an element that has moved, and reports it again. -/
theorem validate_update_moved_shared_name :
    ∃ body, rosterContext.schema.struct? "Roster" = some body ∧
      (∃ field ∈ body.fields, field.jsonName = "names" ∧ field.isOpaque = false ∧
        rosterContext.IsListField (rosterContext.lentRules ["Roster"]) byValue field) ∧
      byValue.Recognizes [.string "a", .string "long"] [.string "long"] 1 (.string "long") ∧
      ∃ violations,
        validate rosterContext.schema "Roster" rosterContext.gates
          (rosterOf [.string "a", .string "long"]) (some (rosterOf [.string "long"])) =
            .ok violations ∧
        ¬ ∀ violation ∈ violations,
          violation.path.startsWith
              (byValue.elementPath (Path.root.field "names") 1 (.string "long")) = true →
            violation.kind = .duplicate ∨ violation.origin = "union" := by
  have hcompiled : (rosterContext.schema.struct? "Roster").any (fun body =>
      ∃ field ∈ body.fields, field.jsonName = "names" ∧ field.isOpaque = false ∧
        rosterContext.IsListField (rosterContext.lentRules ["Roster"]) byValue field) = true := by
    decide +kernel
  obtain ⟨body, hbody, hlist⟩ := (Option.any_eq_true _ _).mp hcompiled
  have hmoved : byValue.Recognizes [.string "a", .string "long"] [.string "long"] 1
      (.string "long") :=
    ⟨rfl, by decide +kernel, by decide, nofun, nofun⟩
  have hreported : (validate rosterContext.schema "Roster" rosterContext.gates
      (rosterOf [.string "a", .string "long"])
      (some (rosterOf [.string "long"]))).toOption.any (fun violations =>
        ¬ ∀ violation ∈ violations,
          violation.path.startsWith
              (byValue.elementPath (Path.root.field "names") 1 (.string "long")) = true →
            violation.kind = .duplicate ∨ violation.origin = "union") = true := by
    decide +kernel
  obtain ⟨violations, hvalidate, hreported⟩ := (Option.any_eq_true _ _).mp hreported
  exact ⟨body, hbody, of_decide_eq_true hlist, hmoved, violations,
    toOption_eq_some_iff.mp hvalidate, of_decide_eq_true hreported⟩

end TaggedSchema
