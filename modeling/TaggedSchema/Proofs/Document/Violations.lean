import TaggedSchema.Document.Definitions
import TaggedSchema.Document.Records
import TaggedSchema.Proofs.Document.Data
import TaggedSchema.Proofs.Path.WellFormed
import TaggedSchema.Proofs.Results

/-!
# Violations through JSON

A violation is written with the text of its path, and read back if that text spells a path. What
it loses on the way is what its path loses, and a value that is null.
-/

namespace TaggedSchema

open Document

namespace Violation

/-- What is left of a violation that has been written and read back. -/
def settled (violation : Violation) : Violation :=
  { violation with
    path := violation.path.canonical
    badValue := violation.badValue.filter (!·.isNull) }

/-- The members of a violation as JSON data, in the order in which they are written. -/
def dataMembers (violation : Violation) : List (String × Value) :=
  [("path", .string violation.path.toText), ("kind", .string violation.kind.name)] ++
    (violation.badValue.map ("bad_value", ·)).toList ++
    [("detail", .string violation.detail), ("origin", .string violation.origin),
      ("covered_by_declarative", .bool violation.covered),
      ("declarative_native", .bool violation.native)]

def data (violation : Violation) : Value := .ofMembers violation.dataMembers

/-- The value of a violation is proper JSON data, whose objects have their members in name order. -/
def BadValueCanonical (violation : Violation) : Prop :=
  ∀ value, violation.badValue = some value → value.Canonical

variable {violation : Violation}

theorem toDocument_eq (violation : Violation) :
    violation.toDocument = table (ofMembers violation.dataMembers) := by
  rw [toDocument, dataMembers]
  cases violation.badValue <;> rfl

theorem distinct_dataMembers (violation : Violation) :
    (violation.dataMembers.map Prod.fst).Nodup := by
  rw [dataMembers]
  cases violation.badValue with
  | none =>
    change ["path", "kind", "detail", "origin", "covered_by_declarative",
      "declarative_native"].Nodup
    decide
  | some value =>
    change ["path", "kind", "bad_value", "detail", "origin", "covered_by_declarative",
      "declarative_native"].Nodup
    decide

theorem canonical_of_mem_dataMembers (h : violation.BadValueCanonical) {entry : String × Value}
    (hentry : entry ∈ violation.dataMembers) : entry.2.Canonical := by
  simp only [dataMembers, List.mem_append, List.mem_cons, List.not_mem_nil, or_false,
    Option.mem_toList, Option.map_eq_some_iff] at hentry
  rcases hentry with ((rfl | rfl) | ⟨value, hvalue, rfl⟩) | rfl | rfl | rfl | rfl
  case inl.inr => exact h value hvalue
  all_goals exact trivial

theorem value?_toDocument (h : violation.BadValueCanonical) :
    violation.toDocument.value? = some violation.data := by
  rw [toDocument_eq, value?_table fun entry => canonical_of_mem_dataMembers h, data]

theorem ofValue_data (violation : Violation) :
    ∃ entries, ofValue violation.data = table entries ∧
      entries.Perm (ofMembers violation.dataMembers) :=
  ⟨_, rfl, ofMembers_perm (Catalog.ofEntries_perm violation.distinct_dataMembers)⟩

/-! ## Reading one violation -/

theorem ofDocument?_kind (kind : ViolationKind) :
    ViolationKind.ofDocument? (text kind.name) = some kind := by
  cases kind <;> rfl

section Members

variable {entries : List (String × Document)}
  (hentries : entries.Perm (ofMembers violation.dataMembers))

include hentries

theorem names_perm : (entries.map Prod.fst).Perm (violation.dataMembers.map Prod.fst) := by
  refine (hentries.map Prod.fst).trans (.of_eq ?_)
  rw [ofMembers_eq_map, List.map_map]
  rfl

theorem member?_eq {α : Type} {name : String} {value : Value}
    (hmem : (name, value) ∈ violation.dataMembers) (absent : Option α)
    (read : Document → Option α) : member? entries name absent read = read (ofValue value) := by
  refine member?_of_mem ((names_perm hentries).nodup_iff.mpr violation.distinct_dataMembers) ?_
  rw [hentries.mem_iff, ofMembers_eq_map]
  exact List.mem_map_of_mem hmem

theorem member?_badValue (h : violation.BadValueCanonical) :
    member? entries "bad_value" (some none) (optional? value?) =
      some (violation.badValue.filter (!·.isNull)) := by
  cases hvalue : violation.badValue with
  | none =>
    refine member?_of_forall_ne fun entry hentry hname => ?_
    have hmem := (names_perm hentries).mem_iff.mp (List.mem_map_of_mem hentry)
    rw [hname, dataMembers, hvalue] at hmem
    revert hmem
    change "bad_value" ∉ ["path", "kind", "detail", "origin", "covered_by_declarative",
      "declarative_native"]
    decide
  | some value =>
    have hmem : ("bad_value", value) ∈ violation.dataMembers := by simp [dataMembers, hvalue]
    rw [member?_eq hentries hmem]
    exact optional?_value? (h value hvalue)

/-- A violation is read from its members in any order, as far as its path is. -/
theorem ofDocument?_eq (h : violation.BadValueCanonical) :
    ofDocument? (table entries) =
      (Path.parse violation.path.toText).toOption.map fun path =>
        { violation.settled with path } := by
  have hpath : ("path", .string violation.path.toText) ∈ violation.dataMembers := by
    simp [dataMembers]
  have hkind : ("kind", .string violation.kind.name) ∈ violation.dataMembers := by
    simp [dataMembers]
  have hdetail : ("detail", .string violation.detail) ∈ violation.dataMembers := by
    simp [dataMembers]
  have horigin : ("origin", .string violation.origin) ∈ violation.dataMembers := by
    simp [dataMembers]
  have hcovered : ("covered_by_declarative", .bool violation.covered) ∈ violation.dataMembers := by
    simp [dataMembers]
  have hnative : ("declarative_native", .bool violation.native) ∈ violation.dataMembers := by
    simp [dataMembers]
  rw [ofDocument?]
  simp only [record?, entries?, Option.bind_eq_bind, Option.bind_some, member?_eq hentries hpath,
    member?_eq hentries hkind, member?_badValue hentries h, member?_eq hentries hdetail,
    member?_eq hentries horigin, member?_eq hentries hcovered, member?_eq hentries hnative,
    ofValue, ofDocument?_kind, Path.ofDocument?, text?, bool?]
  cases Path.parse violation.path.toText <;> rfl

end Members

/-- Reading a violation succeeds if the text of its path spells a path, and yields what is left of
it. -/
theorem ofDocument?_eq_some_iff (h : violation.BadValueCanonical) {document : Document}
    (hdocument : document = violation.toDocument ∨ document = ofValue violation.data)
    {read : Violation} :
    ofDocument? document = some read ↔
      (∃ path, Path.parse violation.path.toText = .ok path) ∧ read = violation.settled := by
  obtain ⟨entries, rfl, hentries⟩ : ∃ entries, document = table entries ∧
      entries.Perm (ofMembers violation.dataMembers) := by
    rcases hdocument with rfl | rfl
    · exact ⟨_, toDocument_eq violation, .refl _⟩
    · exact ofValue_data violation
  rw [ofDocument?_eq hentries h, Option.map_eq_some_iff]
  simp only [toOption_eq_some_iff]
  constructor
  · rintro ⟨path, hread, rfl⟩
    rw [← Path.canonical_of_parse hread]
    exact ⟨⟨path, hread⟩, rfl⟩
  · rintro ⟨⟨path, hread⟩, rfl⟩
    refine ⟨path, hread, ?_⟩
    rw [← Path.canonical_of_parse hread]
    rfl

/-! ## What is left of a violation -/

theorem badValueCanonical_settled (h : violation.BadValueCanonical) :
    violation.settled.BadValueCanonical :=
  fun value hvalue => h value (Option.eq_some_of_filter_eq_some hvalue)

theorem settled_settled (violation : Violation) :
    violation.settled.settled = violation.settled := by
  rw [settled, settled, Path.canonical_canonical, Option.filter_filter]
  simp only [Bool.and_self]

theorem parse_settled {path : Path} (h : Path.parse violation.path.toText = .ok path) :
    Path.parse violation.settled.path.toText = .ok violation.settled.path := by
  have hsettled : violation.settled.path = path := Path.canonical_of_parse h
  rw [hsettled]
  exact Path.parse_of_wellFormed (Path.wellFormed_of_parse h)

end Violation

/-! ## Reading a list of violations -/

/-- A list of violations as JSON data. -/
def violationsData (violations : List Violation) : Value := .array (violations.map Violation.data)

/-- The two forms of a list of violations in JSON: as it is written, and as the data that this
denotes, in which the members of each record stand in name order. -/
def violationsForms (violations : List Violation) : List Document :=
  [violationsDocument violations, ofValue (violationsData violations)]

variable {violations : List Violation}

theorem value?_violationsDocument (h : ∀ violation ∈ violations, violation.BadValueCanonical) :
    (violationsDocument violations).value? = some (violationsData violations) := by
  have hitems : valueItems? (violations.map Violation.toDocument) =
      some (violations.map Violation.data) := by
    induction violations with
    | nil => rfl
    | cons violation violations ih =>
      obtain ⟨hviolation, hviolations⟩ := List.forall_mem_cons.mp h
      rw [List.map_cons, valueItems?, Violation.value?_toDocument hviolation, ih hviolations]
      rfl
  rw [violationsDocument, value?, hitems]
  rfl

theorem exists_of_mem_violationsForms {document : Document}
    (h : document ∈ violationsForms violations) :
    ∃ write : Violation → Document, document = list (violations.map write) ∧
      ∀ violation, write violation = violation.toDocument ∨
        write violation = ofValue violation.data := by
  rw [violationsForms, List.mem_pair] at h
  rcases h with rfl | rfl
  · exact ⟨Violation.toDocument, rfl, fun _ => .inl rfl⟩
  · refine ⟨fun violation => ofValue violation.data, ?_, fun _ => .inr rfl⟩
    rw [violationsData, ofValue, ofItems_eq_map, List.map_map]
    rfl

/-- A list is read from either form exactly if the text of every path spells a path, and then what
is left of each violation stands in its place. -/
theorem violationsOfDocument?_eq_some_iff
    (h : ∀ violation ∈ violations, violation.BadValueCanonical) {document : Document}
    (hdocument : document ∈ violationsForms violations) {read : List Violation} :
    violationsOfDocument? document = some read ↔
      (∀ violation ∈ violations, ∃ path, Path.parse violation.path.toText = .ok path) ∧
        read = violations.map Violation.settled := by
  obtain ⟨write, rfl, hwrite⟩ := exists_of_mem_violationsForms hdocument
  clear hdocument
  change (violations.map write).mapM Violation.ofDocument? = some read ↔ _
  induction violations generalizing read with
  | nil => simp [eq_comm]
  | cons violation violations ih =>
    obtain ⟨hviolation, hviolations⟩ := List.forall_mem_cons.mp h
    have hfirst := @Violation.ofDocument?_eq_some_iff _ hviolation _ (hwrite violation)
    rw [List.map_cons, List.mapM_cons, List.forall_mem_cons, List.map_cons]
    simp only [Option.bind_eq_bind, Option.bind_eq_some_iff, hfirst, ih hviolations,
      Option.pure_def, Option.some_inj]
    constructor
    · rintro ⟨_, ⟨hpath, rfl⟩, _, ⟨hpaths, rfl⟩, rfl⟩
      exact ⟨⟨hpath, hpaths⟩, rfl⟩
    · rintro ⟨⟨hpath, hpaths⟩, rfl⟩
      exact ⟨_, ⟨hpath, rfl⟩, _, ⟨hpaths, rfl⟩, rfl⟩

/-- What has been read once is read again unchanged. -/
theorem violationsOfDocument?_settled
    (h : ∀ violation ∈ violations, violation.BadValueCanonical)
    (hpaths : ∀ violation ∈ violations, ∃ path, Path.parse violation.path.toText = .ok path)
    {document : Document}
    (hdocument : document ∈ violationsForms (violations.map Violation.settled)) :
    violationsOfDocument? document = some (violations.map Violation.settled) := by
  have hcanonical :
      ∀ violation ∈ violations.map Violation.settled, violation.BadValueCanonical := by
    rw [List.forall_mem_map]
    exact fun violation hviolation => Violation.badValueCanonical_settled (h violation hviolation)
  refine (violationsOfDocument?_eq_some_iff hcanonical hdocument).mpr ⟨?_, ?_⟩
  · rw [List.forall_mem_map]
    intro violation hviolation
    obtain ⟨path, hread⟩ := hpaths violation hviolation
    exact ⟨_, Violation.parse_settled hread⟩
  · rw [List.map_map]
    exact List.map_congr_left fun violation _ => violation.settled_settled.symm

/-- A list of violations is read back, in either form, exactly if the text of every path spells a
path. Each violation then comes back with the canonical form of its path and without a value that
is null, and from then on the list comes back unchanged. -/
theorem violations_read_back (h : ∀ violation ∈ violations, violation.BadValueCanonical) :
    (violationsDocument violations).value? = some (violationsData violations) ∧
      ∀ document ∈ violationsForms violations,
        ((∃ read, violationsOfDocument? document = some read) ↔
            ∀ violation ∈ violations, ∃ path, Path.parse violation.path.toText = .ok path) ∧
          ∀ read, violationsOfDocument? document = some read →
            read = violations.map Violation.settled ∧
              ∀ again ∈ violationsForms read, violationsOfDocument? again = some read := by
  refine ⟨value?_violationsDocument h, fun document hdocument => ?_⟩
  have hread := @violationsOfDocument?_eq_some_iff _ h _ hdocument
  refine ⟨⟨fun ⟨_, h⟩ => (hread.mp h).1, fun hpaths => ⟨_, hread.mpr ⟨hpaths, rfl⟩⟩⟩, ?_⟩
  intro read hsome
  obtain ⟨hpaths, rfl⟩ := hread.mp hsome
  exact ⟨rfl, fun again => violationsOfDocument?_settled h hpaths⟩

theorem violations_read_back_padded :
    (∀ violation ∈ [Violation.invalid ⟨[.field "ports", .key "007"]⟩ .null "bad" "minimum"],
        violation.BadValueCanonical) ∧
      ∀ document ∈
          violationsForms [.invalid ⟨[.field "ports", .key "007"]⟩ .null "bad" "minimum"],
        violationsOfDocument? document = some
          [⟨⟨[.field "ports", .index 7]⟩, .invalid, none, "bad", "minimum", false, false⟩] := by
  have hcanonical :
      ∀ violation ∈ [Violation.invalid ⟨[.field "ports", .key "007"]⟩ .null "bad" "minimum"],
        violation.BadValueCanonical := by
    rw [List.forall_mem_singleton]
    rintro value ⟨⟩
    exact trivial
  refine ⟨hcanonical, fun document hdocument => ?_⟩
  obtain ⟨hreads, hsettled⟩ := (violations_read_back hcanonical).2 document hdocument
  have hpath : Path.parse (Path.mk [.field "ports", .key "007"]).toText =
      .ok ⟨[.field "ports", .index 7]⟩ := by
    decide +kernel
  obtain ⟨read, hread⟩ := hreads.mpr (List.forall_mem_singleton.mpr ⟨_, hpath⟩)
  rw [hread, (hsettled read hread).1]
  let left (path : Path) : Violation := ⟨path, .invalid, none, "bad", "minimum", false, false⟩
  exact congrArg (fun path => some [left path]) (Path.canonical_of_parse hpath)

end TaggedSchema
