import TaggedSchema.Document.Settle
import TaggedSchema.Proofs.Value.Canonical
import TaggedSchema.Proofs.Value.Inside

/-!
# JSON data as documents

A document made of JSON data denotes that data again. In a record whose names differ a member is
read wherever it stands.
-/

namespace TaggedSchema.Document

/-! ## Data -/

theorem ofItems_eq_map (items : List Value) : ofItems items = items.map ofValue := by
  induction items with
  | nil => rfl
  | cons item items ih => rw [ofItems, ih, List.map_cons]

theorem ofMembers_eq_map (members : List (String × Value)) :
    ofMembers members = members.map fun entry => (entry.1, ofValue entry.2) := by
  induction members with
  | nil => rfl
  | cons entry members ih => rw [ofMembers, ih, List.map_cons]

theorem valueItems?_ofItems {items : List Value}
    (h : ∀ item ∈ items, (ofValue item).value? = some item) :
    valueItems? (ofItems items) = some items := by
  induction items with
  | nil => rfl
  | cons item items ih =>
    obtain ⟨hitem, hitems⟩ := List.forall_mem_cons.mp h
    rw [ofItems, valueItems?, hitem, ih hitems]
    rfl

theorem valueMembers?_ofMembers {members : List (String × Value)}
    (h : ∀ entry ∈ members, (ofValue entry.2).value? = some entry.2) :
    valueMembers? (ofMembers members) = some members := by
  induction members with
  | nil => rfl
  | cons entry members ih =>
    obtain ⟨hentry, hmembers⟩ := List.forall_mem_cons.mp h
    rw [ofMembers, valueMembers?, hentry, ih hmembers]
    rfl

theorem value?_ofValue {value : Value} (h : value.Canonical) :
    (ofValue value).value? = some value := by
  induction value using Value.induct with
  | null | bool | number | string => rfl
  | array items ih =>
    have hitems := Value.canonicalItems_iff.mp h
    rw [ofValue, value?, valueItems?_ofItems fun item hitem => ih item hitem (hitems item hitem)]
    rfl
  | object members ih =>
    obtain ⟨hsorted, hmembers⟩ := h
    rw [Value.canonicalMembers_iff] at hmembers
    rw [ofValue, value?,
      valueMembers?_ofMembers fun entry hentry => ih entry hentry (hmembers entry hentry),
      Option.map_some, Value.ofMembers, Catalog.ofEntries_of_sorted hsorted]

/-- The data of a record has the members of the record in name order. -/
theorem value?_table {members : List (String × Value)}
    (h : ∀ entry ∈ members, entry.2.Canonical) :
    (table (ofMembers members)).value? = some (Value.ofMembers members) := by
  rw [value?, valueMembers?_ofMembers fun entry hentry => value?_ofValue (h entry hentry)]
  rfl

theorem ofMembers_perm {members members' : List (String × Value)} (h : members.Perm members') :
    (ofMembers members).Perm (ofMembers members') := by
  rw [ofMembers_eq_map, ofMembers_eq_map]
  exact h.map _

/-! ## Members of a record -/

section Members

variable {α : Type} {entries : List (String × Document)} {name : String} {absent : Option α}
  {read : Document → Option α}

theorem member?_of_mem (hdistinct : (entries.map Prod.fst).Nodup) {document : Document}
    (h : (name, document) ∈ entries) : member? entries name absent read = read document := by
  suffices hfilter : (entries.filter fun entry => entry.1 == name) = [(name, document)] by
    rw [member?, hfilter]
  induction entries with
  | nil => cases h
  | cons entry entries ih =>
    obtain ⟨hentry, hdistinct⟩ := List.nodup_cons.mp hdistinct
    rcases List.mem_cons.mp h with rfl | h
    · have hself : ((name, document).1 == name) = true := beq_self_eq_true name
      rw [List.filter_cons, if_pos hself, List.filter_eq_nil_iff.mpr]
      intro other hother hsame
      exact hentry (List.mem_map.mpr ⟨other, hother, eq_of_beq hsame⟩)
    · rw [List.filter_cons_of_neg, ih hdistinct h]
      intro hsame
      exact hentry (List.mem_map.mpr ⟨_, h, (eq_of_beq hsame).symm⟩)

theorem member?_of_forall_ne (h : ∀ entry ∈ entries, entry.1 ≠ name) :
    member? entries name absent read = absent := by
  have hfilter : (entries.filter fun entry => entry.1 == name) = [] :=
    List.filter_eq_nil_iff.mpr fun entry hentry hsame => h entry hentry (eq_of_beq hsame)
  rw [member?, hfilter]

end Members

/-- Null stands for nothing where data may be missing. -/
theorem optional?_value? {value : Value} (h : value.Canonical) :
    optional? value? (ofValue value) = some ((some value).filter (!·.isNull)) := by
  have hread := value?_ofValue h
  cases value with
  | null => rfl
  | _ =>
    rw [ofValue] at hread ⊢
    rw [optional?, hread]
    · rfl
    all_goals nofun

end TaggedSchema.Document
