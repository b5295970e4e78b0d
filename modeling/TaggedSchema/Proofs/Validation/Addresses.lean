import TaggedSchema.Proofs.Path.Keys
import TaggedSchema.Validation.Elements

/-!
# Addresses of different elements

Errors belong to one element if the canonical forms of their paths are equal. The entries of a map
stand under their keys, and the elements of a list with key fields under one text of all of these.
Both are written without quotes, so that different elements can have one address. The texts show
when this may happen.
-/

namespace TaggedSchema

open Text

/-- The item is an object whose key fields are texts. -/
def HasKeyTexts (keys : List String) (item : Value) : Prop :=
  item.isObject = true ∧ ∀ key ∈ keys, ∃ text, item.member key = .string text

/-- The text of a key field that has another one behind it contains a comma. -/
def JoinsInside (keys : List String) (item : Value) : Prop :=
  ∃ key ∈ keys.dropLast, ',' ∈ (identityText (item.member key)).toList

/-- The key fields of an item in one text. -/
def identityOf (keys : List String) (item : Value) : String :=
  renderIdentity (keys.map fun key => (key, item.member key))

variable {key : String} {keys : List String} {item item' : Value}

theorem HasKeyTexts.tail (h : HasKeyTexts (key :: keys) item) : HasKeyTexts keys item :=
  ⟨h.1, fun other hother => h.2 other (List.mem_cons_of_mem _ hother)⟩

theorem HasKeyTexts.member_eq (h : HasKeyTexts (key :: keys) item)
    (h' : HasKeyTexts (key :: keys) item')
    (htext : identityText (item.member key) = identityText (item'.member key)) :
    item.member key = item'.member key := by
  obtain ⟨text, hitem⟩ := h.2 key List.mem_cons_self
  obtain ⟨text', hitem'⟩ := h'.2 key List.mem_cons_self
  rw [hitem, hitem'] at htext ⊢
  exact congrArg Value.string htext

theorem elementPath_eq {semantics : ListSemantics} (hidentity : semantics.identity = .keys)
    (hitem : item.isObject = true) (list : Path) (position : Nat) :
    semantics.elementPath list position item = list.key (identityOf semantics.keys item) := by
  cases item with
  | object members =>
    rw [ListSemantics.elementPath, hidentity]
    rfl
  | _ => cases hitem

theorem identityOf_singleton (key : String) (item : Value) :
    identityOf [key] item = key ++ "=" ++ identityText (item.member key) :=
  rfl

theorem identityOf_cons (key next : String) (keys : List String) (item : Value) :
    identityOf (key :: next :: keys) item =
      key ++ "=" ++ identityText (item.member key) ++ "," ++ identityOf (next :: keys) item :=
  String.intercalate_cons_cons

theorem mem_toList_identityOf (hkeys : keys ≠ []) (item : Value) :
    '=' ∈ (identityOf keys item).toList := by
  match keys with
  | [key] => simp [identityOf_singleton]
  | key :: next :: keys => simp [identityOf_cons]

/-- The text of the key fields shows each of them, as long as commas stand between them only. -/
theorem member_eq_of_identityOf (hitem : HasKeyTexts keys item) (hitem' : HasKeyTexts keys item')
    (hjoins : ¬JoinsInside keys item) (hjoins' : ¬JoinsInside keys item')
    (h : identityOf keys item = identityOf keys item') :
    ∀ key ∈ keys, item.member key = item'.member key := by
  induction keys with
  | nil => exact List.forall_mem_nil _
  | cons key keys ih =>
    cases keys with
    | nil =>
      rw [identityOf_singleton, identityOf_singleton, String.append_right_inj] at h
      exact List.forall_mem_singleton.mpr (hitem.member_eq hitem' h)
    | cons next keys =>
      have hcomma {item : Value} (h : ¬JoinsInside (key :: next :: keys) item) :
          ',' ∉ (identityText (item.member key)).toList :=
        fun hmem => h ⟨key, List.mem_cons_self, hmem⟩
      have hrest {item : Value} (h : ¬JoinsInside (key :: next :: keys) item) :
          ¬JoinsInside (next :: keys) item :=
        fun ⟨other, hother, hmem⟩ => h ⟨other, List.mem_cons_of_mem _ hother, hmem⟩
      rw [identityOf_cons, identityOf_cons] at h
      simp only [String.append_assoc, String.append_right_inj] at h
      have hsplit := congrArg String.toList h
      simp only [String.toList_append] at hsplit
      obtain ⟨htext, hbehind⟩ := split_unique (hcomma hjoins) (hcomma hjoins') hsplit
      refine List.forall_mem_cons.mpr
        ⟨hitem.member_eq hitem' (String.toList_inj.mp htext), ?_⟩
      exact ih hitem.tail hitem'.tail (hrest hjoins) (hrest hjoins')
        (String.toList_inj.mp hbehind)

theorem not_sameNumber_identityOf (hkeys : keys ≠ []) (item : Value) (key : String) :
    ¬Path.SameNumber (identityOf keys item) key := by
  rintro ⟨n, hn, -⟩
  rw [natural?, Option.ite_none_left_eq_some, Bool.or_eq_true, not_or, Bool.not_eq_true',
    Bool.not_eq_false, List.all_eq_true] at hn
  exact absurd (hn.1.2 _ (mem_toList_identityOf hkeys item)) (by decide)

/-- Elements that differ in a key field have one address only if each closes the bracket that it is
written in, or if both are written alike because a key field before the last contains a comma. -/
theorem closesBracket_or_joinsInside {semantics : ListSemantics}
    (hidentity : semantics.identity = .keys) (hitem : HasKeyTexts semantics.keys item)
    (hitem' : HasKeyTexts semantics.keys item')
    (hdiffer : ∃ key ∈ semantics.keys, item.member key ≠ item'.member key) {list : Path}
    {position position' : Nat}
    (h : (semantics.elementPath list position item).canonical =
      (semantics.elementPath list position' item').canonical) :
    Path.ClosesBracket (identityOf semantics.keys item) ∧
        Path.ClosesBracket (identityOf semantics.keys item') ∨
      identityOf semantics.keys item = identityOf semantics.keys item' ∧
        (JoinsInside semantics.keys item ∨ JoinsInside semantics.keys item') := by
  obtain ⟨key, hkey, hne⟩ := hdiffer
  rw [elementPath_eq hidentity hitem.1, elementPath_eq hidentity hitem'.1] at h
  by_cases hsame : identityOf semantics.keys item = identityOf semantics.keys item'
  · refine .inr ⟨hsame, ?_⟩
    by_contra hno
    rw [not_or] at hno
    exact hne (member_eq_of_identityOf hitem hitem' hno.1 hno.2 hsame key hkey)
  · refine .inl ((Path.canonical_key_eq hsame h).resolve_left ?_)
    exact not_sameNumber_identityOf (List.ne_nil_of_mem hkey) item _

/-- Different entries of a map have different addresses, unless their keys are one number or both
contain a closing bracket. Below a well-formed path they have one address exactly if they have one
below the root path, and so they do if they are one number that can be a position. Elements of a
list that differ in a key field have different addresses, unless both identities contain a closing
bracket, or are equal because a key field before the last contains a comma. -/
theorem different_addresses (base : Path) :
    (∀ key key', key ≠ key' →
      ((base.key key).canonical = (base.key key').canonical →
        Path.SameNumber key key' ∨ Path.ClosesBracket key ∧ Path.ClosesBracket key') ∧
      (base.WellFormed →
        ((base.key key).canonical = (base.key key').canonical ↔
          (Path.root.key key).canonical = (Path.root.key key').canonical) ∧
        ∀ n < 18446744073709551616, natural? key.toList = some n →
          natural? key'.toList = some n →
          (base.key key).canonical = (base.key key').canonical)) ∧
      ∀ semantics : ListSemantics, semantics.identity = .keys →
        ∀ item item', HasKeyTexts semantics.keys item → HasKeyTexts semantics.keys item' →
          (∃ key ∈ semantics.keys, item.member key ≠ item'.member key) →
          ∀ position position',
            (semantics.elementPath base position item).canonical =
              (semantics.elementPath base position' item').canonical →
            Path.ClosesBracket (identityOf semantics.keys item) ∧
                Path.ClosesBracket (identityOf semantics.keys item') ∨
              identityOf semantics.keys item = identityOf semantics.keys item' ∧
                (JoinsInside semantics.keys item ∨ JoinsInside semantics.keys item') := by
  refine ⟨fun key key' hkeys => ⟨Path.canonical_key_eq hkeys, fun hbase => ?_⟩, ?_⟩
  · exact ⟨Path.canonical_key_eq_iff_root hbase hkeys,
      fun n hn => Path.canonical_key_eq_of_sameNumber hbase hn⟩
  · intro semantics hidentity item item' hitem hitem' hdiffer position position'
    exact closesBracket_or_joinsInside hidentity hitem hitem' hdiffer

theorem different_addresses_ports :
    ((Path.root.field "ports").key "00").canonical =
        ((Path.root.field "ports").key "0").canonical ∧
      ∀ position position',
        (ListSemantics.elementPath ⟨.map, ["name", "zone"], none, false⟩ (Path.root.field "ports")
            position (.object [("name", .string "a"), ("zone", .string "x,y")])).canonical ≠
          (ListSemantics.elementPath ⟨.map, ["name", "zone"], none, false⟩
            (Path.root.field "ports") position'
            (.object [("name", .string "a"), ("zone", .string "x")])).canonical := by
  have hread : Path.parse "ports" = .ok (Path.root.field "ports") := by decide +kernel
  have hbase := Path.wellFormed_of_parse hread
  obtain ⟨hkeys, helements⟩ := different_addresses (Path.root.field "ports")
  refine ⟨((hkeys "00" "0" (by decide)).2 hbase).2 0 (by decide) rfl rfl, ?_⟩
  intro position position' hsame
  have hitem (zone : String) :
      HasKeyTexts ["name", "zone"] (.object [("name", .string "a"), ("zone", .string zone)]) := by
    refine ⟨rfl, List.forall_mem_cons.mpr ⟨⟨"a", rfl⟩, List.forall_mem_singleton.mpr ⟨zone, rfl⟩⟩⟩
  have hdiffer : ∃ key ∈ ["name", "zone"],
      (Value.object [("name", .string "a"), ("zone", .string "x,y")]).member key ≠
        (Value.object [("name", .string "a"), ("zone", .string "x")]).member key :=
    ⟨"zone", by decide, fun h => absurd (Value.string.inj h) (by decide)⟩
  rcases helements ⟨.map, ["name", "zone"], none, false⟩ rfl _ _ (hitem "x,y") (hitem "x") hdiffer
    position position' hsame with ⟨hcloses, -⟩ | ⟨hidentity, -⟩
  · rw [Path.ClosesBracket] at hcloses
    revert hcloses
    decide +kernel
  · revert hidentity
    decide +kernel

end TaggedSchema
