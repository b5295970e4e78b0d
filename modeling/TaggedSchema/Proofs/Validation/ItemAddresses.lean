import TaggedSchema.Proofs.Validation.Addresses
import TaggedSchema.Proofs.Validation.Descent

/-!
# Addresses of selected items

A rule on an item of a list gives the item an address by its key fields. If the item is there, they
are written in the order in which the list names its keys. If it is missing, they are written in
that of the selector, and so they are for a member of a union. The addresses are the same exactly
if the selector names the keys in the order of the list.
-/

namespace TaggedSchema

open Text

namespace ItemSelector

def names (selector : ItemSelector) : List String :=
  selector.keys.map Prod.fst

/-- The values are those that tags can write: texts, integers and truth values. -/
def IsPlain (selector : ItemSelector) : Prop :=
  ∀ entry ∈ selector.keys, ∃ literal : Literal, entry.2 = literal.toValue

/-- The selector with its key fields in the order of these keys. -/
def inOrder (selector : ItemSelector) (keys : List String) : ItemSelector :=
  ⟨keys.filterMap fun key => selector.keys.find? fun entry => entry.1 == key⟩

end ItemSelector

variable {selector : ItemSelector} {semantics : ListSemantics} {keys keys' : List String}
  {item : Value} {items : List Value} {list : Path}

/-! ## The key fields of a selected item -/

theorem Literal.eq_of_beq_toValue {value : Value} {literal : Literal}
    (h : (value == literal.toValue) = true) : value = literal.toValue := by
  cases literal with
  | string text | word text =>
    cases value with
    | string text' => exact congrArg Value.string (eq_of_beq (α := String) h)
    | _ => cases h
  | bool b =>
    cases value with
    | bool b' => exact congrArg Value.bool (eq_of_beq (α := Bool) h)
    | _ => cases h
  | int n =>
    cases value with
    | number number =>
      cases number with
      | int n' => exact congrArg (Value.number ∘ Number.int) (eq_of_beq (α := Int) h)
      | float value => cases h
    | _ => cases h

namespace ItemSelector

/-- A selected item has the key fields of the selector. -/
theorem member_of_selects (hplain : selector.IsPlain) (h : selector.selects item = true)
    {entry : String × Value} (hentry : entry ∈ selector.keys) :
    item.member entry.1 = entry.2 := by
  obtain ⟨name, value⟩ := entry
  obtain ⟨literal, rfl⟩ := hplain _ hentry
  have hfound := List.all_eq_true.mp h _ hentry
  rw [Value.member]
  cases hmember : item.member? name with
  | some found =>
    simp only [hmember] at hfound
    exact Literal.eq_of_beq_toValue hfound
  | none =>
    simp only [hmember] at hfound
    cases hfound

/-- The identity of a selector is that of an item it selects, in the order of the selector. -/
theorem identity_of_selects (hplain : selector.IsPlain) (h : selector.selects item = true) :
    selector.identity = identityOf selector.names item := by
  have hkeys : selector.keys = selector.names.map fun name => (name, item.member name) := by
    rw [names, List.map_map, List.map_congr_left, List.map_id]
    intro entry hentry
    exact Prod.ext rfl (member_of_selects hplain h hentry)
  rw [identity, identityOf, ← hkeys]

theorem inOrder_identity_of_selects (hplain : selector.IsPlain)
    (h : selector.selects item = true) (hnamed : ∀ key ∈ keys, key ∈ selector.names) :
    (selector.inOrder keys).identity = identityOf keys item := by
  have hkeys : (selector.inOrder keys).keys = keys.map fun key => (key, item.member key) := by
    rw [inOrder, ← List.filterMap_eq_map]
    refine List.filterMap_congr fun key hkey => ?_
    obtain ⟨entry, hentry⟩ : ∃ entry, (selector.keys.find? fun entry => entry.1 == key) =
        some entry := by
      obtain ⟨entry, hmem, hname⟩ := List.mem_map.mp (hnamed key hkey)
      exact Option.isSome_iff_exists.mp
        (List.find?_isSome.mpr ⟨entry, hmem, beq_iff_eq.mpr hname⟩)
    obtain rfl := beq_iff_eq.mp (List.find?_some hentry :)
    rw [hentry, Function.comp, member_of_selects hplain h (List.mem_of_find?_eq_some hentry)]
  rw [identity, identityOf, hkeys]

end ItemSelector

/-! ## Identities of one item in two orders -/

/-- The text of the key fields behind the first one. -/
def identityBehind (keys : List String) (item : Value) : String :=
  if keys = [] then "" else "," ++ identityOf keys item

theorem identityOf_cons_eq (key : String) (keys : List String) (item : Value) :
    identityOf (key :: keys) item =
      key ++ "=" ++ identityText (item.member key) ++ identityBehind keys item := by
  cases keys with
  | nil => rw [identityOf_singleton, identityBehind, if_pos rfl, String.append_empty]
  | cons next keys =>
    rw [identityOf_cons, identityBehind, if_neg (List.cons_ne_nil _ _), String.append_assoc]

/-- One item has different identities in different orders, as long as no name contains the sign
behind the names. -/
theorem keys_eq_of_identityOf (hkeys : ∀ key ∈ keys, '=' ∉ key.toList)
    (hkeys' : ∀ key ∈ keys', '=' ∉ key.toList)
    (h : identityOf keys item = identityOf keys' item) : keys = keys' := by
  induction keys generalizing keys' with
  | nil =>
    by_contra hne
    have hmem := mem_toList_identityOf (Ne.symm hne) item
    rw [← h] at hmem
    cases hmem
  | cons key keys ih =>
    cases keys' with
    | nil =>
      have hmem := mem_toList_identityOf (List.cons_ne_nil key keys) item
      rw [h] at hmem
      cases hmem
    | cons key' keys' =>
      obtain ⟨hkey, hrest⟩ := List.forall_mem_cons.mp hkeys
      obtain ⟨hkey', hrest'⟩ := List.forall_mem_cons.mp hkeys'
      rw [identityOf_cons_eq, identityOf_cons_eq] at h
      have hsplit := congrArg String.toList h
      simp only [String.toList_append, List.append_assoc] at hsplit
      obtain rfl := String.toList_inj.mp (split_unique hkey hkey' hsplit).1
      rw [String.append_right_inj, identityBehind, identityBehind] at h
      split at h <;> split at h
      next hnil hnil' => rw [hnil, hnil']
      next => exact absurd h (by simp)
      next => exact absurd h (by simp)
      next => rw [ih hrest hrest' ((String.append_right_inj _).mp h)]

/-! ## The address of a selected item -/

theorem selectedItem_of_missing (h : items.any selector.selects = false) :
    (selectedItem list semantics selector items).1 = list.key selector.identity := by
  rw [selectedItem]
  split
  next item position hfound =>
    have hitem := List.fst_mem_of_mem_zipIdx (List.mem_of_find?_eq_some hfound)
    exact absurd (List.find?_some hfound :) (List.any_eq_false.mp h _ hitem)
  next => rfl

theorem selectedItem_of_present (h : items.any selector.selects = true) :
    ∃ position item, selector.selects item = true ∧
      (selectedItem list semantics selector items).1 =
        semantics.elementPath list position item := by
  rw [selectedItem]
  split
  next item position hfound => exact ⟨position, item, (List.find?_some hfound :), rfl⟩
  next hnone =>
    obtain ⟨item, hitem, hselects⟩ := List.any_eq_true.mp h
    obtain ⟨position, hposition⟩ := List.mem_iff_getElem?.mp hitem
    have hmem : (item, position) ∈ items.zipIdx := List.mem_zipIdx_iff_getElem?.mpr hposition
    exact absurd hselects (List.find?_eq_none.mp hnone _ hmem)

/-- A rule on the item that has certain values in the key fields of the list is evaluated at an
address made of these. If there is no such item, they are in the order of the selector, as they are
in the address of a member of a union. If there is one, they are in the order of the list. So the
two addresses are the same if these orders are, and they differ otherwise, if no name contains the
sign that stands behind names. -/
theorem selectedItem_address (hidentity : semantics.identity = .keys) (hsome : semantics.keys ≠ [])
    (hplain : selector.IsPlain) (hnames : ∀ key, key ∈ selector.names ↔ key ∈ semantics.keys)
    (list : Path) (items : List Value) :
    (∀ (c : Context) (site : Site) (access : Access) (element : Plan) (rule : Rule),
        site.plan = .list access element semantics → site.path = list →
          c.walkPlace (.items (c.itemNodes items)) site (.item selector) rule =
            c.walk (selectedItem list semantics selector items).2
              (site.item (selectedItem list semantics selector items).1 selector element rule)) ∧
      (items.any selector.selects = false →
        (selectedItem list semantics selector items).1 = list.key selector.identity) ∧
      (items.any selector.selects = true →
        (selectedItem list semantics selector items).1 =
            list.key (selector.inOrder semantics.keys).identity ∧
          (selector.names = semantics.keys →
            (selectedItem list semantics selector items).1 = list.key selector.identity) ∧
          ((∀ name ∈ selector.names, '=' ∉ name.toList) →
            (selectedItem list semantics selector items).1 = list.key selector.identity →
            selector.names = semantics.keys)) ∧
      ∀ (member : UnionMember) (object : Path), member.selector = some selector →
        member.path object = (object.field member.field).key selector.identity := by
  refine ⟨?_, selectedItem_of_missing, ?_, ?_⟩
  · intro c site access element rule hplan hpath
    simp only [Context.walkPlace, hplan, hpath, Context.selectedNode_eq]
  · intro hpresent
    obtain ⟨position, item, hselects, hitem⟩ := selectedItem_of_present hpresent
    have hobject : item.isObject = true := by
      refine ItemSelector.isObject_of_selects (fun hnil => ?_) hselects
      obtain ⟨key, hkey⟩ := List.exists_mem_of_ne_nil _ hsome
      have hname := (hnames key).mpr hkey
      rw [ItemSelector.names, hnil] at hname
      cases hname
    have hselector := ItemSelector.identity_of_selects hplain hselects
    rw [hitem, elementPath_eq hidentity hobject]
    refine ⟨?_, ?_, ?_⟩
    · rw [ItemSelector.inOrder_identity_of_selects hplain hselects fun key => (hnames key).mpr]
    · intro hsame
      rw [hselector, hsame]
    · intro hsigns hsame
      rw [hselector] at hsame
      have hlist : ∀ key ∈ semantics.keys, '=' ∉ key.toList :=
        fun key hkey => hsigns key ((hnames key).mpr hkey)
      exact (keys_eq_of_identityOf hlist hsigns (Path.key_inj hsame)).symm
  · intro member object hmember
    rw [UnionMember.path, hmember]

/-- Endpoints are told apart by host and port. -/
def byHostAndPort : ListSemantics := ⟨.map, ["host", "port"], none, false⟩

def portFirst : ItemSelector := ⟨[("port", .ofInt 80), ("host", .string "a")]⟩

def endpoint : Value := .ofMembers [("host", .string "a"), ("port", .ofInt 80)]

/-- An endpoint that is selected by its port first has one address when it is missing and another
one when it is there. -/
theorem selectedItem_address_endpoint :
    (selectedItem .root byHostAndPort portFirst []).1 = Path.root.key "port=80,host=a" ∧
      (selectedItem .root byHostAndPort portFirst [endpoint]).1 = Path.root.key "host=a,port=80" ∧
      (selectedItem .root byHostAndPort portFirst [endpoint]).1 ≠
        (selectedItem .root byHostAndPort portFirst []).1 := by
  have hplain : portFirst.IsPlain :=
    List.forall_mem_cons.mpr ⟨⟨.int 80, rfl⟩, List.forall_mem_singleton.mpr ⟨.string "a", rfl⟩⟩
  have hnames (key : String) : key ∈ portFirst.names ↔ key ∈ byHostAndPort.keys :=
    (List.Perm.swap "host" "port" []).mem_iff
  have hidentity : byHostAndPort.identity = .keys := rfl
  have hsome : byHostAndPort.keys ≠ [] := List.cons_ne_nil _ _
  have haddress := selectedItem_address hidentity hsome hplain hnames .root
  obtain ⟨-, hmissing, -⟩ := haddress []
  obtain ⟨-, -, hpresent, -⟩ := haddress [endpoint]
  obtain ⟨hordered, -, hdiffers⟩ := hpresent (by decide +kernel)
  have hpath := hmissing rfl
  refine ⟨hpath.trans (congrArg Path.root.key (by decide +kernel)),
    hordered.trans (congrArg Path.root.key (by decide +kernel)), fun hsame => ?_⟩
  exact absurd (hdiffers (by decide +kernel) (hsame.trans hpath)) (by decide)

end TaggedSchema
