import TaggedSchema.Proofs.Rule.Reordering
import TaggedSchema.Proofs.Schema.Coherence
import TaggedSchema.Proofs.Schema.Reordering
import TaggedSchema.Proofs.Schema.Retagging

/-!
# Tags in another order

If the tags of a field are put in another order, its struct is accepted as before unless another
mode of uniqueness is the last one at a list in the field. The elements of all lists in the field
are told apart in the same way.
-/

namespace TaggedSchema

namespace Compiler

variable {c c' : Compiler}

/-! ## Definitions that lend the same rules -/

section

variable (h : c.Alike c') (hlends : ∀ name, c'.aliasRules name = c.aliasRules name)

include h hlends

theorem Alike.planWithin_congr (depth : Nat) (ref : TypeRef) (here : List Rule) :
    c'.planWithin depth ref here = c.planWithin depth ref here := by
  induction depth generalizing ref here with
  | zero => rfl
  | succ depth ih =>
    rw [Compiler.planWithin, Compiler.planWithin, h.resolve, funext hlends]
    simp only [ih]

theorem Alike.field_congr (u : Unions) (field : FieldDef) : c'.field u field = c.field u field := by
  have hplan : c'.plan field.type = c.plan field.type := by
    funext here
    rw [Compiler.plan, Compiler.plan, h.depthBound, h.planWithin_congr hlends]
  rw [Compiler.field, Compiler.field, h.fieldRules, hplan]

theorem Alike.fields_congr (type : String) (u : Unions) (fields : List FieldDef) :
    c'.fields type u fields = c.fields type u fields := by
  induction fields generalizing u with
  | nil => rfl
  | cons field fields ih =>
    rw [Compiler.fields, Compiler.fields, h.field_congr hlends]
    simp only [ih]

theorem Alike.structBody_congr (type : String) (fields : List FieldDef) :
    c'.structBody type fields = c.structBody type fields := by
  rw [structBody, structBody, h.fields_congr hlends]

end

/-! ## Structs -/

section

variable {field : FieldDef} {tags : List String} {rules rules' : List Rule} {type : String}
variable {before after : List FieldDef}

theorem fieldRules_perm (htags : tags.Perm field.tags) (hrules : c.fieldRules field = .ok rules) :
    ∃ rules', c.fieldRules (field.retag tags) = .ok rules' ∧ rules'.Perm rules := by
  obtain ⟨hlines, hcheck⟩ := fieldRules_eq_ok_iff.mp hrules
  obtain ⟨rules', hbuilds, hperm⟩ := hlines.perm htags
  exact ⟨rules', fieldRules_eq_ok_iff.mpr ⟨hbuilds, check_perm hperm hcheck⟩, hperm⟩

/-- With these tags the same mode of uniqueness is the last one as with its own, at every list in
the field. -/
def KeepsModes (c : Compiler) (field : FieldDef) (tags : List String) : Prop :=
  ∀ rules rules', c.fieldRules field = .ok rules → c.fieldRules (field.retag tags) = .ok rules' →
    c.SameModes ⟨field.type, rules⟩ ⟨field.type, rules'⟩

theorem KeepsModes.symm (htags : tags.Perm field.tags) (h : c.KeepsModes field tags) :
    c.KeepsModes (field.retag tags) field.tags := by
  intro rules' rules hrules' hrules
  obtain ⟨_, hsame, hperm⟩ := fieldRules_perm htags hrules
  cases hrules'.symm.trans hsame
  have hreorders : RuledRef.Reorders ⟨field.type, rules⟩ ⟨field.type, rules'⟩ := ⟨rfl, hperm⟩
  exact SameModes.symm hreorders (h rules rules' hrules hrules')

/-- So it is in every order if no two different modes are said at one list. -/
theorem keepsModes_of_agree (htags : tags.Perm field.tags)
    (hagree : ∀ rules places s heard, c.fieldRules field = .ok rules →
      c.inside? ⟨field.type, rules⟩ places = some s → c.read? s = some heard →
        ∀ mode ∈ Rule.said Constraint.uniqueMode? heard,
          ∀ mode' ∈ Rule.said Constraint.uniqueMode? heard, mode' = mode) :
    c.KeepsModes field tags := by
  intro rules rules' hrules hrules'
  obtain ⟨_, hsame, hperm⟩ := fieldRules_perm htags hrules
  cases hrules'.symm.trans hsame
  have hreorders : RuledRef.Reorders ⟨field.type, rules⟩ ⟨field.type, rules'⟩ := ⟨rfl, hperm⟩
  exact sameModes_of_agree hreorders fun places s heard => hagree rules places s heard hrules

theorem Compilable.perm (htags : tags.Perm field.tags) (hmodes : c.KeepsModes field tags)
    (h : c.Compilable field) : c.Compilable (field.retag tags) := by
  obtain ⟨rules, plan, hrules, hplan⟩ := h
  obtain ⟨rules', hrules', hperm⟩ := fieldRules_perm htags hrules
  obtain ⟨plan', hplan'⟩ :=
    (exists_plan_perm_iff hperm hplan).mpr (hmodes rules rules' hrules hrules')
  exact ⟨rules', plan', hrules', hplan'⟩

theorem markers_perm (htags : tags.Perm field.tags) (h : c.Compilable field) :
    (c.markers (field.retag tags)).Perm (c.markers field) := by
  obtain ⟨rules, -, hrules, -⟩ := h
  obtain ⟨rules', hrules', hperm⟩ := fieldRules_perm htags hrules
  rw [markers_of_fieldRules hrules, markers_of_fieldRules hrules']
  exact hperm.filterMap _

/-- A struct is compiled with the tags of a field in another order. To its unions the order makes no
difference. -/
theorem exists_structBody_perm (htags : tags.Perm field.tags) (hmodes : c.KeepsModes field tags)
    (h : ∃ body, c.structBody type (before ++ field :: after) = .ok body) :
    ∃ body, c.structBody type (before ++ field.retag tags :: after) = .ok body := by
  rw [exists_structBody_iff, List.forall_mem_append, List.forall_mem_cons] at h ⊢
  obtain ⟨⟨hbefore, hfield, hafter⟩, hagree⟩ := h
  have hmarkers : ((before ++ field.retag tags :: after).flatMap c.markers).Perm
      ((before ++ field :: after).flatMap c.markers) := by
    simp only [List.flatMap_append, List.flatMap_cons]
    exact ((markers_perm htags hfield).append_right _).append_left _
  exact ⟨⟨hbefore, hfield.perm htags hmodes, hafter⟩, hagree.perm hmarkers⟩

theorem exists_structBody_perm_iff (htags : tags.Perm field.tags)
    (hmodes : c.KeepsModes field tags) :
    (∃ body, c.structBody type (before ++ field.retag tags :: after) = .ok body) ↔
      ∃ body, c.structBody type (before ++ field :: after) = .ok body :=
  ⟨exists_structBody_perm htags.symm (hmodes.symm htags), exists_structBody_perm htags hmodes⟩

/-- If a field is compiled with its tags in both orders, then the modes are kept, and the elements
of every list in it are told apart in the same way. -/
theorem CompilesTo.perm {compiled compiled' : CompiledField} (htags : tags.Perm field.tags)
    (h : c.CompilesTo field compiled) (h' : c.CompilesTo (field.retag tags) compiled') :
    c.KeepsModes field tags ∧
      List.Forall₂ ListSemantics.Reorders compiled.plan.lists compiled'.plan.lists := by
  obtain ⟨_, hsame, hperm⟩ := fieldRules_perm htags h.rules
  cases h'.rules.symm.trans hsame
  have hplan : c.IsPlanOf ⟨field.type, compiled.rules⟩ compiled.plan := ⟨_, h.plan⟩
  have hplan' : c.IsPlanOf ⟨field.type, compiled'.rules⟩ compiled'.plan := ⟨_, h'.plan⟩
  refine ⟨?_, hplan.lists_reorder hplan' ⟨rfl, hperm⟩⟩
  intro rules rules' hrules hrules'
  cases h.rules.symm.trans hrules
  cases h'.rules.symm.trans hrules'
  exact (exists_plan_perm_iff hperm h.plan).mp ⟨_, h'.plan⟩

end

end Compiler

/-! ## Whole universes -/

section

variable {types : Universe} {options : Options} {name : String} {type : TypeDef}
variable {fields : List FieldDef} {body : CompiledStruct}

/-- A struct is in the schema if its own tags are built into rules and its fields are compiled. -/
theorem schema_struct?_eq_some_iff (htype : types.get? name = some type)
    (hfields : type.body = .struct fields) :
    (compile types options).schema.struct? name = some body ↔
      (∃ rules, Compiler.typeRules ⟨types, options⟩ type = .ok rules) ∧
        Compiler.structBody ⟨types, options⟩ type.name fields = .ok body := by
  constructor
  · intro h
    obtain ⟨compiled, hget, -, hbody⟩ := Schema.get?_of_struct? h
    obtain ⟨-, hrules, ⟨_, body', hfields', hbody', hstruct⟩ | ⟨_, _, plan, halias, -, -⟩⟩ :=
      Compiler.definition_spec ((schema_get?_eq_some_iff htype).mp hget)
    · cases hfields.symm.trans hfields'
      cases hbody.symm.trans hbody'
      exact ⟨⟨_, hrules⟩, hstruct⟩
    · cases hfields.symm.trans halias
  · rintro ⟨⟨rules, hrules⟩, hstruct⟩
    have hget := (schema_get?_eq_some_iff htype).mpr
      (Compiler.definition_of_struct hrules hfields hstruct)
    simp [Schema.struct?, hget]

namespace FieldLines

variable (a : FieldLines types) {lines' : List String}

/-- The tags of the field with other lines in the place of these. -/
def tagsWith (lines' : List String) : List String := a.front ++ lines' ++ a.back

/-- The fields of the struct, of which this one has other lines in the place of these. -/
def fieldsWith (lines' : List String) : List FieldDef :=
  a.type.fields.modify a.position (FieldDef.retag (a.tagsWith lines'))

theorem tagsWith_perm (hperm : lines'.Perm a.lines) : (a.tagsWith lines').Perm a.field.tags := by
  rw [a.field_tags]
  exact (hperm.append_left _).append_right _

theorem getElem?_fieldsWith (lines' : List String) :
    (a.fieldsWith lines')[a.position]? = some (a.field.retag (a.tagsWith lines')) := by
  rw [fieldsWith, List.getElem?_modify_eq, a.field_position]
  rfl

theorem exists_fields_split : ∃ before after, a.type.fields = before ++ a.field :: after ∧
    ∀ lines', a.fieldsWith lines' = before ++ a.field.retag (a.tagsWith lines') :: after := by
  obtain ⟨hposition, hat⟩ := List.getElem?_eq_some_iff.mp a.field_position
  refine ⟨a.type.fields.take a.position, a.type.fields.drop (a.position + 1), ?_, fun lines' => ?_⟩
  · rw [← hat, ← List.drop_eq_getElem_cons hposition, List.take_append_drop]
  · rw [fieldsWith, List.modify_eq_take_cons_drop hposition, hat]

theorem struct?_iff : (compile types options).schema.struct? a.type.name = some body ↔
    (∃ rules, Compiler.typeRules ⟨types, options⟩ a.type = .ok rules) ∧
      Compiler.structBody ⟨types, options⟩ a.type.name a.type.fields = .ok body :=
  schema_struct?_eq_some_iff a.type_known
    (TypeDef.body_of_mem_fields (List.mem_of_getElem? a.field_position))

/-- With other lines the struct is compiled as if the other definitions were as before. -/
theorem struct?_replaced_iff :
    (compile (a.replaced lines') options).schema.struct? a.type.name = some body ↔
      (∃ rules, Compiler.typeRules ⟨types, options⟩ a.type = .ok rules) ∧
        Compiler.structBody ⟨types, options⟩ a.type.name (a.fieldsWith lines') = .ok body := by
  have halike := Compiler.alike_retag types options a.type.name a.position (a.tagsWith lines')
  have htype := types.get?_retag a.type.name a.position (a.tagsWith lines') a.type.name
  rw [a.type_known, Option.map_some] at htype
  have hfields : (a.type.retagAt a.type.name a.position (a.tagsWith lines')).body =
      .struct (a.fieldsWith lines') := by
    rw [TypeDef.retagAt_of_struct rfl
      (TypeDef.body_of_mem_fields (List.mem_of_getElem? a.field_position)), fieldsWith]
  rw [replaced, ← tagsWith, schema_struct?_eq_some_iff htype hfields, Compiler.typeRules_retagAt,
    TypeDef.name_retagAt, halike.structBody_congr fun name => Compiler.aliasRules_retag name]

/-- Let lines of a field be put in another order. If at every list in the field the same mode of
uniqueness is the last one as before, then the struct is accepted if and only if it was. If it is
accepted in both orders, then the modes are the same, and the elements of each list are told apart
in the same way and by the same keys. -/
theorem struct?_perm (hperm : lines'.Perm a.lines) :
    (Compiler.KeepsModes ⟨types, options⟩ a.field (a.front ++ lines' ++ a.back) →
      ((∃ body, (compile (a.replaced lines') options).schema.struct? a.type.name = some body) ↔
        ∃ body, (compile types options).schema.struct? a.type.name = some body)) ∧
    ∀ body body', (compile types options).schema.struct? a.type.name = some body →
      (compile (a.replaced lines') options).schema.struct? a.type.name = some body' →
        Compiler.KeepsModes ⟨types, options⟩ a.field (a.front ++ lines' ++ a.back) ∧
        ∃ field field', body.fields[a.position]? = some field ∧
          body'.fields[a.position]? = some field' ∧
          List.Forall₂ (fun list list' =>
            list'.identity = list.identity ∧ list'.keys.Perm list.keys)
            field.plan.lists field'.plan.lists := by
  have htags := a.tagsWith_perm hperm
  simp only [a.struct?_iff, a.struct?_replaced_iff]
  refine ⟨fun hmodes => ?accepted, ?lists⟩
  case accepted =>
    obtain ⟨before, after, hsplit, hsplit'⟩ := a.exists_fields_split
    rw [exists_and_left, exists_and_left, hsplit, hsplit']
    exact and_congr_right fun _ => Compiler.exists_structBody_perm_iff htags hmodes
  case lists =>
    rintro body body' ⟨-, hstruct⟩ ⟨-, hstruct'⟩
    obtain ⟨field, hfield, hcompiles⟩ :=
      getElem?_of_forall₂ (Compiler.structBody_compilesTo hstruct) a.field_position
    obtain ⟨field', hfield', hcompiles'⟩ := getElem?_of_forall₂
      (Compiler.structBody_compilesTo hstruct') (a.getElem?_fieldsWith lines')
    obtain ⟨hmodes, hlists⟩ := hcompiles.perm htags hcompiles'
    exact ⟨hmodes, field, field', hfield, hfield',
      hlists.imp fun _ _ h => ⟨h.identity, h.keys⟩⟩

end FieldLines

end

def chestType : TypeDef :=
  ⟨"Chest", [], .struct [⟨"Drawers", none, .slice (.named "Drawer"),
    ["+k8s:unique=map", "+k8s:listMapKey=side", "+k8s:listMapKey=row"]⟩]⟩

def chestTypes : Universe := Catalog.ofList
  [chestType, ⟨"Drawer", [], .struct
    [⟨"Side", none, .scalar .string, []⟩, ⟨"Row", none, .scalar .int, []⟩]⟩]

/-- All lines of the drawers. -/
def drawerLines : FieldLines chestTypes where
  type := chestType
  position := 0
  field := ⟨"Drawers", none, .slice (.named "Drawer"),
    ["+k8s:unique=map", "+k8s:listMapKey=side", "+k8s:listMapKey=row"]⟩
  front := []
  lines := ["+k8s:unique=map", "+k8s:listMapKey=side", "+k8s:listMapKey=row"]
  back := []
  type_known := by rfl
  field_position := rfl
  field_tags := rfl

/-- The keys are named the other way round and the mode last. -/
def drawerLinesReversed : List String :=
  ["+k8s:listMapKey=row", "+k8s:listMapKey=side", "+k8s:unique=map"]

theorem FieldLines.struct?_perm_chest :
    drawerLinesReversed.Perm drawerLines.lines ∧
      Compiler.KeepsModes ⟨chestTypes, .default⟩ drawerLines.field drawerLinesReversed ∧
      ∃ body body' field field',
        (compile chestTypes .default).schema.struct? "Chest" = some body ∧
        (compile (drawerLines.replaced drawerLinesReversed) .default).schema.struct? "Chest" =
          some body' ∧
        body.fields[0]? = some field ∧ body'.fields[0]? = some field' ∧
        field.plan.lists.map ListSemantics.keys = [["side", "row"]] ∧
        field'.plan.lists.map ListSemantics.keys = [["row", "side"]] ∧
        List.Forall₂ (fun list list' =>
          list'.identity = list.identity ∧ list'.keys.Perm list.keys)
          field.plan.lists field'.plan.lists := by
  have hperm : drawerLinesReversed.Perm drawerLines.lines := by decide
  have hkeys : ((compile chestTypes .default).schema.struct? "Chest").bind (fun body =>
      body.fields[0]?.map fun field => field.plan.lists.map ListSemantics.keys) =
        some [["side", "row"]] := by
    decide +kernel
  have hkeys' : ((compile (drawerLines.replaced drawerLinesReversed) .default).schema.struct?
      "Chest").bind (fun body =>
        body.fields[0]?.map fun field => field.plan.lists.map ListSemantics.keys) =
          some [["row", "side"]] := by
    decide +kernel
  obtain ⟨body, hbody, hkeys⟩ := Option.bind_eq_some_iff.mp hkeys
  obtain ⟨body', hbody', hkeys'⟩ := Option.bind_eq_some_iff.mp hkeys'
  obtain ⟨hmodes, field, field', hfield, hfield', hlists⟩ :=
    (drawerLines.struct?_perm hperm).2 body body' hbody hbody'
  obtain ⟨_, hfirst, hkeys⟩ := Option.map_eq_some_iff.mp hkeys
  cases hfield.symm.trans hfirst
  obtain ⟨_, hfirst', hkeys'⟩ := Option.map_eq_some_iff.mp hkeys'
  cases hfield'.symm.trans hfirst'
  exact ⟨hperm, hmodes, body, body', field, field', hbody, hbody', hfield, hfield', hkeys, hkeys',
    hlists⟩

/-- With two modes the order decides: the keys do not go with the mode that is the last one. -/
example :
    ((compile (drawerLines.replaced
      ["+k8s:unique=set", "+k8s:unique=map", "+k8s:listMapKey=row"]) .default).schema.struct?
        "Chest").isSome = true ∧
    ((compile (drawerLines.replaced
      ["+k8s:unique=map", "+k8s:unique=set", "+k8s:listMapKey=row"]) .default).schema.struct?
        "Chest").isNone = true := by
  decide +kernel

end TaggedSchema
