import TaggedSchema.Text.Blank

/-!
# Type references

How a field or an alias names its type: a scalar, a pointer, a list, a map, or the name of a
definition.
-/

namespace TaggedSchema

open Text

/-- The domains of scalar values. The widths of numbers are not told apart. -/
inductive ScalarKind where
  | string
  | int
  | uint
  | float
  | bool
  deriving DecidableEq

namespace ScalarKind

/-- The domain that a spelling stands for. -/
def ofName? : String → Option ScalarKind
  | "string" => some string
  | "int" | "int8" | "int16" | "int32" | "int64" => some int
  | "uint" | "uint8" | "uint16" | "uint32" | "uint64" | "byte" => some uint
  | "float32" | "float64" => some float
  | "bool" => some bool
  | _ => none

def name : ScalarKind → String
  | string => "string"
  | int => "int"
  | uint => "uint"
  | float => "float64"
  | bool => "bool"

def isInteger : ScalarKind → Bool
  | int | uint => true
  | _ => false

end ScalarKind

inductive TypeRef where
  | scalar (kind : ScalarKind)
  | pointer (target : TypeRef)
  | slice (element : TypeRef)
  | map (key value : TypeRef)
  | named (name : String)
  deriving DecidableEq

namespace TypeRef

instance : Inhabited TypeRef := ⟨named ""⟩

def toText : TypeRef → String
  | scalar kind => kind.name
  | pointer target => "*" ++ target.toText
  | slice element => "[]" ++ element.toText
  | map key value => "map[" ++ key.toText ++ "]" ++ value.toText
  | named name => name

/-- The number of constructors. -/
def size : TypeRef → Nat
  | scalar _ | named _ => 1
  | pointer target => target.size + 1
  | slice element => element.size + 1
  | map key value => key.size + value.size + 1

/-- Why a text is not a type reference. -/
inductive Fault where
  | empty
  | unbalancedBrackets
  | badName
  deriving DecidableEq

def Fault.message : Fault → String
  | empty => "empty type"
  | unbalancedBrackets => "unbalanced map brackets"
  | badName => "invalid identifier"

/-- A fault and the part of the text that has it. -/
structure ParseError where
  input : String
  fault : Fault
  deriving DecidableEq

def ParseError.message (error : ParseError) : String :=
  s!"invalid type reference '{error.input}': {error.fault.message}"

def isNameChar (c : Char) : Bool :=
  c.isAlphanum || c == '_' || c == '.'

/-- Split the text after an opening bracket at the bracket that closes it, where `depth` more
brackets are open. -/
def splitAtClose (depth : Nat) : List Char → Option (List Char × List Char)
  | [] => none
  | c :: rest =>
    if c = ']' then
      match depth with
      | 0 => some ([], rest)
      | depth + 1 => (splitAtClose depth rest).map fun (key, value) => (c :: key, value)
    else
      let depth := if c = '[' then depth + 1 else depth
      (splitAtClose depth rest).map fun (key, value) => (c :: key, value)

theorem splitAtClose_eq {depth : Nat} {text key value : List Char}
    (h : splitAtClose depth text = some (key, value)) : text = key ++ ']' :: value := by
  induction text generalizing depth key value with
  | nil => simp [splitAtClose] at h
  | cons c rest ih =>
    rw [splitAtClose.eq_def] at h
    simp only at h
    split at h
    next hclose =>
      subst hclose
      cases depth with
      | zero =>
        obtain ⟨rfl, rfl⟩ := Prod.mk.inj (Option.some.inj h)
        rfl
      | succ depth =>
        simp only [Option.map_eq_some_iff] at h
        obtain ⟨⟨key', value'⟩, hrest, h⟩ := h
        obtain ⟨rfl, rfl⟩ := Prod.mk.inj h
        simp [ih hrest]
    next =>
      simp only [Option.map_eq_some_iff] at h
      obtain ⟨⟨key', value'⟩, hrest, h⟩ := h
      obtain ⟨rfl, rfl⟩ := Prod.mk.inj h
      simp [ih hrest]

/-- A text without brackets and stars: the spelling of a scalar, or a name. -/
def simple (input text : List Char) : Except ParseError TypeRef :=
  if text.all isNameChar then
    match ScalarKind.ofName? (String.ofList text) with
    | some kind => .ok (scalar kind)
    | none => .ok (named (String.ofList text))
  else .error ⟨String.ofList input, .badName⟩

def parseChars (input : List Char) : Except ParseError TypeRef :=
  match _h : trim input with
  | [] => .error ⟨String.ofList input, .empty⟩
  | '*' :: rest => (parseChars rest).map pointer
  | '[' :: ']' :: rest => (parseChars rest).map slice
  | 'm' :: 'a' :: 'p' :: '[' :: rest =>
    match _hsplit : splitAtClose 0 rest with
    | none => .error ⟨String.ofList input, .unbalancedBrackets⟩
    | some (key, value) => do
      let key ← parseChars key
      let value ← parseChars value
      return map key value
  | text => simple input text
termination_by input.length
decreasing_by
  all_goals
    have hle := length_trim_le input
    rw [_h] at hle
    try rw [splitAtClose_eq _hsplit] at hle
    simp only [List.length_cons, List.length_append] at hle
    omega

/-- The type reference that a text spells. White space around each part is dropped. -/
def parse (input : String) : Except ParseError TypeRef :=
  parseChars input.toList

end TypeRef

end TaggedSchema
