import TaggedSchema.Proofs.Text.Blank
import TaggedSchema.Tag.Parser

/-!
# The grammar of tags

Which texts spell which tags, as relations between a text and what it spells. Blanks may stand in
front of a tag, behind it, behind its equals sign, and around the parts of an argument, but nowhere
else.
-/

namespace TaggedSchema.Tag

open Text

/-! ## Literals -/

/-- The text spells this content between double quotes. -/
inductive Escaped : List Char → List Char → Prop where
  | nil : Escaped [] []
  | plain {c : Char} {spelled content : List Char} (hquote : c ≠ '"') (hbackslash : c ≠ '\\')
      (h : Escaped spelled content) : Escaped (c :: spelled) (c :: content)
  | newline {spelled content : List Char} (h : Escaped spelled content) :
      Escaped ('\\' :: 'n' :: spelled) ('\n' :: content)
  | tab {spelled content : List Char} (h : Escaped spelled content) :
      Escaped ('\\' :: 't' :: spelled) ('\t' :: content)
  | other {c : Char} {spelled content : List Char} (hn : c ≠ 'n') (ht : c ≠ 't')
      (h : Escaped spelled content) : Escaped ('\\' :: c :: spelled) (c :: content)

/-- A string is raw between backticks, and has escapes between double quotes. -/
inductive SpellsString : List Char → String → Prop where
  | raw {content : List Char} (h : '\x60' ∉ content) :
      SpellsString ('\x60' :: (content ++ ['\x60'])) (String.ofList content)
  | escaped {spelled content : List Char} (h : Escaped spelled content) :
      SpellsString ('"' :: (spelled ++ ['"'])) (String.ofList content)

def IsName (text : List Char) : Prop :=
  text ≠ [] ∧ ∀ c ∈ text, isNameChar c = true

def IsWord (text : List Char) : Prop :=
  text ≠ [] ∧ ∀ c ∈ text, isWordChar c = true

inductive SpellsLiteral : List Char → Literal → Prop where
  | string {text : List Char} {content : String} (h : SpellsString text content) :
      SpellsLiteral text (.string content)
  | word {text : List Char} (h : IsWord text) : SpellsLiteral text (Literal.ofWord text)

/-! ## Arguments -/

inductive SpellsArgument : List Char → Argument → Prop where
  | positional {before text after : List Char} {value : Literal} (hbefore : AllBlank before)
      (hvalue : SpellsLiteral text value) (hafter : AllBlank after) :
      SpellsArgument (before ++ (text ++ after)) ⟨none, value⟩
  | named {before name gap gap' text after : List Char} {value : Literal}
      (hbefore : AllBlank before) (hname : IsName name) (hgap : AllBlank gap)
      (hgap' : AllBlank gap') (hvalue : SpellsLiteral text value) (hafter : AllBlank after) :
      SpellsArgument (before ++ (name ++ (gap ++ ':' :: (gap' ++ (text ++ after)))))
        ⟨some (String.ofList name), value⟩

/-- One or more arguments with commas between them. -/
inductive SpellsArgumentList : List Char → List Argument → Prop where
  | last {text : List Char} {argument : Argument} (h : SpellsArgument text argument) :
      SpellsArgumentList text [argument]
  | more {text rest : List Char} {argument : Argument} {arguments : List Argument}
      (h : SpellsArgument text argument) (hrest : SpellsArgumentList rest arguments) :
      SpellsArgumentList (text ++ ',' :: rest) (argument :: arguments)

/-- The arguments of a tag with their parentheses, which may be left out. -/
inductive SpellsArguments : List Char → List Argument → Prop where
  | absent : SpellsArguments [] []
  | empty {gap : List Char} (h : AllBlank gap) : SpellsArguments ('(' :: (gap ++ [')'])) []
  | list {text : List Char} {arguments : List Argument} (h : SpellsArgumentList text arguments) :
      SpellsArguments ('(' :: (text ++ [')'])) arguments

/-! ## Tags -/

inductive SpellsQualifiedName : List Char → Option String × String → Prop where
  | plain {name : List Char} (h : IsName name) :
      SpellsQualifiedName name (none, String.ofList name)
  | qualified {qualifier name : List Char} (hqualifier : IsName qualifier) (h : IsName name) :
      SpellsQualifiedName (qualifier ++ ':' :: name)
        (some (String.ofList qualifier), String.ofList name)

/-- The text spells the name and the arguments of a tag. The tag goes on with `behind`, and keeps
its whole text. -/
inductive SpellsHead (scope : Scope) : (text behind : List Char) → Head → Prop where
  | mk {plus names text behind : List Char} {qualifier : Option String} {name : String}
      {arguments : List Argument} (hplus : plus = [] ∨ plus = ['+'])
      (hname : SpellsQualifiedName names (qualifier, name))
      (harguments : SpellsArguments text arguments) :
      SpellsHead scope (plus ++ (names ++ text)) behind
        ⟨qualifier, name, scope, arguments,
          String.ofList (trimEnd (plus ++ (names ++ text) ++ behind))⟩

/-- The text spells the tag. Behind an equals sign stands another tag if a plus sign comes first, a
string if a quote comes first, and otherwise a text that is taken as it is, up to the blanks at its
end. -/
inductive Spells (scope : Scope) : List Char → Tag → Prop where
  | bare {before text after : List Char} {head : Head} (hbefore : AllBlank before)
      (hhead : SpellsHead scope text after head) (hafter : AllBlank after) :
      Spells scope (before ++ (text ++ after)) (.bare head)
  | composed {before text gap rest : List Char} {head : Head} {inner : Tag}
      (hbefore : AllBlank before) (hgap : AllBlank gap)
      (hhead : SpellsHead scope text ('=' :: (gap ++ '+' :: rest)) head)
      (hinner : Spells scope ('+' :: rest) inner) :
      Spells scope (before ++ (text ++ '=' :: (gap ++ '+' :: rest))) (.composed head inner)
  | string {before text gap spelled after : List Char} {head : Head} {content : String}
      (hbefore : AllBlank before) (hgap : AllBlank gap) (hafter : AllBlank after)
      (hhead : SpellsHead scope text ('=' :: (gap ++ (spelled ++ after))) head)
      (hstring : SpellsString spelled content) :
      Spells scope (before ++ (text ++ '=' :: (gap ++ (spelled ++ after))))
        (.valued head (.string content))
  | text {before text gap rest : List Char} {c : Char} {head : Head}
      (hbefore : AllBlank before) (hgap : AllBlank gap) (hblank : isBlank c = false)
      (hplus : c ≠ '+') (hquote : c ≠ '"') (hbacktick : c ≠ '\x60')
      (hhead : SpellsHead scope text ('=' :: (gap ++ c :: rest)) head) :
      Spells scope (before ++ (text ++ '=' :: (gap ++ c :: rest)))
        (.valued head (Literal.ofWord (trimEnd (c :: rest))))

end TaggedSchema.Tag
