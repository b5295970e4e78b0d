import TaggedSchema.Tag.Basic
import TaggedSchema.Text.Blank

/-!
# Reading tags

A tag is an optional plus sign, a name or two names with a colon between them, arguments in
parentheses, and a value behind an equals sign. The value is a tag if it begins with a plus sign,
a string if it begins with a quote, and otherwise a word up to the end of the text. A failure
remembers the text from the place where it arose.
-/

namespace TaggedSchema.Tag

open Text

/-- Why a text is not a tag. -/
inductive Fault where
  | emptyName
  | unterminatedString
  | unclosedParenthesis
  | strayParenthesis
  | badArgument
  | emptyPayload
  | trailingInput
  deriving DecidableEq

def Fault.message : Fault → String
  | emptyName => "empty tag name"
  | unterminatedString => "unterminated string literal"
  | unclosedParenthesis => "unclosed '('"
  | strayParenthesis => "unexpected ')'"
  | badArgument => "invalid argument syntax"
  | emptyPayload => "empty payload after '='"
  | trailingInput => "trailing input"

/-- What keeps a reader from going on: a fault of the text, or that a string is wanted where no text
is left. -/
inductive Problem where
  | fault (fault : Fault)
  | unexpectedToken
  deriving DecidableEq

/-- A problem and the text from the place where it lies. -/
structure Failure where
  problem : Problem
  rest : List Char
  deriving DecidableEq

/-- A reader takes what it reads from the front of a text and leaves the rest. -/
abbrev Reader (α : Type) := List Char → Except Failure (α × List Char)

/-- `rest` is what is left of `text` when one or more characters are taken off its front. -/
structure IsLeft (rest text : List Char) : Prop where
  suffix : rest <:+ text
  shorter : rest.length < text.length

theorem IsLeft.extend {rest text whole : List Char} (h : IsLeft rest text)
    (hwhole : text <:+ whole) : IsLeft rest whole :=
  ⟨h.suffix.trans hwhole, Nat.lt_of_lt_of_le h.shorter hwhole.length_le⟩

theorem IsLeft.shrink {rest rest' text : List Char} (h : IsLeft rest text)
    (hrest : rest' <:+ rest) : IsLeft rest' text :=
  ⟨hrest.trans h.suffix, Nat.lt_of_le_of_lt hrest.length_le h.shorter⟩

theorem isLeft_cons (c : Char) {rest text : List Char} (h : rest <:+ text) :
    IsLeft rest (c :: text) :=
  ⟨h.trans (List.suffix_cons c text), Nat.lt_succ_of_le h.length_le⟩

theorem isLeft_dropWhile {p : Char → Bool} {text : List Char}
    (h : (text.takeWhile p).isEmpty = false) : IsLeft (text.dropWhile p) text := by
  cases text with
  | nil => cases h
  | cons c tail =>
    rw [List.takeWhile_cons] at h
    split at h
    next hc =>
      rw [List.dropWhile_cons_of_pos hc]
      exact isLeft_cons c (List.dropWhile_suffix p)
    next => cases h

def isNameChar (c : Char) : Bool :=
  c.isAlphanum || c == '_'

def isWordChar (c : Char) : Bool :=
  c.isAlphanum || c == '_' || c == '-' || c == '.' || c == '/'

def isQuote (c : Char) : Bool :=
  c == '"' || c == '\x60'

/-- What a character stands for behind a backslash. -/
def unescape (c : Char) : Char :=
  if c = 'n' then '\n' else if c = 't' then '\t' else c

/-- The content of a string behind its opening quote, and the text behind its closing quote.
Backslashes escape only between double quotes; `escaped` says that the next character is behind
one. -/
def quotedText? (quote : Char) (escaped : Bool) : List Char → Option (List Char × List Char)
  | [] => none
  | c :: rest =>
    if escaped then
      (quotedText? quote false rest).map fun (content, rest) => (unescape c :: content, rest)
    else if c = quote then some ([], rest)
    else if c = '\\' ∧ quote = '"' then quotedText? quote true rest
    else (quotedText? quote false rest).map fun (content, rest) => (c :: content, rest)

theorem isLeft_quotedText? {quote : Char} {escaped : Bool} {text content rest : List Char}
    (h : quotedText? quote escaped text = some (content, rest)) : IsLeft rest text := by
  induction text generalizing escaped content rest with
  | nil => simp [quotedText?] at h
  | cons c tail ih =>
    rw [quotedText?] at h
    split at h
    · obtain ⟨⟨content', rest'⟩, hrest, h⟩ := Option.map_eq_some_iff.mp h
      obtain ⟨-, rfl⟩ := Prod.mk.inj h
      exact (ih hrest).extend (List.suffix_cons c tail)
    · split at h
      · obtain ⟨-, rfl⟩ := Prod.mk.inj (Option.some.inj h)
        exact isLeft_cons c List.suffix_rfl
      · split at h
        · exact (ih h).extend (List.suffix_cons c tail)
        · obtain ⟨⟨content', rest'⟩, hrest, h⟩ := Option.map_eq_some_iff.mp h
          obtain ⟨-, rfl⟩ := Prod.mk.inj h
          exact (ih hrest).extend (List.suffix_cons c tail)

/-- A string, which goes on up to the next quote of the kind with which it begins. -/
def readString : Reader Literal := fun text =>
  match text with
  | [] => .error ⟨.unexpectedToken, []⟩
  | quote :: rest =>
    match quotedText? quote false rest with
    | none => .error ⟨.fault .unterminatedString, text⟩
    | some (content, rest) => .ok (.string (String.ofList content), rest)

/-- The value of a named argument: a string or a word. -/
def readLiteral : Reader Literal := fun text =>
  match trimStart text with
  | [] => .error ⟨.fault .unclosedParenthesis, []⟩
  | c :: rest =>
    if isQuote c then readString (c :: rest)
    else
      let word := (c :: rest).takeWhile isWordChar
      if word.isEmpty then .error ⟨.fault .badArgument, c :: rest⟩
      else .ok (Literal.ofWord word, (c :: rest).dropWhile isWordChar)

def readArgument : Reader Argument := fun text =>
  match trimStart text with
  | [] => .error ⟨.fault .unclosedParenthesis, []⟩
  | c :: rest =>
    if isQuote c then
      match readString (c :: rest) with
      | .error failure => .error failure
      | .ok (value, rest) => .ok (⟨none, value⟩, rest)
    else
      let word := (c :: rest).takeWhile isWordChar
      if word.isEmpty then .error ⟨.fault .badArgument, c :: rest⟩
      else
        match trimStart ((c :: rest).dropWhile isWordChar) with
        | ':' :: rest =>
          if word.all isNameChar then
            match readLiteral rest with
            | .error failure => .error failure
            | .ok (value, rest) => .ok (⟨some (String.ofList word), value⟩, rest)
          else .error ⟨.fault .badArgument, rest⟩
        | rest => .ok (⟨none, Literal.ofWord word⟩, rest)

theorem isLeft_readString {text rest : List Char} {value : Literal}
    (h : readString text = .ok (value, rest)) : IsLeft rest text := by
  unfold readString at h
  split at h
  · cases h
  next quote tail =>
    split at h
    · cases h
    next hquoted =>
      cases h
      exact (isLeft_quotedText? hquoted).extend (List.suffix_cons quote tail)

theorem isLeft_readLiteral {text rest : List Char} {value : Literal}
    (h : readLiteral text = .ok (value, rest)) : IsLeft rest text := by
  unfold readLiteral at h
  split at h
  · cases h
  next c tail htrim =>
    refine .extend ?_ (htrim ▸ trimStart_suffix text)
    split at h
    · exact isLeft_readString h
    · simp only at h
      split at h
      · cases h
      next hword =>
        cases h
        exact isLeft_dropWhile (Bool.eq_false_iff.mpr hword)

theorem isLeft_readArgument {text rest : List Char} {argument : Argument}
    (h : readArgument text = .ok (argument, rest)) : IsLeft rest text := by
  unfold readArgument at h
  split at h
  · cases h
  next c tail htrim =>
    refine .extend ?_ (htrim ▸ trimStart_suffix text)
    split at h
    · split at h
      · cases h
      next hstring =>
        cases h
        exact isLeft_readString hstring
    · simp only at h
      split at h
      · cases h
      next hword =>
        have hdrop := isLeft_dropWhile (Bool.eq_false_iff.mpr hword)
        have htrim' := hdrop.shrink (trimStart_suffix _)
        split at h
        next rest' hcolon =>
          split at h
          · split at h
            · cases h
            next hliteral =>
              cases h
              rw [hcolon] at htrim'
              have hvalue := isLeft_readLiteral hliteral
              exact htrim'.shrink (hvalue.suffix.trans (List.suffix_cons _ _))
          · cases h
        · cases h
          exact htrim'

/-- One or more arguments with commas between them, up to the closing parenthesis. `opening` is
the text from the opening one. -/
def readMoreArguments (opening text : List Char) : Except Failure (List Argument × List Char) :=
  match _h : readArgument text with
  | .error failure => .error failure
  | .ok (argument, after) =>
    match _hafter : trimStart after with
    | ',' :: next =>
      match readMoreArguments opening next with
      | .error failure => .error failure
      | .ok (arguments, rest) => .ok (argument :: arguments, rest)
    | ')' :: rest => .ok ([argument], rest)
    | [] => .error ⟨.fault .unclosedParenthesis, opening⟩
    | rest => .error ⟨.fault .badArgument, rest⟩
termination_by text.length
decreasing_by
  have hnext : ',' :: next <:+ after := _hafter ▸ trimStart_suffix after
  exact ((isLeft_readArgument _h).shrink ((List.suffix_cons _ _).trans hnext)).shorter

/-- The arguments of a tag, if an opening parenthesis is next. -/
def readArguments : Reader (List Argument) := fun text =>
  match text with
  | '(' :: rest =>
    match trimStart rest with
    | ')' :: rest => .ok ([], rest)
    | _ => readMoreArguments text rest
  | _ => .ok ([], text)

def readName : Reader (List Char) := fun text =>
  let name := text.takeWhile isNameChar
  let rest := text.dropWhile isNameChar
  if name.isEmpty then .error ⟨.fault .emptyName, rest⟩ else .ok (name, rest)

/-- A name, or a qualifier and a name. -/
def readQualifiedName : Reader (Option String × String) := fun text =>
  match readName text with
  | .error failure => .error failure
  | .ok (first, ':' :: rest) =>
    match readName rest with
    | .error failure => .error failure
    | .ok (name, rest) => .ok ((some (String.ofList first), String.ofList name), rest)
  | .ok (first, rest) => .ok ((none, String.ofList first), rest)

def withoutPlus : List Char → List Char
  | '+' :: rest => rest
  | text => text

/-- What a tag has in front of its value. -/
structure Front where
  qualifier : Option String
  name : String
  arguments : List Argument

/-- The head of a tag that was read from the front of `text`, so that `rest` is left. -/
def Front.head (front : Front) (scope : Scope) (text rest : List Char) : Head :=
  let taken := text.take (text.length - rest.length)
  ⟨front.qualifier, front.name, scope, front.arguments, String.ofList (trimEnd taken)⟩

def readFront : Reader Front := fun text =>
  match readQualifiedName (withoutPlus text) with
  | .error failure => .error failure
  | .ok ((qualifier, name), rest) =>
    match readArguments rest with
    | .error failure => .error failure
    | .ok (arguments, rest) => .ok (⟨qualifier, name, arguments⟩, rest)

theorem isLeft_readMoreArguments {opening text rest : List Char} {arguments : List Argument}
    (h : readMoreArguments opening text = .ok (arguments, rest)) : IsLeft rest text := by
  fun_induction readMoreArguments opening text generalizing arguments rest with
  | case1 | case2 | case5 | case6 => cases h
  | case3 text argument after hargument next hnext arguments' rest' hmore ih =>
    cases h
    have hbehind := (isLeft_readArgument hargument).shrink (hnext ▸ trimStart_suffix after)
    exact hbehind.shrink ((ih hmore).suffix.trans (List.suffix_cons _ _))
  | case4 text argument after hargument rest' hnext =>
    cases h
    have hbehind := (isLeft_readArgument hargument).shrink (hnext ▸ trimStart_suffix after)
    exact hbehind.shrink (List.suffix_cons _ _)

theorem readArguments_suffix {text rest : List Char} {arguments : List Argument}
    (h : readArguments text = .ok (arguments, rest)) : rest <:+ text := by
  unfold readArguments at h
  split at h
  next tail =>
    split at h
    next rest' hclose =>
      cases h
      have hbehind : ')' :: rest <:+ tail := hclose ▸ trimStart_suffix tail
      exact ((List.suffix_cons _ _).trans hbehind).trans (List.suffix_cons _ _)
    · exact (isLeft_readMoreArguments h).suffix.trans (List.suffix_cons _ _)
  · cases h
    exact List.suffix_rfl

theorem isLeft_readName {text name rest : List Char} (h : readName text = .ok (name, rest)) :
    IsLeft rest text := by
  unfold readName at h
  simp only at h
  split at h
  · cases h
  next hname =>
    cases h
    exact isLeft_dropWhile (Bool.eq_false_iff.mpr hname)

theorem isLeft_readQualifiedName {text rest : List Char} {name : Option String × String}
    (h : readQualifiedName text = .ok (name, rest)) : IsLeft rest text := by
  unfold readQualifiedName at h
  split at h
  · cases h
  next hfirst =>
    split at h
    · cases h
    next hsecond =>
      cases h
      have hbehind := (isLeft_readName hfirst).shrink (List.suffix_cons _ _)
      exact hbehind.shrink (isLeft_readName hsecond).suffix
  next hfirst =>
    cases h
    exact isLeft_readName hfirst

theorem withoutPlus_suffix (text : List Char) : withoutPlus text <:+ text := by
  unfold withoutPlus
  split
  · exact List.suffix_cons _ _
  · exact List.suffix_rfl

theorem isLeft_readFront {text rest : List Char} {front : Front}
    (h : readFront text = .ok (front, rest)) : IsLeft rest text := by
  unfold readFront at h
  split at h
  · cases h
  next hname =>
    split at h
    · cases h
    next harguments =>
      cases h
      have hnamed := (isLeft_readQualifiedName hname).extend (withoutPlus_suffix text)
      exact hnamed.shrink (readArguments_suffix harguments)

/-- The end of a tag without a value: nothing but blanks may follow. -/
def readEnd (rest : List Char) : Except Failure (List Char) :=
  match trimStart rest with
  | [] => .ok []
  | ')' :: rest => .error ⟨.fault .strayParenthesis, ')' :: rest⟩
  | rest => .error ⟨.fault .trailingInput, rest⟩

/-- A value that is not a tag. Nothing but blanks may follow a string; a word takes all the text
without the blanks at its end. -/
def readValue (c : Char) (rest : List Char) : Except Failure (Literal × List Char) :=
  if isQuote c then
    match readString (c :: rest) with
    | .error failure => .error failure
    | .ok (value, rest) =>
      match trimStart rest with
      | [] => .ok (value, [])
      | rest => .error ⟨.fault .trailingInput, rest⟩
  else .ok (Literal.ofWord (trimEnd (c :: rest)), [])

/-- The tag at the front of a text, which keeps the text up to the place where reading it stops.
All nested tags get the same scope. -/
def read (scope : Scope) (input : List Char) : Except Failure (Tag × List Char) :=
  match _h : readFront (trimStart input) with
  | .error failure => .error failure
  | .ok (front, '=' :: payload) =>
    match _hpayload : trimStart payload with
    | [] => .error ⟨.fault .emptyPayload, []⟩
    | c :: rest =>
      if c = '+' then
        match read scope (c :: rest) with
        | .error failure => .error failure
        | .ok (inner, rest) => .ok (composed (front.head scope (trimStart input) rest) inner, rest)
      else
        match readValue c rest with
        | .error failure => .error failure
        | .ok (value, rest) => .ok (valued (front.head scope (trimStart input) rest) value, rest)
  | .ok (front, rest) =>
    match readEnd rest with
    | .error failure => .error failure
    | .ok rest => .ok (bare (front.head scope (trimStart input) rest), rest)
termination_by input.length
decreasing_by
  have hpayload : c :: rest <:+ payload := _hpayload ▸ trimStart_suffix payload
  have hvalue := (isLeft_readFront _h).shrink (hpayload.trans (List.suffix_cons '=' payload))
  exact (hvalue.extend (trimStart_suffix input)).shorter

end TaggedSchema.Tag
