import TaggedSchema.Text.Numeral

/-!
# Scalars of YAML

A scalar is quoted with one or two kinds of quotes, or stands without. It may go over several
lines: a single line break between two lines is read as a space, and blank lines are kept.
-/

namespace TaggedSchema.Yaml

open Text

/-- Line and paragraph separators are breaks that folding keeps. -/
def isBreak (c : Char) : Bool :=
  c == '\n' || c == '\u2028' || c == '\u2029'

def isSpace (c : Char) : Bool :=
  c == ' ' || c == '\t'

/-- Whether a text is at the end of a word: nothing follows, or a blank. -/
def atBlank (text : List Char) : Bool :=
  text.head?.all fun c => isSpace c || isBreak c

/-- Whether a line begins with the mark that begins or ends a document. -/
def isMarker : List Char → Bool
  | '-' :: '-' :: '-' :: rest => atBlank rest
  | '.' :: '.' :: '.' :: rest => atBlank rest
  | _ => false

/-- Blanks between two parts of a scalar. -/
inductive Gap where
  | spaces (text : List Char)
  /-- Blanks at line breaks are dropped. -/
  | breaks (first : Char) (more : List Char)
  /-- After a break that a backslash takes away. -/
  | joined (more : List Char)

namespace Gap

def none : Gap := spaces []

def isEmpty : Gap → Bool
  | spaces text => text.isEmpty
  | _ => false

def hasBreak : Gap → Bool
  | spaces _ => false
  | _ => true

def add (gap : Gap) (c : Char) : Gap :=
  match gap with
  | spaces text => if isBreak c then breaks c [] else spaces (text ++ [c])
  | breaks first more => if isBreak c then breaks first (more ++ [c]) else gap
  | joined more => if isBreak c then joined (more ++ [c]) else gap

/-- What a gap stands for in the scalar. -/
def text : Gap → List Char
  | spaces text => text
  | joined more => more
  | breaks first more =>
    if first = '\n' then if more.isEmpty then [' '] else more else first :: more

end Gap

/-- The contents of a scalar and what follows it. -/
abbrev Scanned := Option (List Char × List Char)

/-- Put characters in front of the contents. -/
def emit (front : List Char) (scanned : Scanned) : Scanned :=
  scanned.map fun (contents, rest) => (front ++ contents, rest)

/-- What follows a single quote. Two single quotes stand for one. No line inside quotes may begin
with a mark that begins or ends a document. -/
def scanSingle (gap : Gap) : List Char → Scanned
  | [] => none
  | '\'' :: '\'' :: rest => emit (gap.text ++ ['\'']) (scanSingle .none rest)
  | c :: rest =>
    if c = '\'' then some (gap.text, rest)
    else if isBreak c && isMarker rest then none
    else if isSpace c || isBreak c then scanSingle (gap.add c) rest
    else emit (gap.text ++ [c]) (scanSingle .none rest)

/-- The character that a backslash and `c` stand for. -/
def escaped? (c : Char) : Option Char :=
  if ['"', '\\', '/', ' ', '\t'].contains c then some c
  else
    [('0', '\x00'), ('a', '\x07'), ('b', '\x08'), ('t', '\t'), ('n', '\n'), ('v', '\x0b'),
      ('f', '\x0c'), ('r', '\r'), ('e', '\x1b'), ('N', '\u0085'), ('_', '\u00a0'),
      ('L', '\u2028'), ('P', '\u2029')].lookup c

/-- How many hexadecimal digits follow a backslash and `c`. -/
def codeWidth? (c : Char) : Option Nat :=
  [('x', 2), ('u', 4), ('U', 8)].lookup c

def hexDigit? (c : Char) : Option Nat :=
  if '0' ≤ c ∧ c ≤ '9' then some (c.toNat - 48)
  else if 'a' ≤ c ∧ c ≤ 'f' then some (c.toNat - 87)
  else if 'A' ≤ c ∧ c ≤ 'F' then some (c.toNat - 55)
  else none

/-- What is expected inside double quotes. -/
inductive Expecting where
  | text
  | escape
  | digits (left value : Nat)

/-- What follows a double quote. -/
def scanDouble (expecting : Expecting) (gap : Gap) : List Char → Scanned
  | [] => none
  | c :: rest =>
    match expecting with
    | .text =>
      if c = '"' then some (gap.text, rest)
      else if c = '\\' then emit gap.text (scanDouble .escape .none rest)
      else if isBreak c && isMarker rest then none
      else if isSpace c || isBreak c then scanDouble .text (gap.add c) rest
      else emit (gap.text ++ [c]) (scanDouble .text .none rest)
    | .escape =>
      if isBreak c then if isMarker rest then none else scanDouble .text (.joined []) rest
      else
        match codeWidth? c, escaped? c with
        | some width, _ => scanDouble (.digits width 0) .none rest
        | none, some d => emit [d] (scanDouble .text .none rest)
        | none, none => none
    | .digits left value =>
      match hexDigit? c with
      | none => none
      | some digit =>
        let value := 16 * value + digit
        if 1 < left then scanDouble (.digits (left - 1) value) .none rest
        else if value.isValidChar then emit [Char.ofNat value] (scanDouble .text .none rest)
        else none

/-- Marks that end an unquoted scalar inside brackets and braces. -/
def isFlowMark (c : Char) : Bool :=
  [',', '[', ']', '\x7b', '\x7d'].contains c

/-- Whether an unquoted scalar ends in front of `c :: rest`. -/
def endsPlain (inFlow : Bool) (indent : Nat) (gap : Gap) (column : Nat) (c : Char)
    (rest : List Char) : Bool :=
  c = '#' && !gap.isEmpty ||
    gap.hasBreak && !inFlow && decide (column < indent) ||
    column = 0 && isMarker (c :: rest) ||
    c = ':' && atBlank rest ||
    inFlow && isFlowMark c

/-- An unquoted scalar, without the blanks after it. Outside brackets, later lines are indented by
`indent` at least. -/
def scanPlain (inFlow : Bool) (indent : Nat) (gap : Gap) (column : Nat) : List Char → Scanned
  | [] => some ([], [])
  | c :: rest =>
    if isBreak c then scanPlain inFlow indent (gap.add c) 0 rest
    else if isSpace c then
      if c = '\t' && gap.hasBreak && column < indent then none
      else scanPlain inFlow indent (gap.add c) (column + 1) rest
    else if endsPlain inFlow indent gap column c rest then some ([], c :: rest)
    else if inFlow && c = ':' && rest.head?.any fun d => d = '?' || isFlowMark d then none
    else emit (gap.text ++ [c]) (scanPlain inFlow indent .none (column + 1) rest)

/-- Whether an unquoted scalar may begin in front of `c :: rest`. -/
def beginsPlain (inFlow : Bool) (c : Char) (rest : List Char) : Bool :=
  if isSpace c || isBreak c then false
  else if c = '-' then !atBlank rest
  else if c = '?' || c = ':' then !inFlow && !atBlank rest
  else
    !isFlowMark c && c ∉ ['#', '&', '*', '!', '|', '>', '\'', '"', '%', '@', '\x60']

end TaggedSchema.Yaml
