import TaggedSchema.Format.Address
import TaggedSchema.Pattern.Nested

/-!
# Reading sets of characters

Escapes, and the sets in square brackets. Brackets may lie inside brackets, and members that stand
side by side form a union before an operator is applied to them. Where case is ignored, this is so
for every set in brackets and for every operand.
-/

namespace TaggedSchema.Pattern

open Text

/-- Reads something at the front of a text and returns the rest. -/
abbrev Reader (α : Type) := List Char → Option (α × List Char)

/-- What a backslash and the characters after it stand for. -/
inductive Escape where
  | char (c : Char)
  | set (set : CharSet)
  | assertion (condition : Assertion)

def hexDigitValue (c : Char) : Nat :=
  if isAsciiDigit c then c.toNat - '0'.toNat
  else if 'a' ≤ c then c.toNat - 'a'.toNat + 10
  else c.toNat - 'A'.toNat + 10

/-- The character whose code point has these hexadecimal digits. -/
def charOfHex? (digits : List Char) : Option Char :=
  let code := digits.foldl (fun code c => 16 * code + hexDigitValue c) 0
  if digits.isEmpty || !digits.all Address.isHexDigit || !decide code.isValidChar then none
  else some (Char.ofNat code)

/-- A code point in braces, or in as many digits as `width` says. -/
def readCodePoint (width : Nat) : Reader Escape
  | '\x7b' :: text =>
    match text.span (· != '\x7d') with
    | (digits, _ :: rest) => (charOfHex? digits).map fun c => (.char c, rest)
    | (_, []) => none
  | text =>
    if text.length < width then none
    else (charOfHex? (text.take width)).map fun c => (.char c, text.drop width)

/-- Whether a backslash makes the character stand for itself. -/
def isEscapable (c : Char) : Bool :=
  c.toNat < 0x80 && !c.isAlphanum && c != '<' && c != '>'

/-- What follows a backslash. -/
def readEscape : Reader Escape
  | [] => none
  | 'x' :: rest => readCodePoint 2 rest
  | 'u' :: rest => readCodePoint 4 rest
  | 'U' :: rest => readCodePoint 8 rest
  | 'd' :: rest => some (.set .digit, rest)
  | 'D' :: rest => some (.set (.complement .digit), rest)
  | 's' :: rest => some (.set .blank, rest)
  | 'S' :: rest => some (.set (.complement .blank), rest)
  | 'w' :: rest => some (.set .word, rest)
  | 'W' :: rest => some (.set (.complement .word), rest)
  | 'a' :: rest => some (.char '\x07', rest)
  | 'f' :: rest => some (.char '\x0c', rest)
  | 't' :: rest => some (.char '\t', rest)
  | 'n' :: rest => some (.char '\n', rest)
  | 'r' :: rest => some (.char '\r', rest)
  | 'v' :: rest => some (.char '\x0b', rest)
  | 'A' :: rest => some (.assertion .textStart, rest)
  | 'z' :: rest => some (.assertion .textEnd, rest)
  | 'b' :: rest => some (.assertion .wordBoundary, rest)
  | 'B' :: rest => some (.assertion .noWordBoundary, rest)
  | c :: rest => if isEscapable c then some (.char c, rest) else none

/-- A character or an escape in brackets. -/
def readItem : Reader Escape
  | [] => none
  | '\\' :: rest => readEscape rest
  | c :: rest => some (.char c, rest)

/-- The set that an item stands for. -/
def Escape.set? : Escape → Option CharSet
  | char c => some (.char c)
  | set found => some found
  | assertion _ => none

/-- The set of the characters from one to another. -/
def rangeSet? : Escape → Escape → Option CharSet
  | .char first, .char last => if first ≤ last then some ⟨[(first.toNat, last.toNat)]⟩ else none
  | _, _ => none

/-- An item or a range. A hyphen in front of a bracket or another hyphen makes no range. -/
def readMember (text : List Char) : Option (CharSet × List Char) := do
  let (first, rest) ← readItem text
  match rest with
  | [] => none
  | '-' :: ']' :: _ | '-' :: '-' :: _ => first.set?.map fun set => (set, rest)
  | '-' :: more =>
    let (last, rest) ← readItem more
    (rangeSet? first last).map fun set => (set, rest)
  | _ => first.set?.map fun set => (set, rest)

/-- A character in front that has a meaning of its own there. -/
def skip (c : Char) (text : List Char) : Bool × List Char :=
  match text with
  | [] => (false, [])
  | d :: rest => if c = d then (true, rest) else (false, text)

/-- The name of a class between colons and the bracket that ends it. -/
def readNamed (ignoreCase : Bool) (text : List Char) : Option (CharSet × List Char) :=
  let (negated, text) := skip '^' text
  match text.span (· != ':') with
  | (name, ':' :: ']' :: rest) =>
    (CharSet.named? (String.ofList name)).map fun set =>
      let set := set.withCase ignoreCase
      (if negated then set.complement else set, rest)
  | _ => none

inductive SetOperator where
  | intersection
  | difference
  | symmetricDifference

def SetOperator.apply : SetOperator → CharSet → CharSet → CharSet
  | intersection => .intersection
  | difference => .difference
  | symmetricDifference => .symmetricDifference

/-- An open bracket: the members since the last operator, from the last to the first, and the
operator with what stands before it. -/
structure Bracket where
  ignoreCase : Bool
  negated : Bool
  before : Option (Nested CharSet × SetOperator)
  members : List (Nested CharSet)

namespace Bracket

def add (bracket : Bracket) (set : Nested CharSet) : Bracket :=
  { bracket with members := set :: bracket.members }

/-- The set up to here, without regard to the negation. -/
def value (bracket : Bracket) : Nested CharSet :=
  let members := Nested.combine
    (fun sets => CharSet.ofRanges (sets.flatMap CharSet.ranges)) bracket.members
  match bracket.before with
  | some (left, operator) =>
    Nested.node (fun (left, right) =>
        operator.apply (left.withCase bracket.ignoreCase) (right.withCase bracket.ignoreCase))
      (left.pair members)
  | none => members

/-- Operators are applied from left to right. -/
def operate (bracket : Bracket) (operator : SetOperator) : Bracket :=
  { bracket with before := some (bracket.value, operator), members := [] }

def close (bracket : Bracket) : Nested CharSet :=
  bracket.value.node fun set =>
    let set := set.withCase bracket.ignoreCase
    if bracket.negated then set.complement else set

/-- What follows an opening bracket. Hyphens in front are members, and so is a closing bracket in
front. -/
def read (ignoreCase : Bool) (text : List Char) : Bracket × List Char :=
  let (negated, text) := skip '^' text
  let (hyphens, text) := text.span (· == '-')
  let bracket : Bracket := ⟨ignoreCase, negated, none, hyphens.map fun c => .leaf (.char c)⟩
  if hyphens.isEmpty then
    match skip ']' text with
    | (true, rest) => (bracket.add (.leaf (.char ']')), rest)
    | (false, _) => (bracket, text)
  else (bracket, text)

end Bracket

/-- One step inside brackets. -/
inductive ClassStep where
  | opening (bracket : Bracket)
  | closing
  | operator (operator : SetOperator)
  | member (set : CharSet)

def readClassStep (ignoreCase : Bool) : Reader ClassStep
  | ']' :: rest => some (.closing, rest)
  | '&' :: '&' :: rest => some (.operator .intersection, rest)
  | '-' :: '-' :: rest => some (.operator .difference, rest)
  | '~' :: '~' :: rest => some (.operator .symmetricDifference, rest)
  | '[' :: rest =>
    let named := match skip ':' rest with
      | (true, rest) => readNamed ignoreCase rest
      | (false, _) => none
    match named with
    | some (set, rest) => some (.member set, rest)
    | none =>
      let (bracket, rest) := Bracket.read ignoreCase rest
      some (.opening bracket, rest)
  | text => (readMember text).map fun (set, rest) => (.member set, rest)

/-- Read on to the end of the outermost of the open brackets. -/
def readBrackets (bracket : Bracket) (outer : List Bracket) (text : List Char) :
    Option (Nested CharSet × List Char) :=
  match readClassStep bracket.ignoreCase text with
  | none => none
  | some (step, rest) =>
    if _h : rest.length < text.length then
      match step, outer with
      | .member set, _ => readBrackets (bracket.add (.leaf set)) outer rest
      | .operator operator, _ => readBrackets (bracket.operate operator) outer rest
      | .opening inner, _ => readBrackets inner (bracket :: outer) rest
      | .closing, parent :: outer => readBrackets (parent.add bracket.close) outer rest
      | .closing, [] => some (bracket.close, rest)
    else none
termination_by text.length

/-- The set that follows an opening bracket. -/
def readClass (ignoreCase : Bool) (text : List Char) : Option (Nested CharSet × List Char) :=
  let (bracket, rest) := Bracket.read ignoreCase text
  readBrackets bracket [] rest

end TaggedSchema.Pattern
