import TaggedSchema.Pattern.Class
import TaggedSchema.Pattern.Flags
import TaggedSchema.Text.Alphanumeric

/-!
# Tokens of patterns

A pattern is a sequence of items, of operators on the item before them, and of parentheses. What a
token means depends on the flags.
-/

namespace TaggedSchema.Pattern

open Text

inductive Opening where
  | capture (name : Option String)
  | plain (changes : FlagChanges)

inductive Token where
  | item (expr : Nested Expr)
  | bar
  | opening (opening : Opening)
  | closing
  | flags (changes : FlagChanges)
  | repetition (least : Nat) (most : Option Nat) (greedy : Bool)

/-- Flags up to a colon or a closing parenthesis, after which a hyphen has or has not switched over
to turning off. The hyphen may not come last, and no flag may come twice. -/
def readFlags (negated : Bool) (changes : FlagChanges) : Reader Token
  | [] => none
  | ':' :: rest => some (.opening (.plain changes), rest)
  | ')' :: rest => if changes.isEmpty then none else some (.flags changes, rest)
  | '-' :: rest =>
    match rest with
    | ':' :: _ | ')' :: _ => none
    | _ => if negated then none else readFlags true changes rest
  | c :: rest =>
    match Flag.ofChar? c with
    | none => none
    | some flag =>
      if changes.any fun change => change.1 == flag then none
      else if flag = .unicode && negated then none
      else readFlags negated (changes ++ [(flag, !negated)]) rest

def isNameStart (c : Char) : Bool := c == '_' || isAlphabetic c

def isNameChar (c : Char) : Bool :=
  c == '_' || c == '.' || c == '[' || c == ']' || isAlphanumeric c

/-- The name of a group and the angle bracket that ends it. -/
def readGroupName (text : List Char) : Option (Token × List Char) :=
  match text.span (· != '>') with
  | (first :: more, _ :: rest) =>
    if isNameStart first && more.all isNameChar then
      some (.opening (.capture (some (String.ofList (first :: more)))), rest)
    else none
  | _ => none

/-- What follows an opening parenthesis. Conditions on the text around a match are refused. -/
def readOpening : Reader Token
  | '?' :: 'P' :: '<' :: rest => readGroupName rest
  | '?' :: '<' :: '=' :: _ | '?' :: '<' :: '!' :: _ => none
  | '?' :: '<' :: rest => readGroupName rest
  | '?' :: rest => readFlags false [] rest
  | text => some (.opening (.capture none), text)

/-- A repetition, which a question mark after it makes lazy. -/
def repetitionToken (flags : Flags) (least : Nat) (most : Option Nat) (text : List Char) :
    Option (Token × List Char) :=
  let (isLazy, rest) := skip '?' text
  some (.repetition least most (isLazy == flags.swapGreed), rest)

/-- A count, which may have blanks around it. -/
def readCount (text : List Char) : Option (Nat × List Char) :=
  let (digits, rest) := (text.dropWhile isBlank).span isAsciiDigit
  match natural? digits with
  | some count => if count < 0x100000000 then some (count, rest.dropWhile isBlank) else none
  | none => none

/-- Counts in braces. -/
def readCounts (flags : Flags) (text : List Char) : Option (Token × List Char) := do
  let (least, rest) ← readCount text
  match rest with
  | '\x7d' :: rest => repetitionToken flags least (some least) rest
  | ',' :: '\x7d' :: rest => repetitionToken flags least none rest
  | ',' :: rest =>
    let (most, rest) ← readCount rest
    match rest with
    | '\x7d' :: rest =>
      if least ≤ most then repetitionToken flags least (some most) rest else none
    | _ => none
  | _ => none

def Escape.expr (flags : Flags) : Escape → Expr
  | char c => flags.char c
  | set found => .ofSet found
  | assertion condition => .assertion condition

def readToken (flags : Flags) : Reader Token
  | [] => none
  | '\\' :: rest =>
    (readEscape rest).map fun (escape, rest) => (.item (.leaf (escape.expr flags)), rest)
  | '[' :: rest =>
    (readClass flags.ignoreCase rest).map fun (set, rest) =>
      (.item ⟨.ofSet set.value, set.depth⟩, rest)
  | '.' :: rest => some (.item (.leaf flags.dot), rest)
  | '^' :: rest => some (.item (.leaf flags.lineStart), rest)
  | '$' :: rest => some (.item (.leaf flags.lineEnd), rest)
  | '|' :: rest => some (.bar, rest)
  | '(' :: rest => readOpening rest
  | ')' :: rest => some (.closing, rest)
  | '*' :: rest => repetitionToken flags 0 none rest
  | '+' :: rest => repetitionToken flags 1 none rest
  | '?' :: rest => repetitionToken flags 0 (some 1) rest
  | '\x7b' :: rest => readCounts flags rest
  | c :: rest => some (.item (.leaf (flags.char c)), rest)

end TaggedSchema.Pattern
