import TaggedSchema.Path.Basic
import TaggedSchema.Text.Blank
import TaggedSchema.Text.Bytes
import TaggedSchema.Text.Numeral

/-!
# Reading field paths

Field names are separated by points, and positions and keys stand in brackets. A bracket with
nothing but digits in it is a position. White space around the text is dropped, and the empty text
is the root path.
-/

namespace TaggedSchema.Path

open Text

/-- Why a text is not a path. -/
inductive Fault where
  | unclosedBracket
  | emptyBrackets
  | positionTooLarge
  | noSeparator
  | emptyName
  | trailingPoint
  | noPoint
  | strayBracket
  deriving DecidableEq

def Fault.message : Fault → String
  | unclosedBracket => "unclosed '['"
  | emptyBrackets => "empty brackets"
  | positionTooLarge => "index out of range"
  | noSeparator => "expected '.' or '[' after ']'"
  | emptyName => "empty field name"
  | trailingPoint => "trailing '.'"
  | noPoint => "expected '.' before field name"
  | strayBracket => "unexpected ']'"

/-- A fault and the bytes before it in the text without surrounding white space. -/
structure ParseError where
  input : String
  position : Nat
  fault : Fault
  deriving DecidableEq

def ParseError.message (error : ParseError) : String :=
  s!"invalid field path '{error.input}' at byte {error.position}: {error.fault.message}"

/-- Whether the content of a bracket is a position. -/
def isPosition (content : List Char) : Bool :=
  content.all isAsciiDigit

/-- The segment that a bracket with this content stands for. -/
def bracketed (content : List Char) : Option Segment :=
  if !isPosition content then some (.key (String.ofList content))
  else if digitsValue content < 18446744073709551616 then some (.index (digitsValue content))
  else none

/-- Whether a path may go on with `text` after a bracket. -/
def continues : List Char → Bool
  | [] => true
  | c :: _ => c == '.' || c == '['

def isNameEnd (c : Char) : Bool :=
  c == '.' || c == '['

/-- The segments of a text, or what is wrong with it and the text from there on. `nameDue` says
that a field name may come next, as it may at the start and after a point. -/
def scan (nameDue : Bool) (text : List Char) : Except (Fault × List Char) (List Segment) :=
  match text with
  | [] => .ok []
  | c :: rest =>
    if c = '[' then
      match _h : rest.dropWhile (· != ']') with
      | [] => .error (.unclosedBracket, text)
      | _ :: after =>
        let content := rest.takeWhile (· != ']')
        if content.isEmpty then .error (.emptyBrackets, text)
        else
          match bracketed content with
          | none => .error (.positionTooLarge, rest)
          | some segment =>
            if continues after then (scan false after).map (segment :: ·)
            else .error (.noSeparator, after)
    else if c = '.' then
      if nameDue then .error (.emptyName, text)
      else if rest.isEmpty then .error (.trailingPoint, rest)
      else scan true rest
    else if !nameDue then .error (.noPoint, text)
    else
      let name := c :: rest.takeWhile (!isNameEnd ·)
      if name.contains ']' then .error (.strayBracket, text)
      else (scan false (rest.dropWhile (!isNameEnd ·))).map (.field (String.ofList name) :: ·)
termination_by text.length
decreasing_by
  · have := (List.dropWhile_suffix (· != ']') (l := rest)).length_le
    rw [_h] at this
    simp only [List.length_cons] at this ⊢
    omega
  · simp
  · have := (List.dropWhile_suffix (!isNameEnd ·) (l := rest)).length_le
    simp only [List.length_cons]
    omega

/-- The path that a text spells. -/
def parse (input : String) : Except ParseError Path :=
  let text := trim input.toList
  if text = [] ∨ text = rootText.toList then .ok root
  else
    match scan (text.head? != some '[') text with
    | .ok segments => .ok ⟨segments⟩
    | .error (fault, rest) => .error ⟨input, offsetOf text rest, fault⟩

/-- The path that the text of `path` spells, in which a key of digits has become a position; two
paths address the same value when their canonical forms are equal. A path whose text spells no
path is its own canonical form. -/
def canonical (path : Path) : Path :=
  match parse path.toText with
  | .ok read => read
  | .error _ => path

end TaggedSchema.Path
