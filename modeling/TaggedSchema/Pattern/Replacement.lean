import TaggedSchema.Pattern.Match
import TaggedSchema.Pattern.Parser

/-!
# Replacing matches

All matches of a pattern in a text are replaced, from left to right. A replacement may refer to
groups of the pattern by name or number.
-/

namespace TaggedSchema.Pattern

open Text

/-- A part of a replacement. -/
inductive Part where
  | char (c : Char)
  | reference (name : List Char)

def isReferenceChar (c : Char) : Bool :=
  c == '_' || c.isAlphanum

/-- The reference after a dollar sign: a name in braces, or the longest run of letters, digits and
underscores. -/
def readReference (text : List Char) : Option (Part × List Char) :=
  match text with
  | '\x7b' :: text =>
    match text.span (· != '\x7d') with
    | (name, _ :: rest) => some (.reference name, rest)
    | (_, []) => none
  | text =>
    match text.span isReferenceChar with
    | ([], _) => none
    | (name, rest) => some (.reference name, rest)

/-- Two dollar signs stand for one. A dollar sign with no reference after it stands for itself. -/
def readPart : List Char → Option (Part × List Char)
  | [] => none
  | '$' :: '$' :: rest => some (.char '$', rest)
  | '$' :: rest => some ((readReference rest).getD (.char '$', rest))
  | c :: rest => some (.char c, rest)

/-- The parts of a replacement. -/
def partsOf (replacement : List Char) : List Part :=
  match readPart replacement with
  | none => []
  | some (part, rest) =>
    if _h : rest.length < replacement.length then part :: partsOf rest else []
termination_by replacement.length

/-- The number of the group that a reference means. A numeral that fits a word is a number. -/
def groupNumber? (pattern : Pattern) (name : List Char) : Option Nat :=
  match unsigned? name with
  | some number => some number.toNat
  | none => pattern.names.lookup (String.ofList name)

/-- What a part is replaced by. A group that does not exist is empty. -/
def expandPart (pattern : Pattern) (captures : Captures) : Part → List Char
  | .char c => [c]
  | .reference name => ((pattern.groupNumber? name).map captures.text).getD []

/-- Replace the matches from a place on. An empty match where the one before it has `matched` is
none. -/
def replaceFrom (pattern : Pattern) (replacement : List Part) (matched : Bool) (cursor : Cursor) :
    List Char :=
  match pattern.match? cursor with
  | none => cursor.rest
  | some found =>
    let replaced := replacement.flatMap (pattern.expandPart found.captures)
    if _h : found.stop.rest.length < cursor.rest.length then
      textBetween cursor found.start ++ replaced ++
        replaceFrom pattern replacement true found.stop
    else
      let inserted := if matched then [] else replaced
      match _h : cursor.rest with
      | [] => inserted
      | c :: rest => inserted ++ c :: replaceFrom pattern replacement false ⟨some c, rest⟩
termination_by cursor.rest.length
decreasing_by
  · assumption
  · simp [_h]

/-- Replace all matches in a text. -/
def replaceAll (pattern : Pattern) (replacement text : String) : String :=
  String.ofList (pattern.replaceFrom (partsOf replacement.toList) false ⟨none, text.toList⟩)

end TaggedSchema.Pattern
