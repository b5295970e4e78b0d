import TaggedSchema.Text.Blank
import TaggedSchema.Text.CaseFold
import TaggedSchema.Text.Word

/-!
# Sets of characters in patterns

A set is written as ranges of code points. There is one way to write a set, so that two spellings
of it in a pattern are equal.
-/

namespace TaggedSchema

open Text

/-- The first and last members of ranges in ascending order, no two of which touch. -/
structure CharSet where
  ranges : List (Nat × Nat)
  deriving DecidableEq

namespace CharSet

/-- Put a range in front of ranges that begin no earlier, and join it to those that it touches. -/
def joinRange (first last : Nat) : List (Nat × Nat) → List (Nat × Nat)
  | [] => [(first, last)]
  | (first', last') :: rest =>
    if first' ≤ last + 1 then joinRange first (max last last') rest
    else (first, last) :: (first', last') :: rest

/-- The set of the members of ranges in any order. -/
def ofRanges (ranges : List (Nat × Nat)) : CharSet :=
  let sorted := ranges.mergeSort fun left right => left.1 ≤ right.1
  ⟨sorted.foldr (fun range joined => joinRange range.1 range.2 joined) []⟩

def nothing : CharSet := ⟨[]⟩

def char (c : Char) : CharSet := ⟨[(c.toNat, c.toNat)]⟩

def digit : CharSet := ⟨digitRanges⟩

def word : CharSet := ⟨wordRanges⟩

def blank : CharSet := ⟨blankRanges⟩

def hasCode (set : CharSet) (code : Nat) : Bool :=
  inRanges code set.ranges

def contains (set : CharSet) (c : Char) : Bool :=
  set.hasCode c.toNat

def lastCode : Nat := 0x10ffff

/-- What lies between ascending ranges from `start` on. -/
def gaps (start : Nat) : List (Nat × Nat) → List (Nat × Nat)
  | [] => if start ≤ lastCode then [(start, lastCode)] else []
  | (first, last) :: rest =>
    if start < first then (start, first - 1) :: gaps (last + 1) rest else gaps (last + 1) rest

def complement (set : CharSet) : CharSet := ⟨gaps 0 set.ranges⟩

def union (left right : CharSet) : CharSet := ofRanges (left.ranges ++ right.ranges)

def intersection (left right : CharSet) : CharSet :=
  (left.complement.union right.complement).complement

def difference (left right : CharSet) : CharSet := left.intersection right.complement

def symmetricDifference (left right : CharSet) : CharSet :=
  (left.union right).difference (left.intersection right)

/-- Add the characters that are equal up to case to one in the set. -/
def foldCase (set : CharSet) : CharSet :=
  let folded := ofRanges (caseFoldPairs.filterMap fun (code, folded) =>
    if set.hasCode code || set.hasCode folded then some (folded, folded) else none)
  let codes := caseFoldPairs.filterMap fun (code, foldedCode) =>
    if folded.hasCode foldedCode then some (code, code) else none
  ofRanges (set.ranges ++ folded.ranges ++ codes)

/-- The set with case ignored or not. -/
def withCase (set : CharSet) (ignoreCase : Bool) : CharSet :=
  if ignoreCase then set.foldCase else set

/-- The ranges of the named classes of ASCII characters. -/
def namedRanges? : String → Option (List (Char × Char))
  | "alnum" => some [('0', '9'), ('A', 'Z'), ('a', 'z')]
  | "alpha" => some [('A', 'Z'), ('a', 'z')]
  | "ascii" => some [('\x00', '\x7f')]
  | "blank" => some [('\t', '\t'), (' ', ' ')]
  | "cntrl" => some [('\x00', '\x1f'), ('\x7f', '\x7f')]
  | "digit" => some [('0', '9')]
  | "graph" => some [('!', '~')]
  | "lower" => some [('a', 'z')]
  | "print" => some [(' ', '~')]
  | "punct" => some [('!', '/'), (':', '@'), ('[', '\x60'), ('\x7b', '~')]
  | "space" => some [('\t', '\r'), (' ', ' ')]
  | "upper" => some [('A', 'Z')]
  | "word" => some [('0', '9'), ('A', 'Z'), ('_', '_'), ('a', 'z')]
  | "xdigit" => some [('0', '9'), ('A', 'F'), ('a', 'f')]
  | _ => none

def named? (name : String) : Option CharSet :=
  (namedRanges? name).map fun ranges =>
    ofRanges (ranges.map fun (first, last) => (first.toNat, last.toNat))

end CharSet

end TaggedSchema
