import TaggedSchema.Pattern.Basic
import TaggedSchema.Text.Word

/-!
# Matching patterns

A text is read once. All ways to match are kept side by side, the first to be tried in front, and
a way that is found to match drops those behind it.
-/

namespace TaggedSchema.Pattern

open Text

/-- A place in a text: the character before it and the text that follows. -/
structure Cursor where
  previous : Option Char
  rest : List Char

def Cursor.isWordBoundary (cursor : Cursor) : Bool :=
  cursor.previous.any isWord != cursor.rest.head?.any isWord

def Cursor.satisfies (cursor : Cursor) : Assertion → Bool
  | .textStart => cursor.previous.isNone
  | .textEnd => cursor.rest.isEmpty
  | .lineStart => cursor.previous.all (· == '\n')
  | .lineEnd => cursor.rest.head?.all (· == '\n')
  | .wordBoundary => cursor.isWordBoundary
  | .noWordBoundary => !cursor.isWordBoundary

/-- The text between two places. -/
def textBetween (start stop : Cursor) : List Char :=
  start.rest.take (start.rest.length - stop.rest.length)

/-- The ends of groups and where they were met, the latest first. -/
abbrev Captures := List (Mark × Cursor)

namespace Captures

def place? (captures : Captures) (mark : Mark) : Option Cursor :=
  captures.lookup mark

/-- What a group has matched; nothing if it took no part in the match. -/
def text (captures : Captures) (number : Nat) : List Char :=
  match captures.place? (.opening number), captures.place? (.closing number) with
  | some start, some stop => textBetween start stop
  | _, _ => []

end Captures

/-- A way to match: the step that it has come to. -/
structure Thread where
  step : Nat
  captures : Captures

/-- The steps that may be taken without a character from the step that a way has come to. The ones
to be tried first stand in front. -/
def Thread.onward (cursor : Cursor) (thread : Thread) : Step → List Thread
  | .assertion condition next =>
    if cursor.satisfies condition then [⟨next, thread.captures⟩] else []
  | .mark mark next => [⟨next, (mark, cursor) :: thread.captures⟩]
  | .fork first second => [⟨first, thread.captures⟩, ⟨second, thread.captures⟩]
  | .char _ _ | .oneOf _ _ | .accept => []

/-- The steps that no way has come to yet. -/
abbrev Unseen := Array Bool

theorem count_setIfInBounds_lt {unseen : Unseen} {step : Nat} (h : unseen[step]? = some true) :
    (unseen.setIfInBounds step false).count true < unseen.count true := by
  obtain ⟨hlt, heq⟩ := Array.getElem?_eq_some_iff.mp h
  have hpos : 0 < unseen.count true :=
    Array.count_pos_iff.mpr (heq ▸ Array.getElem_mem hlt)
  simp only [Array.setIfInBounds, hlt, dite_true]
  rw [Array.count_set hlt, heq]
  simpa using Nat.sub_lt hpos Nat.one_pos

/-- Follow ways up to steps that take a character. These are returned in their order, up to the
first way that accepts. -/
def follow (program : Program) (cursor : Cursor) (unseen : Unseen) (waiting : List Thread) :
    List Thread → List Thread × Option Captures
  | [] => (waiting.reverse, none)
  | thread :: pending =>
    if h : unseen[thread.step]? = some true then
      have := count_setIfInBounds_lt h
      let unseen := unseen.setIfInBounds thread.step false
      match program.steps[thread.step]? with
      | some .accept => (waiting.reverse, some thread.captures)
      | some (.char _ _) | some (.oneOf _ _) =>
        follow program cursor unseen (thread :: waiting) pending
      | some step => follow program cursor unseen waiting (thread.onward cursor step ++ pending)
      | none => follow program cursor unseen waiting pending
    else follow program cursor unseen waiting pending
termination_by pending => (unseen.count true, pending.length)

/-- Let a way take a character. -/
def Thread.take? (program : Program) (c : Char) (thread : Thread) : Option Thread :=
  match program.steps[thread.step]? with
  | some (.char expected next) => if c = expected then some ⟨next, thread.captures⟩ else none
  | some (.oneOf set next) => if set.contains c then some ⟨next, thread.captures⟩ else none
  | _ => none

/-- The match of the ways that have come to a place, or of one that begins there or later. Once a
match is `found`, no more ways begin, and those that are left may still lead to a longer one. -/
def matchFrom (program : Program) (ways : List Thread) (found : Option Captures)
    (previous : Option Char) (rest : List Char) : Option Captures :=
  let cursor : Cursor := ⟨previous, rest⟩
  let beginning := if found.isSome then [] else [⟨program.start, []⟩]
  let unseen := Array.replicate program.steps.size true
  let (waiting, accepted) := follow program cursor unseen [] (ways ++ beginning)
  let found := accepted.or found
  match rest with
  | [] => found
  | c :: rest =>
    let ways := waiting.filterMap (Thread.take? program c)
    if ways.isEmpty && found.isSome then found else matchFrom program ways found (some c) rest

/-- A match: the place where it begins, the place where it ends, and what the groups have kept. -/
structure Match where
  start : Cursor
  stop : Cursor
  captures : Captures

/-- The first match at a place or after it. -/
def match? (pattern : Pattern) (cursor : Cursor) : Option Match := do
  let captures ← matchFrom pattern.program [] none cursor.previous cursor.rest
  let start ← captures.place? (.opening 0)
  let stop ← captures.place? (.closing 0)
  return ⟨start, stop, captures⟩

end TaggedSchema.Pattern
