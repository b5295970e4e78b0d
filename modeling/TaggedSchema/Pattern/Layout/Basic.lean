/-!
# Layouts

An automaton is laid out state by state, and its states are numbered in that order. What a layout
needs is how many states there are and how much room they take; a layout that takes too much room
fails where it does.
-/

namespace TaggedSchema.Pattern

/-- The room that a state takes. -/
def stateSize : Nat := 32

/-- The room that a range of bytes in a state takes. -/
def rangeSize : Nat := 8

/-- The room that a state with several successors takes for each of them. -/
def choiceSize : Nat := 4

/-- The room that an automaton may take: 10 MiB. -/
def sizeLimit : Nat := 10 * 1024 * 1024

/-- The direction in which an automaton reads. -/
inductive Direction where
  | forward
  | backward
  deriving DecidableEq

/-- The number of the states that have been laid out, and the room that they take. -/
structure Room where
  states : Nat
  bytes : Nat

/-- Lays out more states, if there is room for them. -/
abbrev Layout := Room → Option Room

namespace Layout

/-- Lay out states that take some room beyond that of every state. -/
def add (states extra : Nat) : Layout := fun room =>
  let bytes := room.bytes + states * stateSize + extra
  if bytes ≤ sizeLimit then some ⟨room.states + states, bytes⟩ else none

/-- A state that goes on with the next one. -/
def one : Layout := add 1 0

/-- A state with two successors. -/
def fork : Layout := add 1 (2 * choiceSize)

/-- The same layout several times. -/
def times (count : Nat) (layout : Layout) : Layout := fun room =>
  match count with
  | 0 => some room
  | count + 1 =>
    match layout room with
    | some room => times count layout room
    | none => none

end Layout

end TaggedSchema.Pattern
