import TaggedSchema.Pattern.CharSet
import TaggedSchema.Pattern.Layout.Basic
import TaggedSchema.Pattern.Layout.PlaceTable
import TaggedSchema.Text.ByteRange

/-!
# Layout of character sets

An automaton reads the encodings of the characters of a set byte by byte. Parts of encodings that
read the same bytes share their states as long as a table remembers the numbers of the states.
-/

namespace TaggedSchema.Pattern

open Text

/-- The rows of a set, which those with the same first range have together. -/
def groupRows (rows : List (List ByteRange)) : List (ByteRange × List (List ByteRange)) :=
  (rows.splitBy fun row row' => row.head? == row'.head?).filterMap fun group =>
    match group with
    | (range :: _) :: _ => some (range, group.map List.tail)
    | _ => none

/-- States that have been laid out for a set: the number of the next one, the table of the numbers
so far, and how many successors the states have. -/
structure SetStates where
  next : Nat
  table : PlaceTable
  successors : Nat

namespace SetStates

/-- The number of the state for a key, which is a new one with some successors if the table does
not know the key. -/
def number (states : SetStates) (key : List Nat) (successors : Nat) : Nat × SetStates :=
  match states.table.find? key with
  | some number => (number, states)
  | none =>
    (states.next,
      ⟨states.next + 1, states.table.insert key states.next, states.successors + successors⟩)

/-- The state that reads rows of at most `length` ranges and then goes on with `target`. States are
shared from the end of the rows on. -/
def addRows (target length : Nat) (rows : List (List ByteRange)) (states : SetStates) :
    Nat × SetStates :=
  match length with
  | 0 => (target, states)
  | length + 1 =>
    let groups := groupRows rows
    if groups.isEmpty then (target, states)
    else
      let (edges, states) := groups.foldl (fun (edges, states) (range, tails) =>
        let (number, states) := addRows target length tails states
        (edges ++ [range.1, range.2, number], states)) ([], states)
      states.number edges groups.length

/-- A row of states, each of which reads a range and goes on with the one before it, from `target`
on. States are shared from the beginning of the row on. -/
def addRow (target : Nat) (row : List ByteRange) (states : SetStates) : SetStates :=
  (row.foldl (fun (number, states) range => states.number [number, range.1, range.2] 0)
    (target, states)).2

end SetStates

/-- No encoding is longer. -/
def longestEncoding : Nat := 4

/-- How many states of a set a table remembers. -/
def Direction.tableSize : Direction → Nat
  | forward => 10000
  | backward => 1000

/-- The states of a set. One of them is the last; backward, one has a successor for every row. -/
def Layout.set (direction : Direction) (set : CharSet) : Layout :=
  if set.ranges.all fun range => range.2 < 0x80 then
    add 2 (rangeSize * set.ranges.length)
  else fun room =>
    let rows := set.ranges.flatMap fun range => encodedRows range.1 range.2
    let table := PlaceTable.empty direction.tableSize
    match direction with
    | .forward =>
      let target := room.states
      let (_, states) := SetStates.addRows target longestEncoding rows ⟨target + 1, table, 0⟩
      add (states.next - room.states) (rangeSize * states.successors) room
    | .backward =>
      let target := room.states + 1
      let states := rows.foldl (fun (states : SetStates) row => states.addRow target row)
        ⟨target + 1, table, 0⟩
      add (states.next - room.states) (choiceSize * rows.length) room

end TaggedSchema.Pattern
