import TaggedSchema.Pattern.Basic
import TaggedSchema.Pattern.Size
import TaggedSchema.Pattern.Token

/-!
# Reading patterns

The tokens of a pattern are taken in one after the other. Groups that are still open are kept on a
stack. Flags hold to the end of the group in which they are switched.
-/

namespace TaggedSchema.Pattern

/-- What has been read of a group: the branches before the last bar, and the items after it, both
from the last to the first. -/
structure Branches where
  branches : List (Nested Expr)
  items : List (Nested Expr)
  /-- A repetition may follow. -/
  canRepeat : Bool

namespace Branches

def nothing : Branches := ⟨[], [], false⟩

def add (group : Branches) (item : Nested Expr) : Branches :=
  ⟨group.branches, item :: group.items, true⟩

/-- A change of flags has a place in the row of items, but cannot be repeated. -/
def addFlags (group : Branches) : Branches :=
  ⟨group.branches, .leaf .empty :: group.items, false⟩

/-- The branch after the last bar. -/
def branch (group : Branches) : Nested Expr :=
  Nested.combine Expr.sequence group.items.reverse

def bar (group : Branches) : Branches :=
  ⟨group.branch :: group.branches, [], false⟩

/-- Replace the last item. -/
def repeatLast? (group : Branches) (repetition : Expr → Expr) : Option Branches :=
  match group.canRepeat, group.items with
  | true, item :: items => some { group with items := item.node repetition :: items }
  | _, _ => none

/-- The branches in their order, the first of which is tried first. -/
def expr (group : Branches) : Nested Expr :=
  Nested.combine Expr.alternation (group.branch :: group.branches).reverse

end Branches

/-- A group that is not closed yet: what comes before it, and the flags there. -/
structure OpenGroup where
  /-- The number of a group whose match is kept. -/
  number : Option Nat
  before : Branches
  flags : Flags

structure ParseState where
  here : Branches
  outer : List OpenGroup
  flags : Flags
  /-- How many groups have a number. -/
  groups : Nat
  names : List (String × Nat)

namespace ParseState

def initial : ParseState := ⟨.nothing, [], .none, 0, []⟩

/-- Open a group. No two groups may have one name. -/
def openGroup (state : ParseState) : Opening → Option ParseState
  | .plain changes => some
    { state with
      here := .nothing
      outer := ⟨none, state.here, state.flags⟩ :: state.outer
      flags := state.flags.setAll changes }
  | .capture name =>
    let number := state.groups + 1
    if name.any fun name => state.names.any fun entry => entry.1 == name then none
    else some
      { state with
        here := .nothing
        outer := ⟨some number, state.here, state.flags⟩ :: state.outer
        groups := number
        names := state.names ++ (name.map fun name => (name, number)).toList }

def closeGroup (state : ParseState) : Option ParseState :=
  match state.outer with
  | [] => none
  | group :: outer =>
    let item := state.here.expr.node fun body =>
      match group.number with
      | some number => .group number body
      | none => body
    some { state with here := group.before.add item, outer, flags := group.flags }

def take (state : ParseState) : Token → Option ParseState
  | .item item => some { state with here := state.here.add item }
  | .bar => some { state with here := state.here.bar }
  | .opening opening => state.openGroup opening
  | .closing => state.closeGroup
  | .flags changes =>
    some { state with here := state.here.addFlags, flags := state.flags.setAll changes }
  | .repetition least most greedy =>
    (state.here.repeatLast? (Expr.repeated least most greedy)).map fun here => { state with here }

/-- Take in all tokens of a text. -/
def readAll (state : ParseState) (text : List Char) : Option ParseState :=
  match readToken state.flags text with
  | none => if text.isEmpty then some state else none
  | some (token, rest) =>
    if _h : rest.length < text.length then
      match state.take token with
      | some state => readAll state rest
      | none => none
    else none
termination_by text.length

end ParseState

end Pattern

/-- The pattern that a text spells, if it spells one that is neither too deep nor too large. -/
def Pattern.parse? (source : String) : Option Pattern := do
  let state ← ParseState.initial.readAll source.toList
  let expr := state.here.expr
  if state.outer.isEmpty ∧ expr.depth ≤ Nested.depthLimit ∧ expr.value.fits then
    some ⟨source, .ofExpr expr.value, state.names⟩
  else none

end TaggedSchema
