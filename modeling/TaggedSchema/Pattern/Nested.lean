import TaggedSchema.Pattern.Expr

/-!
# Depth of what is read

A pattern may not be nested too deeply. What is read from it carries the number of levels: groups,
repetitions, brackets and operators are levels of their own, and so is a row of several items.
-/

namespace TaggedSchema.Pattern

structure Nested (α : Type) where
  value : α
  depth : Nat

namespace Nested

variable {α β : Type}

/-- An item with nothing in it. -/
def leaf (value : α) : Nested α := ⟨value, 0⟩

/-- A level around an item. -/
def node (make : α → β) (inner : Nested α) : Nested β := ⟨make inner.value, inner.depth + 1⟩

def pair (left : Nested α) (right : Nested β) : Nested (α × β) :=
  ⟨(left.value, right.value), max left.depth right.depth⟩

/-- Several items form a level; one item or none does not. -/
def combine (make : List α → β) (items : List (Nested α)) : Nested β :=
  let depth := items.foldl (fun depth item => max depth item.depth) 0
  ⟨make (items.map Nested.value), if 2 ≤ items.length then depth + 1 else depth⟩

/-- How deep a pattern may be. -/
def depthLimit : Nat := 250

end Nested

end TaggedSchema.Pattern
