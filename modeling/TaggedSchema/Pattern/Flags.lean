import TaggedSchema.Pattern.Expr

/-!
# Flags of patterns

What can be switched on and off within a pattern, and what single items mean under the flags.
-/

namespace TaggedSchema.Pattern

/-- What can be switched within a pattern. -/
inductive Flag where
  | ignoreCase
  | multiLine
  | dotAll
  | swapGreed
  | unicode
  deriving DecidableEq

namespace Flag

def ofChar? : Char → Option Flag
  | 'i' => some ignoreCase
  | 'm' => some multiLine
  | 's' => some dotAll
  | 'U' => some swapGreed
  | 'u' => some unicode
  | _ => none

end Flag

/-- The flags that are switched on or off. Classes of characters are always those of Unicode. -/
abbrev FlagChanges := List (Flag × Bool)

structure Flags where
  ignoreCase : Bool
  multiLine : Bool
  dotAll : Bool
  swapGreed : Bool

namespace Flags

def none : Flags := ⟨false, false, false, false⟩

def set (flags : Flags) (change : Flag × Bool) : Flags :=
  match change.1 with
  | .ignoreCase => { flags with ignoreCase := change.2 }
  | .multiLine => { flags with multiLine := change.2 }
  | .dotAll => { flags with dotAll := change.2 }
  | .swapGreed => { flags with swapGreed := change.2 }
  | .unicode => flags

def setAll (flags : Flags) (changes : FlagChanges) : Flags :=
  changes.foldl set flags

def char (flags : Flags) (c : Char) : Expr :=
  .ofSet ((CharSet.char c).withCase flags.ignoreCase)

/-- A dot: every character, or every one but the line feed. -/
def dot (flags : Flags) : Expr :=
  .oneOf (CharSet.complement (if flags.dotAll then .nothing else .char '\n'))

def lineStart (flags : Flags) : Expr :=
  .assertion (if flags.multiLine then .lineStart else .textStart)

def lineEnd (flags : Flags) : Expr :=
  .assertion (if flags.multiLine then .lineEnd else .textEnd)

end Flags

end TaggedSchema.Pattern
