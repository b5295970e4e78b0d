import TaggedSchema.Pattern.Program

/-!
# Patterns

A pattern is a regular expression with groups. Of two ways to match, the pattern says which is
tried first, and of all places where it matches the first one counts.
-/

namespace TaggedSchema

structure Pattern where
  /-- The text that the pattern was read from. -/
  source : String
  program : Pattern.Program
  /-- The numbers of the groups that have names. The whole match has the number zero. -/
  names : List (String × Nat)

end TaggedSchema
