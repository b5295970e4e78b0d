/-!
# Classes of characters as ascending ranges

A property of characters is written down as the ranges of code points that have it, in ascending
order, so that a search stops at the first range beyond the character.
-/

namespace TaggedSchema.Text

/-- Whether `code` lies in one of the ranges, which are given by their first and last members and
stand in ascending order. -/
def inRanges (code : Nat) : List (Nat × Nat) → Bool
  | [] => false
  | (first, last) :: rest =>
    if code < first then false
    else if code ≤ last then true
    else inRanges code rest

/-- A run of code points that a case mapping moves by one distance: every `step`-th one from
`first` to `last` goes to the code point `shift` further on. -/
structure CaseRun where
  first : Nat
  last : Nat
  step : Nat
  shift : Int

/-- Move `code` as the first run that covers it says; a code point that none covers stays. -/
def moveByRuns (code : Nat) : List CaseRun → Nat
  | [] => code
  | run :: rest =>
    if code < run.first then code
    else if code ≤ run.last ∧ (code - run.first) % run.step = 0 then (code + run.shift).toNat
    else moveByRuns code rest

end TaggedSchema.Text
