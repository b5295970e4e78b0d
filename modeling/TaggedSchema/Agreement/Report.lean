import TaggedSchema.Agreement.Matcher
import TaggedSchema.Agreement.Normalizer

/-!
# Agreement of two validators

The violations that the rules find are held against those of a hand-written reference. Only
reference violations that are marked as covered by rules, or as left to them, are expected from the
rules; each of them is paired with one violation of the rules.
-/

namespace TaggedSchema

/-- A violation that both validators have found. -/
structure MatchedPair where
  declarative : Violation
  reference : Violation

structure Report where
  matcher : Matcher
  matched : List MatchedPair
  unmatchedDeclarative : List Violation
  unmatchedReference : List Violation
  /-- Reference violations that are not expected from the rules. -/
  passthrough : List Violation
  /-- Violations of the rules that no reference violation could stand against. -/
  ignored : List Violation

/-- The pairs found, and what is left on either side. -/
structure Pairing where
  pairs : List MatchedPair
  declarative : List Violation
  reference : List Violation

/-- Pair each violation, in order, with the first of the reference violations left that matches
it. -/
def Matcher.pairUp (m : Matcher) : List Violation → List Violation → Pairing
  | [], reference => ⟨[], [], reference⟩
  | violation :: violations, reference =>
    match reference.find? (m.relates violation) with
    | some partner =>
      let later := m.pairUp violations (reference.eraseP (m.relates violation))
      { later with pairs := ⟨violation, partner⟩ :: later.pairs }
    | none =>
      let later := m.pairUp violations reference
      { later with declarative := violation :: later.declarative }

/-- Whether a reference violation is expected from the rules. -/
def Violation.isExpected (violation : Violation) : Bool :=
  violation.covered || violation.native

/-- Hold violations of the rules against those of the reference. A violation of the rules that
matches none of the expected ones counts only in a field that nothing else validates. -/
def agreement (normalizer : Normalizer) (matcher : Matcher)
    (declarative reference : List Violation) : Report :=
  let (expected, passthrough) := reference.partition Violation.isExpected
  let normalized := declarative.map fun violation =>
    violation.relocate (normalizer.normalize violation.path)
  let (candidates, ignored) := normalized.partition fun violation =>
    violation.native || expected.any (matcher.relates violation)
  let pairing := matcher.pairUp candidates expected
  { matcher
    matched := pairing.pairs
    unmatchedDeclarative := pairing.declarative
    unmatchedReference := pairing.reference
    passthrough
    ignored }

namespace Report

def unmatched (report : Report) : Nat :=
  report.unmatchedDeclarative.length + report.unmatchedReference.length

def passes (report : Report) : Bool :=
  report.unmatchedDeclarative.isEmpty && report.unmatchedReference.isEmpty

/-- Lines for violations under a heading, if there are any. -/
def listing (report : Report) (heading mark : String) (violations : List Violation) : String :=
  if violations.isEmpty then ""
  else
    heading ++ ":\n" ++ String.join (violations.map fun violation =>
      "  " ++ mark ++ " " ++ report.matcher.describe violation ++ "\n")

/-- The violations without a partner; empty if both validators agree. -/
def diff (report : Report) : String :=
  report.listing "declarative errors without a reference counterpart" "+"
      report.unmatchedDeclarative ++
    report.listing "reference errors without a declarative counterpart" "-"
      report.unmatchedReference

def toText (report : Report) : String :=
  let verdict := if report.passes then "PASS" else "FAIL"
  s!"{verdict}: {report.matched.length} matched, {report.passthrough.length} passthrough, " ++
    s!"{report.ignored.length} ignored\n" ++ report.diff

end Report

/-- Two validators do not agree. -/
structure Mismatch where
  unmatched : Nat
  diff : String
  deriving DecidableEq

def Mismatch.message (mismatch : Mismatch) : String :=
  s!"error lists differ ({mismatch.unmatched} unmatched):\n" ++ mismatch.diff

def Report.mismatch? (report : Report) : Option Mismatch :=
  if report.passes then none else some ⟨report.unmatched, report.diff⟩

end TaggedSchema
