import TaggedSchema.Path.Basic
import TaggedSchema.Value.Printer

/-!
# Violations

One broken constraint, at the path of the value that breaks it. A run of the validator yields a
list of them, in the order in which they were found.
-/

namespace TaggedSchema

inductive ViolationKind where
  | required
  | invalid
  | tooLong
  | tooMany
  | duplicate
  | notSupported
  | forbidden
  deriving DecidableEq

namespace ViolationKind

/-- The words in front of a violation's details. -/
def label : ViolationKind → String
  | required => "Required value"
  | invalid => "Invalid value"
  | tooLong => "Too long"
  | tooMany => "Too many"
  | duplicate => "Duplicate value"
  | notSupported => "Unsupported value"
  | forbidden => "Forbidden"

/-- The name under which a kind is stored. -/
def name : ViolationKind → String
  | required => "Required"
  | invalid => "Invalid"
  | tooLong => "TooLong"
  | tooMany => "TooMany"
  | duplicate => "Duplicate"
  | notSupported => "NotSupported"
  | forbidden => "Forbidden"

def all : List ViolationKind :=
  [required, invalid, tooLong, tooMany, duplicate, notSupported, forbidden]

end ViolationKind

structure Violation where
  path : Path
  kind : ViolationKind
  badValue : Option Value
  detail : String
  /-- The rule that was broken. -/
  origin : String
  /-- A hand-written check has marked this error as one that rules check as well. -/
  covered : Bool
  /-- The value lies in a field that only rules validate. -/
  native : Bool

namespace Violation

instance : BEq Violation where
  beq a b := a.path == b.path && a.kind == b.kind && a.badValue == b.badValue &&
    a.detail == b.detail && a.origin == b.origin && a.covered == b.covered && a.native == b.native

/-- An unmarked violation with neither a value nor a detail. -/
def bare (kind : ViolationKind) (path : Path) (origin : String) : Violation :=
  ⟨path, kind, none, "", origin, false, false⟩

def required (path : Path) (origin : String) : Violation :=
  bare .required path origin

def forbidden (path : Path) (detail origin : String) : Violation :=
  { bare .forbidden path origin with detail }

def invalid (path : Path) (badValue : Value) (detail origin : String) : Violation :=
  { bare .invalid path origin with badValue := some badValue, detail }

/-- A text of `actual` bytes where `max` are allowed. -/
def tooLong (path : Path) (actual max : Nat) (origin : String) : Violation :=
  { bare .tooLong path origin with
    badValue := some (Value.ofNat actual), detail := s!"may not be more than {max} bytes" }

/-- A list or map of `actual` entries where `max` are allowed. -/
def tooMany (path : Path) (actual max : Nat) (origin : String) : Violation :=
  { bare .tooMany path origin with
    badValue := some (Value.ofNat actual), detail := s!"must have at most {max} items" }

def duplicate (path : Path) (badValue : Value) (origin : String) : Violation :=
  { bare .duplicate path origin with badValue := some badValue }

/-- The supported values are listed in the given order. -/
def notSupported (path : Path) (badValue : Value) (supported : List String) (origin : String) :
    Violation :=
  { bare .notSupported path origin with
    badValue := some badValue
    detail := "supported values: " ++ String.intercalate ", " (supported.map Text.quoted) }

def markCovered (violation : Violation) : Violation := { violation with covered := true }

def markNative (violation : Violation) : Violation := { violation with native := true }

def nativeIf (violation : Violation) (native : Bool) : Violation :=
  if native then violation.markNative else violation

def relocate (violation : Violation) (path : Path) : Violation := { violation with path }

/-- Path, kind, value and detail in one line. -/
def toText (violation : Violation) : String :=
  let value := match violation.badValue with
    | some value => ": " ++ value.toText
    | none => ""
  let detail := if violation.detail.isEmpty then "" else ": " ++ violation.detail
  violation.path.toText ++ ": " ++ violation.kind.label ++ value ++ detail

end Violation

/-- One line for each violation. -/
def listText (violations : List Violation) : String :=
  String.intercalate "\n" (violations.map Violation.toText)

/-- The violations at `outer` or inside it. -/
def violationsUnder (outer : Path) (violations : List Violation) : List Violation :=
  violations.filter fun violation => violation.path.startsWith outer

end TaggedSchema
