import TaggedSchema.Decimal.Reading
import TaggedSchema.Document.Basic

/-!
# Settling unquoted scalars

Where nothing particular is wanted, an unquoted scalar is null, a boolean, a number or a text by
the way it looks. Settling a document decides this for all its scalars and makes its containers
those of JSON data.
-/

namespace TaggedSchema.Document

open Text

/-- A digit in any base up to sixteen. -/
def baseDigit? (base : Nat) (c : Char) : Option Nat :=
  let digit :=
    if '0' ≤ c ∧ c ≤ '9' then c.toNat - 48
    else if 'a' ≤ c ∧ c ≤ 'f' then c.toNat - 87
    else if 'A' ≤ c ∧ c ≤ 'F' then c.toNat - 55
    else base
  if digit < base then some digit else none

def baseValue? (base : Nat) (digits : List Char) : Option Nat :=
  if digits.isEmpty then none
  else digits.foldlM (fun value c => (baseDigit? base c).map (base * value + ·)) 0

/-- Digits that begin with a needless zero are a text. -/
def isPaddedDigits (digits : List Char) : Bool :=
  match digits with
  | '0' :: c :: rest => (c :: rest).all isAsciiDigit
  | _ => false

/-- An integer in base sixteen, eight or two behind its mark, or in base ten. -/
def unsignedInteger? : List Char → Option Nat
  | '0' :: 'x' :: digits => baseValue? 16 digits
  | '0' :: 'o' :: digits => baseValue? 8 digits
  | '0' :: 'b' :: digits => baseValue? 2 digits
  | digits => if isPaddedDigits digits then none else natural? digits

def integer? : List Char → Option Int
  | '-' :: digits => (unsignedInteger? digits).map fun n => -(n : Int)
  | '+' :: digits => (unsignedInteger? digits).map fun n => (n : Int)
  | digits => (unsignedInteger? digits).map fun n => (n : Int)

def isPaddedNumeral : List Char → Bool
  | '-' :: digits => isPaddedDigits digits
  | '+' :: digits => isPaddedDigits digits
  | digits => isPaddedDigits digits

/-- Whether an integer is beyond the words of 128 bits, and so not taken for an integer at all. -/
def isHuge (n : Int) : Bool :=
  if n < 0 then Nat.pow 2 127 < n.natAbs else Nat.pow 2 128 ≤ n.natAbs

def plainDouble? (digits : List Char) : Option Double :=
  if isPaddedNumeral digits then none else Double.decimal? digits

/-- Spellings of infinities and of what is not a number. JSON has none of them. -/
def isUndefined (spelling : String) : Bool :=
  [".inf", ".Inf", ".INF", "+.inf", "+.Inf", "+.INF", "-.inf", "-.Inf", "-.INF", ".nan", ".NaN",
    ".NAN"].contains spelling

/-- What an unquoted scalar is by its looks; none if it is an integer beyond the words of 64 bits
and yet not large enough to be a double. -/
def settlePlain? (spelling : String) : Option Document :=
  if spelling.isEmpty || isPlainNull spelling then some null
  else
    match plainBool? spelling, integer? spelling.toList, plainDouble? spelling.toList with
    | some value, _, _ => some (bool value)
    | none, some n, float =>
      if FitsSigned n ∨ FitsUnsigned n then some (number (.int n))
      else if isHuge n then some ((float.map fun d => number (.float d)).getD (text spelling))
      else none
    | none, none, some d => some (number (.float d))
    | none, none, none => some (if isUndefined spelling then null else text spelling)

mutual

def settle? : Document → Option Document
  | plain value => settlePlain? value
  | list items => (settleItems? items).map list
  | sequence items => (settleItems? items).map list
  | table entries => (settleEntries? entries).map table
  | mapping entries => (settleEntries? entries).map table
  | document => some document

def settleItems? : List Document → Option (List Document)
  | [] => some []
  | item :: items => do
    let item ← settle? item
    let items ← settleItems? items
    return item :: items

def settleEntries? : List (String × Document) → Option (List (String × Document))
  | [] => some []
  | (name, document) :: entries => do
    let document ← settle? document
    let entries ← settleEntries? entries
    return (name, document) :: entries

end

mutual

/-- The data of a document, in which a repeated name keeps its last value. -/
def value? : Document → Option Value
  | null => some .null
  | bool value => some (.bool value)
  | number value => some (.number value)
  | text value => some (.string value)
  | plain value =>
    match settlePlain? value with
    | some (bool value) => some (.bool value)
    | some (number value) => some (.number value)
    | some (text value) => some (.string value)
    | some _ => some .null
    | none => none
  | list items => (valueItems? items).map .array
  | sequence items => (valueItems? items).map .array
  | table entries => (valueMembers? entries).map Value.ofMembers
  | mapping entries => (valueMembers? entries).map Value.ofMembers

def valueItems? : List Document → Option (List Value)
  | [] => some []
  | item :: items => do
    let item ← value? item
    let items ← valueItems? items
    return item :: items

def valueMembers? : List (String × Document) → Option (List (String × Value))
  | [] => some []
  | (name, document) :: entries => do
    let value ← value? document
    let members ← valueMembers? entries
    return (name, value) :: members

end

end TaggedSchema.Document
