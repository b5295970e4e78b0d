import TaggedSchema.Decimal.Double
import TaggedSchema.Text.Numeral

/-!
# Reading decimals

A decimal is an optional sign, digits with an optional point among them, and an optional power of
ten. At least one digit must stand beside the point.
-/

namespace TaggedSchema.Double

open Text

/-- The exponent after `e`: an optional sign and digits. -/
def exponent? : List Char → Option Int
  | '-' :: digits => (natural? digits).map fun n => -(n : Int)
  | '+' :: digits => (natural? digits).map fun n => (n : Int)
  | digits => (natural? digits).map fun n => (n : Int)

/-- A decimal without a sign in front. -/
def unsignedDecimal? (negative : Bool) (text : List Char) : Option Double := do
  let (whole, rest) := text.span isAsciiDigit
  let (fraction, rest) := match rest with
    | '.' :: rest => rest.span isAsciiDigit
    | rest => ([], rest)
  let digits := whole ++ fraction
  if digits.isEmpty then none
  else
    let exponent ← match rest with
      | [] => some 0
      | c :: rest => if c = 'e' ∨ c = 'E' then exponent? rest else none
    ofDecimal? negative (digitsValue digits) (exponent - fraction.length)

/-- The nearest double of a decimal; none if the text is not one or its value is too large. -/
def decimal? : List Char → Option Double
  | '-' :: text => unsignedDecimal? true text
  | '+' :: text => unsignedDecimal? false text
  | text => unsignedDecimal? false text

end TaggedSchema.Double
