/-!
# Decimal numerals

Integers are written in ASCII digits, with an optional sign, and must fit 64 bits.
-/

namespace TaggedSchema.Text

def isAsciiDigit (c : Char) : Bool :=
  '0' ≤ c && c ≤ '9'

def digitsValue (digits : List Char) : Nat :=
  digits.foldl (fun value c => 10 * value + (c.toNat - '0'.toNat)) 0

/-- One or more digits and nothing else. -/
def natural? (text : List Char) : Option Nat :=
  if text.isEmpty || !text.all isAsciiDigit then none else some (digitsValue text)

/-- The values of a signed word of 64 bits. -/
def FitsSigned (n : Int) : Prop :=
  -9223372036854775808 ≤ n ∧ n < 9223372036854775808

/-- The values of an unsigned word of 64 bits. -/
def FitsUnsigned (n : Int) : Prop :=
  0 ≤ n ∧ n < 18446744073709551616

instance (n : Int) : Decidable (FitsSigned n) := inferInstanceAs (Decidable (_ ∧ _))

instance (n : Int) : Decidable (FitsUnsigned n) := inferInstanceAs (Decidable (_ ∧ _))

private def fitting (fits : Int → Prop) [DecidablePred fits] (n : Int) : Option Int :=
  if fits n then some n else none

/-- A numeral with an optional sign whose value fits a signed word. -/
def signed? : List Char → Option Int
  | '-' :: digits => natural? digits >>= fun n => fitting FitsSigned (-(n : Int))
  | '+' :: digits => natural? digits >>= fun n => fitting FitsSigned n
  | digits => natural? digits >>= fun n => fitting FitsSigned n

/-- A numeral with an optional plus sign whose value fits an unsigned word. -/
def unsigned? : List Char → Option Int
  | '+' :: digits => natural? digits >>= fun n => fitting FitsUnsigned n
  | digits => natural? digits >>= fun n => fitting FitsUnsigned n

end TaggedSchema.Text
