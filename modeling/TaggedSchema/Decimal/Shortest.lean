import TaggedSchema.Decimal.Double

/-!
# The shortest decimal of a double

The text of a double has the fewest digits that read back as the same double, and of those with
as many digits it is the nearest. It is positional between one hundred-thousandth and ten to the
sixteenth, always with a point, and otherwise in powers of ten with a signed exponent.
-/

namespace TaggedSchema.Double

/-- The numbers that round to a double, in units of `2 ^ exponent`: from `low` to `high` around
`value`, with both ends if the significand is even. -/
structure Interval where
  low : Nat
  value : Nat
  high : Nat
  closed : Bool
  exponent : Int

/-- Below a power of two the next double is only half as far away. -/
def interval (d : Double) : Interval :=
  let (m, q) := d.significand
  let low := if m = Nat.pow 2 52 ∧ -1074 < q then 4 * m - 1 else 4 * m - 2
  ⟨low, 4 * m, 4 * m + 2, m % 2 == 0, q - 2⟩

/-- `x * 2 ^ exponent` in units of `10 ^ place`, as numerator and denominator. -/
def Interval.atPlace (i : Interval) (place : Int) (x : Nat) : Nat × Nat :=
  (x * Nat.pow 2 i.exponent.toNat * Nat.pow 10 (-place).toNat,
    Nat.pow 2 (-i.exponent).toNat * Nat.pow 10 place.toNat)

/-- Whether `n * 10 ^ place` rounds to the double. -/
def Interval.covers (i : Interval) (place : Int) (n : Nat) : Bool :=
  let (low, den) := i.atPlace place i.low
  let (high, _) := i.atPlace place i.high
  if i.closed then decide (low ≤ n * den ∧ n * den ≤ high)
  else decide (low < n * den ∧ n * den < high)

/-- The nearer of the value's two neighbours among the multiples of `10 ^ place`, if it rounds to
the double. -/
def Interval.onGrid (i : Interval) (place : Int) : Option Nat :=
  let (num, den) := i.atPlace place i.value
  let below := num / den
  match i.covers place below, i.covers place (below + 1) with
  | false, false => none
  | true, false => some below
  | false, true => some (below + 1)
  | true, true => some (roundHalfEven num den)

/-- The place of the leading decimal digit of `num / den`. -/
def leadingPlace (num den : Nat) : Int :=
  let guess : Int := (Nat.toDigits 10 num).length - (Nat.toDigits 10 den).length
  if den * Nat.pow 10 guess.toNat ≤ num * Nat.pow 10 (-guess).toNat then guess else guess - 1

/-- Digits and exponent of the shortest decimal that reads back as `d`; seventeen digits always
do. -/
def shortest (d : Double) : Nat × Int :=
  let i := d.interval
  let (num, den) := i.atPlace 0 i.value
  let leading := leadingPlace num den
  let found := (List.range 17).findSome? fun (more : Nat) =>
    let place := leading - (more : Int)
    (i.onGrid place).map fun digits => (digits, place)
  found.getD (0, 0)

/-- Digits of a whole number without the zeros at its end, and how many those are. -/
def withoutTrailingZeros (digits : List Char) : List Char × Nat :=
  let kept := (digits.reverse.dropWhile (· == '0')).reverse
  (kept, digits.length - kept.length)

private def zeros (n : Int) : List Char :=
  List.replicate n.toNat '0'

/-- The text of a positive number with these digits, the last of which stands at `exponent`. -/
def spell (digits : List Char) (exponent : Int) : List Char :=
  let point := digits.length + exponent
  if 0 ≤ exponent ∧ point ≤ 16 then digits ++ zeros exponent ++ ['.', '0']
  else if 0 < point ∧ point ≤ 16 then
    digits.take point.toNat ++ ['.'] ++ digits.drop point.toNat
  else if -5 < point ∧ point ≤ 0 then ['0', '.'] ++ zeros (-point) ++ digits
  else
    let fraction := if digits.length ≤ 1 then [] else '.' :: digits.drop 1
    let sign := if point - 1 < 0 then '-' else '+'
    digits.take 1 ++ fraction ++ ['e', sign] ++ Nat.toDigits 10 (point - 1).natAbs

def toText (d : Double) : String :=
  let sign := if d.negative then ['-'] else []
  if d.isZero then String.ofList (sign ++ ['0', '.', '0'])
  else
    let (digits, exponent) := d.shortest
    let (kept, dropped) := withoutTrailingZeros (Nat.toDigits 10 digits)
    String.ofList (sign ++ spell kept (exponent + dropped))

end TaggedSchema.Double
