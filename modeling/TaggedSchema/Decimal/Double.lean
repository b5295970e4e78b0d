/-!
# Finite numbers of double precision

A double is kept as its sign and its magnitude, the 63 bits below the sign bit. Magnitudes grow
with the absolute value, so two doubles compare as their signed magnitudes do, and the two zeros
are equal. Ratios and decimals are rounded to the nearest double in exact arithmetic, and a tie
goes to the even neighbour.
-/

namespace TaggedSchema

/-- A double that is neither infinite nor undefined. -/
structure Double where
  negative : Bool
  magnitude : Nat
  finite : magnitude < 0x7ff0000000000000
  deriving DecidableEq

namespace Double

/-- Orders doubles by value. Both zeros have rank zero. -/
def rank (d : Double) : Int :=
  if d.negative then -(d.magnitude : Int) else d.magnitude

/-- Equality of values, which does not tell the two zeros apart. -/
instance : BEq Double := ⟨fun a b => a.rank == b.rank⟩

def isZero (d : Double) : Bool :=
  d.magnitude == 0

/-- The significand `m` and the exponent `q` for which the absolute value is `m * 2 ^ q`. -/
def significand (d : Double) : Nat × Int :=
  if d.magnitude < Nat.pow 2 53 then (d.magnitude, -1074)
  else
    (d.magnitude % Nat.pow 2 52 + Nat.pow 2 52, (d.magnitude / Nat.pow 2 52 : Nat) - 1075)

/-- The quotient rounded to the nearest integer, and to the even one of two that are as near. -/
def roundHalfEven (num den : Nat) : Nat :=
  let whole := num / den
  let rest := 2 * (num % den)
  if rest < den then whole
  else if den < rest then whole + 1
  else if whole % 2 = 0 then whole
  else whole + 1

/-- The magnitude nearest to `num / den`. Rounding up to the next power of two needs no case of
its own, for then the carry moves into the exponent. -/
def nearestMagnitude (num den : Nat) : Nat :=
  if num = 0 then 0
  else
    let guess := max ((num.log2 : Int) - den.log2 - 53) (-1074)
    let scaled : Nat × Nat :=
      (num * Nat.pow 2 (-guess).toNat, den * Nat.pow 2 guess.toNat)
    if scaled.1 / scaled.2 < Nat.pow 2 53 then
      (guess + 1074).toNat * Nat.pow 2 52 + roundHalfEven scaled.1 scaled.2
    else (guess + 1075).toNat * Nat.pow 2 52 + roundHalfEven scaled.1 (2 * scaled.2)

/-- The double nearest to `num / den`, unless that is too large. -/
def ofRatio? (negative : Bool) (num den : Nat) : Option Double :=
  let magnitude := nearestMagnitude num den
  if finite : magnitude < 0x7ff0000000000000 then some ⟨negative, magnitude, finite⟩ else none

def zero (negative : Bool) : Double := ⟨negative, 0, by decide⟩

def ofInt? (n : Int) : Option Double :=
  ofRatio? (decide (n < 0)) n.natAbs 1

/-- The double nearest to `digits * 10 ^ exponent`. The bounds only spare the work of writing out
powers that are far beyond the range of doubles. -/
def ofDecimal? (negative : Bool) (digits : Nat) (exponent : Int) : Option Double :=
  let size : Int := (Nat.toDigits 10 digits).length + exponent
  if digits = 0 ∨ size < -400 then some (zero negative)
  else if 400 < size then none
  else ofRatio? negative (digits * Nat.pow 10 exponent.toNat) (Nat.pow 10 (-exponent).toNat)

end Double

end TaggedSchema
