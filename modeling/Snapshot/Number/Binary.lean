/-!
# Binary floating point on bit patterns

Every finite value of the two stored formats is a whole number of units of
`2 ^ (-1074)`, the smallest positive double.  A value is therefore a sign and a
natural number of units, and all arithmetic on values is exact arithmetic on
natural numbers.

`FloatFormat.decode` reads the value off a bit pattern.  `FloatFormat.magnitude`
goes the other way: it finds the spacing of the format's values around a number
of units, rounds the number to that spacing (nearest, ties to even) and counts
the pattern up from zero.  A carry into the next power of two and the step from
subnormal to normal values need no case of their own, since patterns of
ascending values are consecutive.
-/

namespace Snapshot

/-- The number of units in one. -/
def unitsPerOne : Nat := Nat.pow 2 1074

/-- What a floating-point pattern denotes. -/
inductive FloatValue where
  | notANumber
  | infinite (negative : Bool)
  /-- A number of units of `2 ^ (-1074)`. -/
  | finite (negative : Bool) (units : Nat)
  deriving DecidableEq

/-- A layout of sign, exponent and fraction. -/
structure FloatFormat where
  /-- Bits after the leading one. -/
  fractionBits : Nat
  /-- Bits of the exponent. -/
  exponentBits : Nat
  /-- The smallest positive value is `2 ^ quantum` units. -/
  quantum : Nat

/-- Single precision: the smallest positive value is `2 ^ (-149)`. -/
def binary32 : FloatFormat := ⟨23, 8, 925⟩

/-- Double precision: the smallest positive value is `2 ^ (-1074)`. -/
def binary64 : FloatFormat := ⟨52, 11, 0⟩

/-- The quotient rounded to the nearest natural number; a half goes to the
even neighbour. -/
def roundQuotient (dividend divisor : Nat) : Nat :=
  let quotient := dividend / divisor
  let twice := 2 * (dividend % divisor)
  if twice < divisor then quotient
  else if divisor < twice then quotient + 1
  else quotient + quotient % 2

namespace FloatFormat

variable (format : FloatFormat)

/-- The number of patterns from one power of two to the next. -/
def binade : Nat := Nat.pow 2 format.fractionBits

/-- The exponent field of infinities and of what is not a number. -/
def topExponent : Nat := Nat.pow 2 format.exponentBits - 1

/-- The pattern of positive infinity. -/
def infinity : Nat := format.topExponent * format.binade

/-- The sign bit. -/
def signBit (negative : Bool) : Nat :=
  if negative then Nat.pow 2 (format.exponentBits + format.fractionBits) else 0

/-- The canonical quiet pattern of what is not a number. -/
def quiet : Nat := format.infinity + format.binade / 2

/-- The units of a pattern without sign, as if no exponent were special. -/
def unitsOf (pattern : Nat) : Nat :=
  let fraction := pattern % format.binade
  match pattern / format.binade with
  | 0 => fraction * Nat.pow 2 format.quantum
  | exponent + 1 => (format.binade + fraction) * Nat.pow 2 (format.quantum + exponent)

/-- The value of a pattern. -/
def decode (pattern : Nat) : FloatValue :=
  let negative := pattern / format.signBit true % 2 = 1
  let unsigned := pattern % format.signBit true
  if unsigned < format.infinity then .finite negative (format.unitsOf unsigned)
  else if unsigned = format.infinity then .infinite negative
  else .notANumber

/-- The exponent of the spacing between the format's values around a number of
units. -/
def spacing (units : Nat) : Nat :=
  max format.quantum (units.log2 - format.fractionBits)

/-- The pattern, without sign, of the value nearest to a number of units; past
the greatest finite value it is infinity. -/
def magnitude (units : Nat) : Nat :=
  let exponent := format.spacing units
  min format.infinity
    ((exponent - format.quantum) * format.binade + roundQuotient units (Nat.pow 2 exponent))

/-- The pattern of the format's value nearest to a value.  What is not a number has
many patterns, and a conversion may give any quiet one of them: that without sign and
payload stands for them here, where hardware keeps the sign and as much of the
payload as has room. -/
def encode : FloatValue → Nat
  | .notANumber => format.quiet
  | .infinite negative => format.signBit negative + format.infinity
  | .finite negative units => format.signBit negative + format.magnitude units

/-- The pattern of the format's value nearest to a natural number. -/
def ofNat (n : Nat) : Nat :=
  format.encode (.finite false (n * unitsPerOne))

end FloatFormat

namespace FloatValue

/-- The value with its fraction dropped, clamped to `0 … greatest`; what is not
a number counts as zero. -/
def truncate (greatest : Nat) : FloatValue → Nat
  | notANumber => 0
  | infinite negative => if negative then 0 else greatest
  | finite negative units => if negative then 0 else min greatest (units / unitsPerOne)

/-- The same value with the other sign. -/
def negate : FloatValue → FloatValue
  | notANumber => notANumber
  | infinite negative => infinite !negative
  | finite negative units => finite (!negative) units

/-- The exact sum of two values that are not negative. -/
def addUnsigned : FloatValue → FloatValue → FloatValue
  | finite _ left, finite _ right => finite false (left + right)
  | notANumber, _ | _, notANumber => notANumber
  | _, _ => infinite false

end FloatValue

end Snapshot
