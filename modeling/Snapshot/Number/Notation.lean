import Snapshot.Number.Shortest

/-!
# Floating-point numbers as text

Three ways of writing a value are used.  All take the digits of the shortest
decimal that reads back and differ in where the point goes:

* `plain` never uses an exponent and writes a whole number without a point;
* `scientific` always uses one, with one digit before the point;
* `listed` is for values in a list: positional with at least one place from
  `10 ^ (-4)` up to `10 ^ 16`, and `scientific` outside that range.
-/

namespace Snapshot

/-- The digits of a decimal and the place of the point: the value is
`0.d₁d₂… * 10 ^ point`. -/
structure DigitString where
  digits : List Char
  point : Int

/-- The digits of a decimal number. -/
def Decimal.digitString (decimal : Decimal) : DigitString :=
  let digits := Nat.toDigits 10 decimal.coefficient
  ⟨digits, (digits.length + decimal.grid : Nat) - (finestGrid : Nat)⟩

namespace DigitString

/-- Positional text, with at least `places` digits after the point. -/
def positional (s : DigitString) (places : Nat) : String :=
  let zeros (n : Nat) : List Char := List.replicate n '0'
  let whole := s.point.toNat
  let before := if whole = 0 then ['0'] else s.digits.take whole ++ zeros (whole - s.digits.length)
  let after := zeros (-s.point).toNat ++ s.digits.drop whole
  let padded := after ++ zeros (places - after.length)
  String.ofList (if padded = [] then before else before ++ '.' :: padded)

/-- Text with one digit before the point and an exponent. -/
def scientific (s : DigitString) : String :=
  let tail := s.digits.drop 1
  let fraction := if tail = [] then [] else '.' :: tail
  String.ofList (s.digits.take 1 ++ fraction) ++ s!"e{s.point - 1}"

end DigitString

/-- A way of writing positive and zero values. -/
structure FloatNotation where
  zero : String
  positive : DigitString → String

namespace FloatNotation

/-- Positional, a whole number without a point. -/
def plain : FloatNotation :=
  ⟨"0", fun s => s.positional 0⟩

/-- With an exponent. -/
def scientific : FloatNotation :=
  ⟨"0e0", DigitString.scientific⟩

/-- Positional with a fraction for values of moderate size, with an exponent
for the others. -/
def listed : FloatNotation :=
  ⟨"0.0", fun s => if -3 ≤ s.point && s.point ≤ 16 then s.positional 1 else s.scientific⟩

/-- The text of a bit pattern. -/
def render (style : FloatNotation) (format : FloatFormat) (pattern : Nat) : String :=
  let signed (negative : Bool) (text : String) := if negative then "-" ++ text else text
  match format.decode pattern with
  | .notANumber => "NaN"
  | .infinite negative => signed negative "inf"
  | .finite negative 0 => signed negative style.zero
  | .finite negative _ =>
    signed negative (style.positive (format.shortest (pattern % format.signBit true)).digitString)

end FloatNotation

end Snapshot
