import Snapshot.Number.Binary

/-!
# The shortest decimal that reads back

Between two neighbouring values of a format lies their midpoint, and the reals
that round to a value are those between the midpoints on its two sides, the
midpoints included exactly if the value's pattern is even.  `shortest` walks the
decimal grids from coarse to fine.  On each it looks at the two grid points next
to the value; the first grid with one inside the interval gives the answer, and
of two points the nearer one, the greater one if they are equally near.

All comparisons are made on natural numbers, in units of
`2 ^ (-1075) * 10 ^ (-324)`.
-/

namespace Snapshot

/-- The decimal number `coefficient * 10 ^ (grid - 324)`. -/
structure Decimal where
  coefficient : Nat
  grid : Nat

/-- Decimal places after the point on the finest grid. -/
def finestGrid : Nat := 324

/-- The reals that round to a value, in comparison units. -/
structure RoundingInterval where
  value : Nat
  low : Nat
  high : Nat
  /-- The two ends belong to the interval. -/
  closed : Bool

namespace RoundingInterval

/-- The interval of a positive finite pattern without sign. -/
def ofPattern (format : FloatFormat) (pattern : Nat) : RoundingInterval :=
  let units := format.unitsOf pattern
  let scale := Nat.pow 10 finestGrid
  { value := 2 * units * scale
    low := (format.unitsOf (pattern - 1) + units) * scale
    high := (units + format.unitsOf (pattern + 1)) * scale
    closed := pattern % 2 = 0 }

/-- The point rounds to the interval's value. -/
def holds (interval : RoundingInterval) (point : Nat) : Bool :=
  if interval.closed then interval.low ≤ point && point ≤ interval.high
  else interval.low < point && point < interval.high

/-- The better of the two points of a grid next to the value, if one of them
rounds to it. -/
def onGrid (interval : RoundingInterval) (grid : Nat) : Option Decimal :=
  let step := Nat.pow 10 grid * (2 * unitsPerOne)
  let below := interval.value / step
  let nearerBelow := 2 * (interval.value % step) < step
  match interval.holds (below * step), interval.holds ((below + 1) * step) with
  | true, true => some ⟨if nearerBelow then below else below + 1, grid⟩
  | true, false => some ⟨below, grid⟩
  | false, true => some ⟨below + 1, grid⟩
  | false, false => none

/-- The point of the coarsest grid that rounds to the value.  The grids start
at `10 ^ 309`, above every value of both formats. -/
def shortest (interval : RoundingInterval) : Decimal :=
  ((List.range (finestGrid + 310)).findSome? fun i =>
    interval.onGrid (finestGrid + 309 - i)).getD ⟨0, 0⟩

end RoundingInterval

/-- The shortest decimal for a positive finite pattern without sign. -/
def FloatFormat.shortest (format : FloatFormat) (pattern : Nat) : Decimal :=
  (RoundingInterval.ofPattern format pattern).shortest

end Snapshot
