import DenseMatmul.Decimal
import DenseMatmul.Single
/-!
# The shortest decimal that reads back

A single-precision number stands for all reals that round to it. Among the decimals in that
interval, the one with the fewest digits names it, and of those the nearest; of two equally near the
larger is taken.

The grids of whole multiples of `10 ^ x` are tried from coarse to fine. On each, only the two
neighbours of the number can be nearest, so the first grid with a neighbour inside the interval
decides. All tests are exact: everything is compared as natural numbers.
-/

namespace DenseMatmul.Decimal

/-- A positive number and the interval of reals that round to it, in units of `2 ^ exponent`. -/
structure Rounding where
  low : Nat
  value : Nat
  high : Nat
  exponent : Int
  /-- Whether the ends of the interval round to the number too. -/
  closed : Bool

/-- The rounding of a finite positive number given by its bits. The interval reaches half way to the
neighbours, of which the lower is twice as near at a power of two. -/
def Rounding.ofMagnitude (bits : Nat) : Rounding :=
  let field : Nat := bits / 0x800000
  let fraction := bits % 0x800000
  let significand := if field = 0 then fraction else 0x800000 + fraction
  { low := if fraction = 0 ∧ 1 < field then 4 * significand - 1 else 4 * significand - 2
    value := 4 * significand
    high := 4 * significand + 2
    exponent := Int.ofNat (max field 1) - 152
    closed := significand % 2 == 0 }

/-- The nearest multiple of `10 ^ x` that rounds to the number, if a neighbour of it does. -/
def Rounding.onGrid? (r : Rounding) (x : Int) : Option Decimal :=
  let unit := Nat.pow 2 r.exponent.toNat * Nat.pow 10 (-x).toNat
  let grid := Nat.pow 2 (-r.exponent).toNat * Nat.pow 10 x.toNat
  let below := r.value * unit / grid
  let inside (d : Nat) : Bool :=
    0 < d && if r.closed then r.low * unit ≤ d * grid && d * grid ≤ r.high * unit
      else r.low * unit < d * grid && d * grid < r.high * unit
  let nearAbove : Bool := grid ≤ 2 * (r.value * unit - below * grid)
  if inside (below + 1) && (nearAbove || !inside below) then some ⟨below + 1, x⟩
  else if inside below then some ⟨below, x⟩
  else none

/-- Grids from one coarser than any number to one that holds every number. -/
def grids : List Int := (List.range 190).map fun i => 39 - Int.ofNat i

/-- The shortest decimal of a finite positive number given by its bits. -/
def shortest (bits : Nat) : Decimal :=
  (grids.findSome? (Rounding.ofMagnitude bits).onGrid?).getD ⟨0, 0⟩

end DenseMatmul.Decimal
