import TestScaffold.Decimal.Binary64
import TestScaffold.Text.Digit

/-!
# The shortest decimal of a number

A floating point number is written with the fewest digits that read back as the
same number, and among those with the digits nearest to it.

For a number of digits the decimals form a grid, and if any point of the grid
reads back, one of the two neighbours of the number does.  So the two neighbours
are tried on finer and finer grids.
-/

namespace TestScaffold
namespace Decimal

open Binary64

/-- A decimal: the digits, without zeros at the end, and the place of the point before which the
number stands as `0.digits`. -/
structure Digits where
  digits : List Char
  point : Int
deriving DecidableEq, Repr

/-- The numbers that read as one binary number: its value and its bounds as multiples of one
`unit`-th, and whether the bounds belong. -/
structure Interval where
  value : Nat
  low : Nat
  high : Nat
  unit : Nat
  closed : Bool
deriving DecidableEq, Repr

/-- The decimals that read as a number. -/
def interval (significand : Nat) (exponent : Int) : Interval :=
  let ulp := Nat.pow 2 exponent.toNat
  let value := 4 * significand * ulp
  let below := if significand = hiddenBit ∧ minExponent < exponent then ulp else 2 * ulp
  { value
    low := value - below
    high := value + 2 * ulp
    unit := 4 * Nat.pow 2 (-exponent).toNat
    closed := significand % 2 == 0 }

/-- The least power of ten above a number, searched upward from a guess. -/
def pointFrom (n d : Nat) : (steps : Nat) → Int → Int
  | 0, guess => guess
  | steps + 1, guess =>
    if n * Nat.pow 10 (-guess).toNat < d * Nat.pow 10 guess.toNat then guess
    else pointFrom n d steps (guess + 1)

/-- The least power of ten above a quotient of positive numbers. -/
def pointOf (n d : Nat) : Int :=
  pointFrom n d 4 (Int.fdiv (((n.log2 : Int) - d.log2 - 1) * 30103) 100000)

/-- The grid point nearest to the number that reads back as it, if any does.  The grid has one
point for each multiple of ten to the `scale`. -/
def onGrid (range : Interval) (scale : Int) : Option Nat :=
  let step := range.unit * Nat.pow 10 scale.toNat
  let zoom := Nat.pow 10 (-scale).toNat
  let under := range.value * zoom / step
  let inside (x : Nat) : Bool :=
    if range.closed then range.low * zoom ≤ x * step && x * step ≤ range.high * zoom
    else range.low * zoom < x * step && x * step < range.high * zoom
  let toUnder := range.value * zoom - under * step
  let toOver := (under + 1) * step - range.value * zoom
  if inside under && inside (under + 1) then
    if toUnder < toOver ∨ (toUnder = toOver ∧ under % 2 = 0) then some under
    else some (under + 1)
  else if inside under then some under
  else if inside (under + 1) then some (under + 1)
  else none

/-- The first grid with a point that reads back, and that point. -/
def firstGrid (range : Interval) (point : Int) : (tries count : Nat) → Nat × Int
  | 0, count => (range.value / range.unit, point - count)
  | tries + 1, count =>
    match onGrid range (point - count) with
    | some x => (x, point - count)
    | none => firstGrid range point tries (count + 1)

/-- The shortest decimal of a positive number. -/
def shortest (significand : Nat) (exponent : Int) : Digits :=
  let range := interval significand exponent
  let (x, scale) := firstGrid range (pointOf range.value range.unit) 17 1
  let digits := Text.decimal x
  { digits := (digits.reverse.dropWhile (· == '0')).reverse
    point := scale + digits.length }

end Decimal
end TestScaffold
