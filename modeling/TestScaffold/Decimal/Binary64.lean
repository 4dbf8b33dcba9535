/-!
# Binary floating point of 64 bits

A finite number is a sign, a significand and a power of two.  A decimal is read
as the number nearest to it, and of two equally near ones as the one with the
even significand.
-/

namespace TestScaffold

/-- A binary floating point number of 64 bits.  A finite one is worth the significand times two
to the exponent. -/
inductive Binary64 where
  | finite (negative : Bool) (significand : Nat) (exponent : Int)
  | infinite (negative : Bool)
  | nan
deriving DecidableEq, Repr, Inhabited

namespace Binary64

/-- The least significand of full precision. -/
def hiddenBit : Nat := Nat.pow 2 52

/-- The least exponent. -/
def minExponent : Int := -1074

/-- The greatest exponent. -/
def maxExponent : Int := 971

/-- Whether a number is zero, of either sign. -/
def isZero : Binary64 → Bool
  | finite _ significand _ => significand == 0
  | _ => false

/-! ## Rounding -/

/-- The quotient of two numbers, rounded to the nearest whole number; halves go to the even one. -/
def roundDiv (n d : Nat) : Nat :=
  let q := n / d
  let r := n % d
  if 2 * r < d ∨ (2 * r = d ∧ q % 2 = 0) then q else q + 1

/-- The number nearest to a quotient of positive numbers. -/
def ofRatio (negative : Bool) (n d : Nat) : Binary64 :=
  let guess : Int := n.log2 - d.log2
  let isBelow := n * Nat.pow 2 (-guess).toNat < d * Nat.pow 2 guess.toNat
  let floorLog := if isBelow then guess - 1 else guess
  let exponent := max minExponent (floorLog - 52)
  let significand := roundDiv (n * Nat.pow 2 (-exponent).toNat) (d * Nat.pow 2 exponent.toNat)
  let (significand, exponent) :=
    if significand = 2 * hiddenBit then (hiddenBit, exponent + 1) else (significand, exponent)
  if maxExponent < exponent then infinite negative else finite negative significand exponent

/-- The number nearest to `digits` times ten to the `scale`. -/
def ofDecimal (negative : Bool) (digits : Nat) (scale : Int) : Binary64 :=
  if digits = 0 ∨ scale + (digits.log2 / 3 + 1) < -400 then finite negative 0 minExponent
  else if 400 < scale then infinite negative
  else ofRatio negative (digits * Nat.pow 10 scale.toNat) (Nat.pow 10 (-scale).toNat)

end Binary64

end TestScaffold
