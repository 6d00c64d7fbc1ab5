import RelationalAlgebra.Binary64.Basic

/-!
# Arithmetic of binary64 numbers

Every operation is the exact one followed by one rounding. `ofRatio` is that rounding: to the
nearest number, of two equally near ones to that with the even significand, and to an infinity
beyond the greatest finite number. Sums, products and quotients of finite numbers are exact
ratios of integers, since all finite numbers are whole multiples of one unit.
-/

namespace RelationalAlgebra.Binary64

/-- The integer nearest to a ratio, of two equally near ones the even one. -/
def roundHalfEven (num den : Nat) : Nat :=
  let quotient := num / den
  let rest := num % den
  if 2 * rest < den then quotient
  else if den < 2 * rest then quotient + 1
  else quotient + quotient % 2

/-- The exponent of the leading binary digit of a positive ratio. -/
def leadingExponent (num den : Nat) : Int :=
  let estimate : Int := (num.log2 : Int) - den.log2
  if num * Nat.pow 2 (-estimate).toNat < den * Nat.pow 2 estimate.toNat then estimate - 1
  else estimate

/-- The number nearest to a ratio, of two equally near ones that with the even significand. -/
def ofRatio (negative : Bool) (num den : Nat) : Binary64 :=
  if num = 0 ∨ den = 0 then zero negative else
  let grid : Int := max (leadingExponent num den - 52) (-1074)
  let rounded := roundHalfEven (num * Nat.pow 2 (-grid).toNat) (den * Nat.pow 2 grid.toNat)
  let magnitude := (grid + 1074).toNat * Nat.pow 2 52 + rounded
  ofMagnitude negative (min magnitude infinityMagnitude)

/-- The number nearest to an integer. -/
def ofInt (n : Int) : Binary64 :=
  ofRatio (n < 0) n.natAbs 1

/-- A not-a-number as an operation passes it on, marked as quiet. -/
def quiet (x : Binary64) : Binary64 :=
  ⟨x.bits ||| 0x0008000000000000⟩

/-- The sum of two numbers. A sum that is exactly zero is negative only if both terms are. -/
def add (x y : Binary64) : Binary64 :=
  if x.isNaN then x.quiet
  else if y.isNaN then y.quiet
  else if x.isInfinite then
    if y.isInfinite && x.isNegative != y.isNegative then indefinite else x
  else if y.isInfinite then y
  else
    let total := x.units + y.units
    if total = 0 then zero (x.isNegative && y.isNegative)
    else ofRatio (total < 0) total.natAbs unitsPerOne

/-- The product of two numbers. -/
def mul (x y : Binary64) : Binary64 :=
  let negative := x.isNegative != y.isNegative
  if x.isNaN then x.quiet
  else if y.isNaN then y.quiet
  else if x.isInfinite || y.isInfinite then
    if x.isZero || y.isZero then indefinite else infinity negative
  else ofRatio negative (x.unitSize * y.unitSize) (unitsPerOne * unitsPerOne)

/-- The quotient of two numbers. -/
def div (x y : Binary64) : Binary64 :=
  let negative := x.isNegative != y.isNegative
  if x.isNaN then x.quiet
  else if y.isNaN then y.quiet
  else if x.isInfinite then
    if y.isInfinite then indefinite else infinity negative
  else if y.isInfinite then zero negative
  else if y.isZero then
    if x.isZero then indefinite else infinity negative
  else ofRatio negative x.unitSize y.unitSize

end RelationalAlgebra.Binary64
