/-!
# Binary64 numbers

A floating-point number of the IEEE 754 format with 64 bits is kept as its word: a sign bit,
eleven bits of exponent and 52 bits of fraction. All bit patterns are different values here, so
the two zeros and all not-a-numbers keep their signs and payloads.

The exact value of a finite number is read in units of the least positive one, `2 ^ (-1074)`:
`units` is an integer, and everything that is said about values is said about it.

`compare` is a total order on all bit patterns. Ordinary numbers and infinities are ordered by
value, the two zeros are equal, and a not-a-number lies beyond the infinity of its own sign, the
further the greater its payload. Since a greater magnitude never means a smaller value, the order
is that of the magnitudes taken with their signs.

`compareInt` compares a 64-bit integer with a number exactly: it never rounds the integer.

`agrees` is the equality test of the format itself, which differs from the order on the
not-a-numbers: none of them agrees with anything.
-/

namespace RelationalAlgebra

/-- A binary64 number, given by its 64 bits. -/
structure Binary64 where
  bits : UInt64
deriving DecidableEq, Inhabited

namespace Binary64

/-- The bits without the sign: the exponent field above the fraction field. -/
def magnitude (x : Binary64) : Nat :=
  x.bits.toNat % Nat.pow 2 63

/-- Whether the sign bit is set. -/
def isNegative (x : Binary64) : Bool :=
  Nat.pow 2 63 ≤ x.bits.toNat

/-- The number with the given sign bit and the given other bits. -/
def ofMagnitude (negative : Bool) (magnitude : Nat) : Binary64 :=
  ⟨UInt64.ofNat ((if negative then Nat.pow 2 63 else 0) + magnitude)⟩

/-- The magnitude of the infinities; the finite numbers lie below it, the not-a-numbers above. -/
def infinityMagnitude : Nat := 0x7FF * Nat.pow 2 52

/-- The infinity of a sign. -/
def infinity (negative : Bool) : Binary64 :=
  ofMagnitude negative infinityMagnitude

/-- The zero of a sign. -/
def zero (negative : Bool) : Binary64 :=
  ofMagnitude negative 0

/-- The quiet not-a-number without a sign and without a payload. -/
def nan : Binary64 := ⟨0x7FF8000000000000⟩

/-- The not-a-number that an operation without a result gives. -/
def indefinite : Binary64 := ⟨0xFFF8000000000000⟩

/-- Whether the bits stand for no number. -/
def isNaN (x : Binary64) : Bool :=
  infinityMagnitude < x.magnitude

/-- Whether the number is one of the two infinities. -/
def isInfinite (x : Binary64) : Bool :=
  x.magnitude == infinityMagnitude

/-- Whether the number is neither infinite nor a not-a-number. -/
def isFinite (x : Binary64) : Bool :=
  x.magnitude < infinityMagnitude

/-- Whether the number is one of the two zeros. -/
def isZero (x : Binary64) : Bool :=
  x.magnitude == 0

/-- The number of the same magnitude and the other sign. -/
def neg (x : Binary64) : Binary64 :=
  ofMagnitude (!x.isNegative) x.magnitude

/-- The exponent field, where zero, which marks the subnormal numbers, counts as one. -/
def exponentField (x : Binary64) : Nat :=
  max 1 (x.magnitude / Nat.pow 2 52)

/-- The fraction field, with the leading bit that normal numbers leave out. -/
def significand (x : Binary64) : Nat :=
  x.magnitude % Nat.pow 2 52 + if x.magnitude < Nat.pow 2 52 then 0 else Nat.pow 2 52

/-- The exact size of a finite number, in units of `2 ^ (-1074)`. -/
def unitSize (x : Binary64) : Nat :=
  x.significand * Nat.pow 2 (x.exponentField - 1)

/-- The exact value of a finite number, in units of `2 ^ (-1074)`. -/
def units (x : Binary64) : Int :=
  if x.isNegative then -(x.unitSize : Int) else x.unitSize

/-- How many units make one. -/
def unitsPerOne : Nat := Nat.pow 2 1074

/-- The integer between zero and a finite number that is nearest to the number. -/
def truncate (x : Binary64) : Int :=
  let whole : Nat := x.unitSize / unitsPerOne
  if x.isNegative then -(whole : Int) else whole

/-- What a finite number has beyond its integer part, in units of `2 ^ (-1074)`, with the sign
of the number. -/
def fractionUnits (x : Binary64) : Int :=
  let rest : Nat := x.unitSize % unitsPerOne
  if x.isNegative then -(rest : Int) else rest

/-- Whether a finite number is an integer. -/
def isIntegral (x : Binary64) : Bool :=
  x.fractionUnits == 0

/-- The integer part of a number as a 64-bit integer. -/
def toInt64 (x : Binary64) : Int64 :=
  Int64.ofInt x.truncate

/-- A finite number is its integer part and its fraction. -/
theorem truncate_add_fractionUnits (x : Binary64) :
    x.truncate * unitsPerOne + x.fractionUnits = x.units := by
  have h : (unitsPerOne : Int) * ((x.unitSize / unitsPerOne : Nat) : Int) +
      ((x.unitSize % unitsPerOne : Nat) : Int) = (x.unitSize : Int) := by
    exact_mod_cast Nat.div_add_mod x.unitSize unitsPerOne
  simp only [truncate, fractionUnits, units]
  generalize unitsPerOne = u at h ⊢
  split
  · rw [← h, Int.neg_mul, Int.neg_add, Int.mul_comm]
  · rw [← h, Int.mul_comm]

/-! ## Order -/

/-- The magnitude with the sign of the number. -/
def signedMagnitude (x : Binary64) : Int :=
  if x.isNegative then -(x.magnitude : Int) else x.magnitude

/-- The total order of all bit patterns, in which only the two zeros are equal. -/
def compare (x y : Binary64) : Ordering :=
  Ord.compare x.signedMagnitude y.signedMagnitude

/-- The number `2 ^ 63`, the first beyond the 64-bit integers. -/
def twoPow63 : Binary64 := ⟨0x43E0000000000000⟩

/-- The exact comparison of a 64-bit integer with a number. Beyond the range of the integers, and
for a not-a-number, the sign decides; within it the integer part does, and then the fraction. -/
def compareInt (n : Int64) (x : Binary64) : Ordering :=
  if x.isNaN then
    if x.isNegative then .gt else .lt
  else if (x.compare twoPow63).isGE then .lt
  else if (x.compare twoPow63.neg).isLT then .gt
  else (Ord.compare n x.toInt64).then (Ord.compare 0 x.fractionUnits)

/-- The equality test of the format: equal values that are numbers. -/
def agrees (x y : Binary64) : Bool :=
  !x.isNaN && !y.isNaN && x.compare y == .eq

/-- The place of a number on one line of integers, in units of `2 ^ (-1074)`: its exact value if
it is finite, and otherwise a point beyond all finite ones, the infinities first. -/
def place (x : Binary64) : Int :=
  let distance : Nat :=
    if x.isFinite then x.unitSize else Nat.pow 2 2098 + (x.magnitude - infinityMagnitude)
  if x.isNegative then -(distance : Int) else distance

end Binary64

end RelationalAlgebra
