import RelationalAlgebra.Binary64.Basic
import RelationalAlgebra.Decimal.Numeral

/-!
# Shortest decimals of binary64 numbers

Many decimals round to the same binary64 number: those in an interval around it, which reaches
halfway to its neighbours and includes its ends exactly when the significand is even. Among
them `shortest` takes one with the fewest digits, and of those the nearest to the number.

On the grid of the decimals with a given last place, a point of the interval exists exactly when
one of the two neighbours of the number on that grid is such a point. So it is enough to look at
those two, on ever finer grids; seventeen digits always suffice.

All comparisons are between integers: the value and the ends of the interval are counted in
quarters of the least positive number.

Where the point stands in the decimal, and when an exponent is written instead of many zeros, is a
matter of layout. The formats that write floating-point numbers differ in these choices, which one
record, `Layout`, holds.
-/

namespace RelationalAlgebra.Decimal

/-! ## The decimal -/

/-- Which of two equally near decimals is taken: the greater one, or that with an even last
digit. -/
inductive Tie where
  | up
  | even
deriving DecidableEq

/-- The decimal number `coefficient * 10 ^ exponent`. -/
structure Scaled where
  coefficient : Nat
  exponent : Int
deriving DecidableEq

/-- How many quarter units make one. -/
def quartersPerOne : Nat := 4 * Binary64.unitsPerOne

/-- The size of a number in quarter units. -/
def quarters (x : Binary64) : Nat :=
  4 * x.unitSize

/-- Half the distance from a number to the next greater one, in quarter units. -/
def quartersAbove (x : Binary64) : Nat :=
  2 * Nat.pow 2 (x.exponentField - 1)

/-- Half the distance from a number to the next smaller one, in quarter units. Just below a power
of two the numbers lie twice as close. -/
def quartersBelow (x : Binary64) : Nat :=
  if x.significand = Nat.pow 2 52 ∧ 1 < x.exponentField then Nat.pow 2 (x.exponentField - 1)
  else quartersAbove x

/-- Whether a decimal rounds to the number. -/
def roundsTo (x : Binary64) (d : Scaled) : Bool :=
  let point := d.coefficient * quartersPerOne * Nat.pow 10 d.exponent.toNat
  let scale := Nat.pow 10 (-d.exponent).toNat
  let lower := (quarters x - quartersBelow x) * scale
  let upper := (quarters x + quartersAbove x) * scale
  if x.significand % 2 = 0 then lower ≤ point && point ≤ upper
  else lower < point && point < upper

/-- The decimal with the given last place that rounds to the number, if there is one: the nearer
of the two neighbours, or the tie's choice. -/
def onGrid (tie : Tie) (x : Binary64) (place : Int) : Option Scaled :=
  let value := quarters x * Nat.pow 10 (-place).toNat
  let step := quartersPerOne * Nat.pow 10 place.toNat
  let below : Scaled := ⟨value / step, place⟩
  let above : Scaled := ⟨value / step + 1, place⟩
  match roundsTo x below, roundsTo x above with
  | false, false => none
  | true, false => some below
  | false, true => some above
  | true, true =>
    let rest := 2 * (value % step)
    if rest < step then some below
    else if step < rest then some above
    else match tie with
      | .up => some above
      | .even => some (if below.coefficient % 2 = 0 then below else above)

/-- The place of the leading digit of a positive finite number. -/
def leadingPlace (x : Binary64) : Int :=
  if quartersPerOne ≤ quarters x then
    (digits (quarters x / quartersPerOne)).length - 1
  else
    -((digits ((quartersPerOne - 1) / quarters x)).length : Int)

/-- The decimal with the fewest digits that rounds to a finite number, of those the nearest. -/
def shortest (tie : Tie) (x : Binary64) : Scaled :=
  if x.isZero then ⟨0, 0⟩ else
  let lead := leadingPlace x
  ((List.range 17).findSome? fun (n : Nat) => onGrid tie x (lead - n)).getD ⟨0, 0⟩

/-! ## The layout -/

/-- How a format writes floating-point numbers: positionally when the place of the leading digit
is at least `least` and below `bound`, otherwise with an exponent. -/
structure Layout where
  least : Int
  bound : Int
  tie : Tie
deriving DecidableEq

/-- The digits of a decimal without zeros at the end, and the place of the last one. -/
def trimZeros (d : Scaled) : List Digit × Int :=
  let ds := digits d.coefficient
  let trimmed := (ds.reverse.dropWhile (· = .zero)).reverse
  if trimmed = [] then ([.zero], 0) else (trimmed, d.exponent + (ds.length - trimmed.length : Nat))

/-- The numeral with a point and at least one digit on each side of it. -/
def positional (negative : Bool) (ds : List Digit) (last : Int) : Numeral :=
  let whole : Int := ds.length + last
  if 0 ≤ last then ⟨negative, ds ++ List.replicate last.toNat .zero, [.zero], none⟩
  else if 0 < whole then ⟨negative, ds.take whole.toNat, ds.drop whole.toNat, none⟩
  else ⟨negative, [.zero], List.replicate (-whole).toNat .zero ++ ds, none⟩

/-- The numeral with one digit before the point and an exponent. -/
def scientific (negative : Bool) (ds : List Digit) (last : Int) : Numeral :=
  ⟨negative, ds.take 1, ds.drop 1, some (ds.length + last - 1)⟩

/-- The numeral of a finite number. -/
def Layout.numeral (layout : Layout) (x : Binary64) : Numeral :=
  let (ds, last) := trimZeros (shortest layout.tie x)
  let lead : Int := ds.length + last - 1
  if layout.least ≤ lead ∧ lead < layout.bound then positional x.isNegative ds last
  else scientific x.isNegative ds last

end RelationalAlgebra.Decimal
