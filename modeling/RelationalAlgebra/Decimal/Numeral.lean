import RelationalAlgebra.Binary64.Arithmetic
import RelationalAlgebra.Decimal.Digit

/-!
# Decimal numerals

A numeral is a number as it is written: a sign, whole digits, perhaps digits after the point, and
perhaps an exponent of ten. Two numerals of one number, such as `10` and `1e1`, are different.

A numeral is read as a binary64 number the quick way: collect its digits while they fit into 64
bits, round that integer, and then multiply or divide by a power of ten in floating-point
arithmetic. Numerals of up to fifteen digits and small exponents are read exactly; longer ones may
come out next to the nearest number. A numeral too great for a finite number is not read.
-/

namespace RelationalAlgebra.Decimal

/-- A decimal numeral, digit by digit. No point is written where there are no digits after it. -/
structure Numeral where
  negative : Bool
  whole : List Digit
  fraction : List Digit
  exponent : Option Int
deriving DecidableEq

namespace Numeral

/-- The numeral of an integer, without a point or an exponent. -/
def ofInt (n : Int) : Numeral :=
  ⟨n < 0, digits n.natAbs, [], none⟩

/-- The text of an exponent. A positive one carries a plus sign if `plus` says so. -/
def exponentText (plus : Bool) (e : Int) : List Char :=
  'e' :: ((if e < 0 then ['-'] else if plus then ['+'] else []) ++ natText e.natAbs)

/-- The text of a numeral. A positive exponent carries a plus sign if `plus` says so. -/
def text (plus : Bool) (n : Numeral) : List Char :=
  (if n.negative then ['-'] else []) ++ n.whole.map Digit.char ++
    (if n.fraction.isEmpty then [] else '.' :: n.fraction.map Digit.char) ++
    (n.exponent.map (exponentText plus)).getD []

/-- Reads an exponent after its mark: perhaps a sign, and at least one digit. -/
def readExponent (s : List Char) : Option Int :=
  let (negative, s) : Bool × List Char :=
    match s with
    | '-' :: s => (true, s)
    | '+' :: s => (false, s)
    | s => (false, s)
  match leadingDigits s with
  | ([], _) => none
  | (ds, []) => some (if negative then -(ofDigits ds : Int) else ofDigits ds)
  | _ => none

/-- Reads what follows the whole digits of a numeral: perhaps a point and at least one digit, and
perhaps an exponent. -/
def readTail (s : List Char) : Option (List Digit × Option Int) := do
  let (fraction, s) : List Digit × List Char ←
    match s with
    | '.' :: s =>
      match leadingDigits s with
      | ([], _) => none
      | (ds, s) => some (ds, s)
    | s => some ([], s)
  match s with
  | [] => some (fraction, none)
  | c :: s => if c = 'e' ∨ c = 'E' then do return (fraction, some (← readExponent s)) else none

/-- Reads a numeral. The whole digits start with a zero only if it is the only one. -/
def ofText? (s : List Char) : Option Numeral := do
  let (negative, s) : Bool × List Char :=
    match s with
    | '-' :: s => (true, s)
    | s => (false, s)
  let (whole, s) := leadingDigits s
  if whole = [] ∨ (whole.head? = some .zero ∧ whole ≠ [.zero]) then none
  let (fraction, exponent) ← readTail s
  return ⟨negative, whole, fraction, exponent⟩

/-- The integer that a numeral without point and exponent stands for. Minus zero is no integer. -/
def toInt? (n : Numeral) : Option Int :=
  let size := ofDigits n.whole
  if n.fraction.isEmpty && n.exponent.isNone && !(n.negative && size == 0) then
    some (if n.negative then -(size : Int) else size)
  else none

/-- The numeral of an integer stands for that integer. -/
theorem toInt?_ofInt (n : Int) : (ofInt n).toInt? = some n := by
  have hsize : ofDigits (ofInt n).whole = n.natAbs := ofDigits_digits _
  have hcond : ((ofInt n).fraction.isEmpty && (ofInt n).exponent.isNone &&
      !((ofInt n).negative && n.natAbs == 0)) = true := by
    by_cases h : n.natAbs = 0
    · have : ¬ n < 0 := by omega
      simp [ofInt, this]
    · simp only [ofInt, List.isEmpty_nil, Option.isNone_none, Bool.true_and,
        beq_eq_false_iff_ne.2 h, Bool.and_false, Bool.not_false]
  rw [toInt?, hsize, if_pos hcond]
  by_cases h : n < 0
  · rw [ofInt, if_pos (decide_eq_true h), Int.ofNat_natAbs_of_nonpos (Int.le_of_lt h), Int.neg_neg]
  · rw [ofInt, if_neg (by simp [h]), Int.natAbs_of_nonneg (Int.not_lt.1 h)]

end Numeral

/-- The decimal text of an integer. -/
def intText (n : Int) : List Char :=
  (Numeral.ofInt n).text false

/-! ## Reading as a binary64 number -/

/-- Appends digits to a number while it stays below `2 ^ 64`, and returns the digits left over. -/
def collect (n : Nat) : List Digit → Nat × List Digit
  | [] => (n, [])
  | d :: ds => if appendDigit n d < Nat.pow 2 64 then collect (appendDigit n d) ds else (n, d :: ds)

/-- The binary64 number nearest to a power of ten. -/
def powerOfTen (e : Nat) : Binary64 :=
  Binary64.ofRatio false (Nat.pow 10 e) 1

/-- The greatest power of ten that is a finite number. -/
def greatestPower : Nat := 308

/-- A number divided by a power of ten, by the greatest power as often as needed. -/
def divideByPower : (steps : Nat) → Binary64 → Nat → Binary64
  | 0, x, _ => x
  | steps + 1, x, e =>
    if e ≤ greatestPower then x.div (powerOfTen e)
    else if x.isZero then x
    else divideByPower steps (x.div (powerOfTen greatestPower)) (e - greatestPower)

/-- A number multiplied by a power of ten, if the product is finite. -/
def multiplyByPower (x : Binary64) (e : Nat) : Option Binary64 :=
  if x.isZero then some x
  else if greatestPower < e then none
  else
    let product := x.mul (powerOfTen e)
    if product.isInfinite then none else some product

/-- The binary64 number that a numeral is read as, unless it is too great. -/
def Numeral.toBinary64? (n : Numeral) : Option Binary64 :=
  let (wholePart, dropped) := collect 0 n.whole
  let (significand, unread) := collect wholePart n.fraction
  let exponent : Int :=
    n.exponent.getD 0 + dropped.length - (n.fraction.length - unread.length : Nat)
  let start := Binary64.ofInt significand
  let size :=
    if 0 ≤ exponent then multiplyByPower start exponent.toNat
    else
      let e := (-exponent).toNat
      some (divideByPower (e / greatestPower + 1) start e)
  size.map fun x => if n.negative then x.neg else x

end RelationalAlgebra.Decimal
