import RelationalAlgebra.Binary64.Arithmetic
import RelationalAlgebra.Date
import RelationalAlgebra.Decimal.Layout

/-!
# Scalars

The values that stand in the cells of a relation: nothing, truth values, 64-bit integers,
binary64 numbers, texts and dates.

A scalar is shown to a reader by its text. Texts stand for themselves, without quotes.
Floating-point numbers are shown with the fewest digits that read back as the same number, always
with a point or an exponent, which tells them from integers.
-/

namespace RelationalAlgebra

/-- A value of a cell. -/
inductive Scalar where
  | null
  | bool (value : Bool)
  | int (value : Int64)
  | float (value : Binary64)
  | text (value : String)
  | date (value : Date)
deriving DecidableEq

/-- A row of scalars. -/
abbrev Tuple := List Scalar

/-- What a scalar is, as errors name it. -/
inductive Kind where
  | null
  | bool
  | int
  | float
  | text
  | date
deriving DecidableEq

/-- The name of a kind. -/
def Kind.label : Kind → String
  | .null => "null"
  | .bool => "bool"
  | .int => "i64"
  | .float => "f64"
  | .text => "str"
  | .date => "date"

namespace Scalar

/-- The kind of a scalar. -/
def kind : Scalar → Kind
  | .null => .null
  | .bool _ => .bool
  | .int _ => .int
  | .float _ => .float
  | .text _ => .text
  | .date _ => .date

/-- Whether a scalar is the null. -/
def isNull : Scalar → Bool
  | .null => true
  | _ => false

/-- The text that a scalar is. -/
def asText? : Scalar → Option String
  | .text s => some s
  | _ => none

/-- The binary64 number nearest to a number; a scalar of another kind has none. -/
def asFloat? : Scalar → Option Binary64
  | .int n => some (Binary64.ofInt n.toInt)
  | .float x => some x
  | _ => none

end Scalar

/-! ## Texts -/

/-- Floating-point numbers are shown positionally from a ten-thousandth up to ten to the
sixteenth, and of two equally near decimals the greater one is shown. -/
def Binary64.shownLayout : Decimal.Layout :=
  ⟨-4, 16, .up⟩

/-- The text of a floating-point number. Not-a-numbers are shown alike. -/
def Binary64.display (x : Binary64) : String :=
  if x.isNaN then "NaN"
  else if x.isInfinite then if x.isNegative then "-inf" else "inf"
  else String.ofList ((shownLayout.numeral x).text false)

/-- The text of a scalar. -/
def Scalar.display : Scalar → String
  | .null => "null"
  | .bool b => if b then "true" else "false"
  | .int n => String.ofList (Decimal.intText n.toInt)
  | .float x => x.display
  | .text s => s
  | .date d => String.ofList d.text

end RelationalAlgebra
