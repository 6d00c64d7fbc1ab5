import RelationalAlgebra.Error

/-!
# Comparisons of scalars and tuples

One total order holds for scalars of all kinds: nulls, then truth values, then numbers, then
texts, then dates. Integers and floating-point numbers share one place in it and are compared by
value, without rounding, so that `1` and `1.0` are equal in the order while they are different
scalars. Two scalars that are equal in the order are one element of a set of tuples. Tuples are
ordered lexicographically, a tuple before its extensions.

The total order compares everything with everything. A condition is stricter: it orders only
values of comparable kinds, and a null is comparable with nothing. Its equality is more liberal
between numbers: an integer is rounded to a binary64 number before it is compared with one, and
not-a-numbers equal nothing.
-/

namespace RelationalAlgebra

/-! ## The total order -/

namespace Scalar

/-- The place of the kind of a scalar in the order of kinds. -/
def rank : Scalar → Nat
  | .null => 0
  | .bool _ => 1
  | .int _ => 2
  | .float _ => 2
  | .text _ => 3
  | .date _ => 4

/-- The total order of scalars. -/
def compare : Scalar → Scalar → Ordering
  | .null, .null => .eq
  | .bool a, .bool b => Ord.compare a b
  | .int a, .int b => Ord.compare a b
  | .float a, .float b => a.compare b
  | .int a, .float b => Binary64.compareInt a b
  | .float a, .int b => (Binary64.compareInt b a).swap
  | .text a, .text b => Ord.compare a b
  | .date a, .date b => a.compare b
  | a, b => Ord.compare a.rank b.rank

/-- Whether two scalars are equal in the order. -/
def equal (a b : Scalar) : Bool :=
  a.compare b == .eq

/-- A list of scalars in ascending order. Equal ones keep their order. -/
def sort (values : List Scalar) : List Scalar :=
  values.mergeSort fun a b => (a.compare b).isLE

end Scalar

namespace Tuple

/-- The lexicographic order of tuples. -/
def compare : Tuple → Tuple → Ordering :=
  List.compareLex Scalar.compare

/-- Whether two tuples are equal in the order. -/
def equal (s t : Tuple) : Bool :=
  compare s t == .eq

end Tuple

/-! ## Comparisons in conditions -/

/-- Whether values of two kinds can be ordered by a condition. -/
def Kind.comparable : Kind → Kind → Bool
  | .int, .int | .int, .float | .float, .int | .float, .float => true
  | .text, .text | .date, .date | .bool, .bool => true
  | _, _ => false

namespace Scalar

/-- The error of an operation that does not fit the kinds of two values. -/
def mismatch (operation : String) (lhs rhs : Scalar) : Error :=
  .typeMismatch operation lhs.kind rhs.kind

/-- The order of two values of comparable kinds. -/
def compareWithin (operation : String) (lhs rhs : Scalar) : Except Error Ordering :=
  if lhs.kind.comparable rhs.kind then .ok (lhs.compare rhs)
  else .error (mismatch operation lhs rhs)

/-- The equality of conditions. Numbers agree as binary64 numbers; values of other kinds agree
when they are equal in the total order. -/
def agrees : Scalar → Scalar → Bool
  | .int a, .int b => a == b
  | .float a, .float b => a.agrees b
  | .int a, .float b => (Binary64.ofInt a.toInt).agrees b
  | .float a, .int b => a.agrees (Binary64.ofInt b.toInt)
  | a, b => a.equal b

end Scalar

end RelationalAlgebra
