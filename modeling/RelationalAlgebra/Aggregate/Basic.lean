import RelationalAlgebra.Binary64.Arithmetic
import RelationalAlgebra.Heading
import RelationalAlgebra.Scalar.Comparison

/-!
# Aggregates

Reducing the values of a group to one. Sums stay integers while they fit into 64 bits and become
floating-point numbers at the first value or total that does not. An average is always a
floating-point number. The least and the greatest value are taken in the order of conditions, and
of equal values the first.
-/

namespace RelationalAlgebra

namespace Scalar

/-- An integer as a scalar if it fits into 64 bits. -/
def ofInt? (n : Int) : Option Scalar :=
  if Int64.minValue.toInt ≤ n ∧ n ≤ Int64.maxValue.toInt then some (.int (Int64.ofInt n))
  else none

/-- The sum of two numbers, for an operation that is named in the error if one is no number. The
sum of two integers that does not fit into 64 bits is a floating-point number. -/
def plus (operation : String) : Scalar → Scalar → Except Error Scalar
  | .int a, .int b =>
    .ok ((ofInt? (a.toInt + b.toInt)).getD
      (.float ((Binary64.ofInt a.toInt).add (Binary64.ofInt b.toInt))))
  | .int a, .float b => .ok (.float ((Binary64.ofInt a.toInt).add b))
  | .float a, .int b => .ok (.float (a.add (Binary64.ofInt b.toInt)))
  | .float a, .float b => .ok (.float (a.add b))
  | a, b => .error (mismatch operation a b)

/-- The sum of numbers, from the first to the last. -/
def total (operation : String) (values : List Scalar) : Except Error Scalar :=
  values.foldlM (plus operation) (.int 0)

end Scalar

namespace AggregateKind

/-- The better of two values for a kind that prefers one order; the old one if they are equal. -/
def better (kind : AggregateKind) (preferred : Ordering) (old new : Scalar) :
    Except Error Scalar :=
  (new.compareWithin kind.name old).map fun order => if order = preferred then new else old

/-- The first value that is extreme in the preferred direction. -/
def extreme (kind : AggregateKind) (preferred : Ordering) : List Scalar → Except Error Scalar
  | [] => .error (.emptyGroup kind)
  | first :: rest => rest.foldlM (better kind preferred) first

/-- Reduces a list of values. The count and the sum of no values are zero; the other kinds need a
value. -/
def reduce (kind : AggregateKind) (values : List Scalar) : Except Error Scalar :=
  match kind with
  | .count => .ok (.int (Int64.ofInt values.length))
  | .sum => Scalar.total kind.name values
  | .avg =>
    if values = [] then .error (.emptyGroup kind) else do
      let total ← Scalar.total kind.name values
      return .float ((total.asFloat?.getD Binary64.nan).div (Binary64.ofInt values.length))
  | .min => extreme kind .lt values
  | .max => extreme kind .gt values

/-- The kind that a user names. -/
def ofText (text : String) : Except Error AggregateKind :=
  match ofName? text with
  | some kind => .ok kind
  | none => .error (.unknownAggregate text)

end AggregateKind

/-- A kind of aggregate bound to the attribute whose values it reduces. -/
structure Aggregate where
  kind : AggregateKind
  attr : Attribute
deriving DecidableEq

/-- Reduces the values that an attribute has in a group of records. -/
def Aggregate.apply (aggregate : Aggregate) (group : List Record) : Except Error Scalar := do
  let values ← group.mapM fun record => record.get aggregate.attr
  aggregate.kind.reduce values

/-- An aggregate and the attribute that its result is given. -/
structure Aggregation where
  aggregate : Aggregate
  output : Attribute
deriving DecidableEq

end RelationalAlgebra
