/-!
# Kinds of aggregates

The five ways to reduce the values of a group to one value, and their names.
-/

namespace RelationalAlgebra

/-- A way to reduce a list of values to one value. -/
inductive AggregateKind where
  | sum
  | min
  | max
  | count
  | avg
deriving DecidableEq

namespace AggregateKind

/-- All kinds, in the order in which they are listed to users. -/
def all : List AggregateKind :=
  [.sum, .min, .max, .count, .avg]

/-- The name of a kind. -/
def name : AggregateKind → String
  | .sum => "sum"
  | .min => "min"
  | .max => "max"
  | .count => "count"
  | .avg => "avg"

/-- The kind with a name. -/
def ofName? (name : String) : Option AggregateKind :=
  all.find? fun kind => kind.name == name

/-- Every kind is found by its name. -/
theorem ofName?_name (kind : AggregateKind) : ofName? kind.name = some kind := by
  cases kind <;> decide

end AggregateKind

end RelationalAlgebra
