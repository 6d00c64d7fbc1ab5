import RelationalAlgebra.Scalar.Comparison

/-!
# Sets of tuples

A set of tuples is a strictly ascending list: no two tuples in it are equal in the order. Since
equal tuples may hold different scalars, a set also says which of them stands for all. `ofList`
keeps the last of equal tuples.
-/

namespace RelationalAlgebra.TupleSet

/-- Whether every tuple of a list comes before all later ones. -/
def Ascending (tuples : List Tuple) : Prop :=
  tuples.Pairwise fun s t => Tuple.compare s t = .lt

instance (tuples : List Tuple) : Decidable (Ascending tuples) :=
  inferInstanceAs (Decidable (tuples.Pairwise _))

/-- Adds a tuple to an ascending list, unless an equal one is there already. -/
def insert (t : Tuple) : List Tuple → List Tuple
  | [] => [t]
  | u :: rest =>
    match Tuple.compare t u with
    | .lt => t :: u :: rest
    | .eq => u :: rest
    | .gt => u :: insert t rest

/-- The set of the tuples of a list. Of equal tuples it holds the last. -/
def ofList (rows : List Tuple) : List Tuple :=
  rows.foldr insert []

/-- Whether a set holds a tuple that is equal to a given one. -/
def contains (set : List Tuple) (t : Tuple) : Bool :=
  set.any (Tuple.equal t)

end RelationalAlgebra.TupleSet
