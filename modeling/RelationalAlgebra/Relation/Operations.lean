import RelationalAlgebra.Aggregate.Basic
import RelationalAlgebra.Predicate
import RelationalAlgebra.Relation.Basic

/-!
# Operations on relations

Renaming replaces the heading by another one of the same length. Projecting keeps the columns
that are asked for, in the order in which they are asked for; tuples that become equal are then
one tuple.

Selecting keeps the tuples whose records satisfy a predicate. Fields are resolved only when a tuple
is tested, so a predicate that refers to a missing attribute fails only on a relation that has
tuples.

Grouping divides the tuples by their values at some attributes and reduces each group to one tuple:
those values, followed by the results of aggregates over the group. Values that are equal in the
order belong to one group, which shows the values of its first tuple.

Union, intersection and difference are taken of relations with the same heading. Where both hold a
tuple, the union shows that of the right relation and the intersection that of the left one.
-/

namespace RelationalAlgebra.Relation

/-! ## Columns -/

/-- The same tuples under another heading of the same length. -/
def rename (r : Relation) (heading : Heading) : Except Error Relation :=
  if heading.length = r.arity then .ok ⟨heading, r.tuples⟩
  else .error (.arity r.arity heading.length)

/-- The columns of some attributes, in the order given. -/
def project (r : Relation) (attrs : List Attribute) : Except Error Relation := do
  let positions ← r.heading.positions attrs
  return ⟨attrs, TupleSet.ofList (r.tuples.map (Tuple.pick positions))⟩

/-! ## Selection -/

/-- The tuples of a list that satisfy a predicate under a heading. The first tuple on which the
predicate fails is the error. -/
def satisfying (heading : Heading) (predicate : Predicate) : List Tuple →
    Except Error (List Tuple)
  | [] => .ok []
  | t :: rest => do
    let keep ← predicate.eval ⟨heading, t⟩
    let kept ← satisfying heading predicate rest
    return if keep then t :: kept else kept

/-- The tuples that satisfy a predicate. -/
def select (r : Relation) (predicate : Predicate) : Except Error Relation := do
  let kept ← satisfying r.heading predicate r.tuples
  return ⟨r.heading, kept⟩

/-! ## Grouping -/

/-- Tuples with equal values at the grouping attributes. -/
structure Group where
  key : Tuple
  members : List Tuple
deriving DecidableEq

/-- Puts a tuple in front of the group of its key. The group takes over the key of the tuple. -/
def addToGroup (key t : Tuple) : List Group → List Group
  | [] => [⟨key, [t]⟩]
  | group :: rest =>
    match Tuple.compare key group.key with
    | .lt => ⟨key, [t]⟩ :: group :: rest
    | .eq => ⟨key, t :: group.members⟩ :: rest
    | .gt => group :: addToGroup key t rest

/-- The groups of tuples by their values at some positions, in ascending order of the keys. -/
def groups (positions : List Nat) (tuples : List Tuple) : List Group :=
  tuples.foldr (fun t => addToGroup (t.pick positions) t) []

/-- The tuple of a group: its key and the results of the aggregates. -/
def groupRow (heading : Heading) (aggregations : List Aggregation) (group : Group) :
    Except Error Tuple := do
  let records := group.members.map (Record.mk heading)
  let results ← aggregations.mapM fun a => a.aggregate.apply records
  return group.key ++ results

/-- One tuple for each group of equal values at some attributes. -/
def groupBy (r : Relation) (keys : List Attribute) (aggregations : List Aggregation) :
    Except Error Relation := do
  let positions ← r.heading.positions keys
  let rows ← (groups positions r.tuples).mapM (groupRow r.heading aggregations)
  return ⟨keys ++ aggregations.map Aggregation.output, TupleSet.ofList rows⟩

/-! ## Boolean operations -/

/-- The tuples of either relation. -/
def union (r s : Relation) : Except Error Relation := do
  Heading.ensureSame r.heading s.heading
  ofSet r.heading (TupleSet.ofList (r.tuples ++ s.tuples))

/-- The tuples of the left relation that the right one contains. -/
def intersection (r s : Relation) : Except Error Relation := do
  Heading.ensureSame r.heading s.heading
  ofSet r.heading (TupleSet.ofList (r.tuples.filter fun t => s.contains t))

/-- The tuples of the left relation that the right one does not contain. -/
def difference (r s : Relation) : Except Error Relation := do
  Heading.ensureSame r.heading s.heading
  ofSet r.heading (TupleSet.ofList (r.tuples.filter fun t => !s.contains t))

end RelationalAlgebra.Relation
