import RelationalAlgebra.Relation.Join

/-!
# Operators

An operator of the algebra as a value. It can be planned on the headings of its inputs, before
there are any tuples, and evaluated on relations. A plan gives the heading of the result and
checks what depends on headings alone.
-/

namespace RelationalAlgebra

/-- An operator with its parameters. -/
inductive Operator where
  | rename (heading : Heading)
  | project (attrs : List Attribute)
  | select (predicate : Predicate)
  | groupBy (keys : List Attribute) (aggregations : List Aggregation)
  | cross
  | naturalJoin
  | innerJoin (pairs : List JoinPair)
  | leftOuterJoin (pairs : List JoinPair)
  | union
  | intersection
  | difference

namespace Operator

/-- The name of an operator. -/
def name : Operator → String
  | .rename _ => "rename"
  | .project _ => "project"
  | .select _ => "select"
  | .groupBy _ _ => "group_by"
  | .cross => "cross"
  | .naturalJoin => "natural_join"
  | .innerJoin _ => "inner_join"
  | .leftOuterJoin _ => "left_outer_join"
  | .union => "union"
  | .intersection => "intersection"
  | .difference => "diff"

/-- How many relations an operator takes. -/
def inputs : Operator → Nat
  | .rename _ | .project _ | .select _ | .groupBy _ _ => 1
  | _ => 2

/-- The error of an operator that is given some number of relations. -/
def wrongInputs (operator : Operator) (found : Nat) : Error :=
  .inputCount operator.name operator.inputs found

/-- The single input of an operator that takes one. -/
def single (operator : Operator) {α : Type} : List α → Except Error α
  | [input] => .ok input
  | inputs => .error (operator.wrongInputs inputs.length)

/-- Both inputs of an operator that takes two. -/
def both (operator : Operator) {α : Type} : List α → Except Error (α × α)
  | [left, right] => .ok (left, right)
  | inputs => .error (operator.wrongInputs inputs.length)

/-- Fails unless all attributes occur in a heading. -/
def ensureAttributes (heading : Heading) (attrs : List Attribute) : Except Error Unit :=
  (heading.positions attrs).map fun _ => ()

/-- The heading of a join of two disjoint headings that has the columns of some equations. -/
def planJoin (left right : Heading) (pairs : List JoinPair) : Except Error Heading := do
  Heading.ensureDisjoint left right
  let heading := left ++ right
  ensureAttributes heading (pairs.flatMap fun pair => [pair.1, pair.2])
  return heading

/-- The heading of the result on inputs with the given headings. -/
def plan (operator : Operator) (headings : List Heading) : Except Error Heading :=
  match operator with
  | .rename new => do
    let heading ← operator.single headings
    if new.length = heading.length then return new
    else throw (.arity heading.length new.length)
  | .project attrs => do
    let heading ← operator.single headings
    ensureAttributes heading attrs
    return attrs
  | .select predicate => do
    let heading ← operator.single headings
    ensureAttributes heading predicate.fields
    return heading
  | .groupBy keys aggregations => do
    let heading ← operator.single headings
    ensureAttributes heading (keys ++ aggregations.map fun a => a.aggregate.attr)
    return keys ++ aggregations.map Aggregation.output
  | .cross => do
    let (left, right) ← operator.both headings
    planJoin left right []
  | .naturalJoin => do
    let (left, right) ← operator.both headings
    if Heading.shared left right = [] then throw (.noCommonAttributes left right)
    return Relation.naturalHeading left right
  | .innerJoin pairs => do
    let (left, right) ← operator.both headings
    planJoin left right pairs
  | .leftOuterJoin pairs => do
    let (left, right) ← operator.both headings
    planJoin left right pairs
  | .union | .intersection | .difference => do
    let (left, right) ← operator.both headings
    Heading.ensureSame left right
    return left

/-- The result on some relations. -/
def eval (operator : Operator) (relations : List Relation) : Except Error Relation :=
  match operator with
  | .rename heading => do (← operator.single relations).rename heading
  | .project attrs => do (← operator.single relations).project attrs
  | .select predicate => do (← operator.single relations).select predicate
  | .groupBy keys aggregations => do
    (← operator.single relations).groupBy keys aggregations
  | .cross => do
    let (left, right) ← operator.both relations
    left.cross right
  | .naturalJoin => do
    let (left, right) ← operator.both relations
    left.naturalJoin right
  | .innerJoin pairs => do
    let (left, right) ← operator.both relations
    left.innerJoin right pairs
  | .leftOuterJoin pairs => do
    let (left, right) ← operator.both relations
    left.leftOuterJoin right pairs
  | .union => do
    let (left, right) ← operator.both relations
    left.union right
  | .intersection => do
    let (left, right) ← operator.both relations
    left.intersection right
  | .difference => do
    let (left, right) ← operator.both relations
    left.difference right

end Operator

end RelationalAlgebra
