import RelationalAlgebra.Relation.Operations

/-!
# Products and joins

The product of two relations concatenates each tuple of one with each tuple of the other. Every
join is a product from which the tuples that satisfy equations between columns are selected.

The natural join equates all columns that the relations share by name. It marks the attributes
of the two sides while it works, and shows the shared columns once. The outer join keeps the
tuples of the left relation without a partner, filled up with nulls.
-/

namespace RelationalAlgebra

/-- An equation between two columns of a product. -/
abbrev JoinPair := Attribute × Attribute

/-- The predicate that all equations hold. -/
def Predicate.equations (pairs : List JoinPair) : Predicate :=
  .all (pairs.map fun pair => equalFields pair.1 pair.2)

namespace Attribute

/-- An attribute marked as one of the left relation. -/
def onLeft (attr : Attribute) : Attribute :=
  .qualified "left" attr

/-- An attribute marked as one of the right relation. -/
def onRight (attr : Attribute) : Attribute :=
  .qualified "right" attr

end Attribute

namespace Relation

/-- The concatenations of the tuples of two relations with disjoint headings. -/
def cross (r s : Relation) : Except Error Relation := do
  Heading.ensureDisjoint r.heading s.heading
  ofSet (r.heading ++ s.heading)
    (TupleSet.ofList (r.tuples.flatMap fun t => s.tuples.map fun u => t ++ u))

/-- The tuples of the product that satisfy some equations. -/
def innerJoin (r s : Relation) (pairs : List JoinPair) : Except Error Relation := do
  let product ← r.cross s
  product.select (.equations pairs)

/-- The heading of a natural join: the left one, and what the right one has beyond it. -/
def naturalHeading (left right : Heading) : Heading :=
  left ++ right.without left

/-- Joins on every attribute that the relations share. -/
def naturalJoin (r s : Relation) : Except Error Relation := do
  let shared := Heading.shared r.heading s.heading
  if shared = [] then throw (.noCommonAttributes r.heading s.heading)
  let left ← r.rename (r.heading.map Attribute.onLeft)
  let right ← s.rename (s.heading.map Attribute.onRight)
  let joined := left.heading ++ (s.heading.without shared).map Attribute.onRight
  let product ← left.cross right
  let matching ← product.select (.equations (shared.map fun a => (a.onLeft, a.onRight)))
  let columns ← matching.project joined
  columns.rename (joined.map Attribute.unqualified)

/-- The relation with one tuple, all of whose values are null. -/
def nulls (heading : Heading) : Except Error Relation :=
  ofRows heading [List.replicate heading.length .null]

/-- The inner join, and the tuples of the left relation without a partner, followed by nulls. -/
def leftOuterJoin (r s : Relation) (pairs : List JoinPair) : Except Error Relation := do
  let joined ← r.innerJoin s pairs
  let matched ← joined.project r.heading
  let unmatched ← r.difference matched
  let padding ← nulls s.heading
  let padded ← unmatched.cross padding
  joined.union padded

end Relation

end RelationalAlgebra
