/-!
# Attributes

The name of a column. A plain name may be qualified, once or more, to tell the columns of two
relations apart. `a.b` as a plain name and `b` qualified by `a` look the same when displayed and
are different attributes.
-/

namespace RelationalAlgebra

/-- The name of a column. -/
inductive Attribute where
  | name (text : String)
  | qualified (qualifier : String) (inner : Attribute)
deriving DecidableEq

namespace Attribute

/-- The attribute without its outermost qualifier. -/
def unqualified : Attribute → Attribute
  | .name text => .name text
  | .qualified _ inner => inner

/-- The plain name inside all qualifiers. -/
def baseName : Attribute → String
  | .name text => text
  | .qualified _ inner => inner.baseName

/-- The text of an attribute: the qualifiers and the plain name with points between them. -/
def display : Attribute → String
  | .name text => text
  | .qualified qualifier inner => qualifier ++ "." ++ inner.display

/-- The order of attributes: plain names before qualified ones, then qualifier by qualifier. -/
def compare : Attribute → Attribute → Ordering
  | .name a, .name b => Ord.compare a b
  | .name _, .qualified _ _ => .lt
  | .qualified _ _, .name _ => .gt
  | .qualified p a, .qualified q b => (Ord.compare p q).then (a.compare b)

/-- A list of attributes in ascending order. -/
def sort (attributes : List Attribute) : List Attribute :=
  attributes.mergeSort fun a b => (a.compare b).isLE

/-- The texts of attributes in a list, with commas between them. -/
def displayList (attributes : List Attribute) : String :=
  ", ".intercalate (attributes.map display)

end Attribute

/-- The attributes of the columns of a relation, in order. Repetitions are allowed. -/
abbrev Heading := List Attribute

end RelationalAlgebra
