import RelationalAlgebra.Error

/-!
# Headings and records

A heading resolves an attribute to its first position. Operations on two relations ask whether
their headings share attributes, or are the same.

A record is a tuple together with the heading that names its values. Expressions are evaluated on
records.
-/

namespace RelationalAlgebra

namespace Heading

/-- The first position of an attribute. -/
def indexOf (heading : Heading) (attr : Attribute) : Except Error Nat :=
  match heading.idxOf? attr with
  | some i => .ok i
  | none => .error (.missingAttribute attr)

/-- The first positions of some attributes. The first one that is missing is the error. -/
def positions (heading : Heading) (attrs : List Attribute) : Except Error (List Nat) :=
  attrs.mapM heading.indexOf

/-- The attributes of the left heading that occur in the right one, in the order of the left. -/
def shared (left right : Heading) : Heading :=
  left.filter fun a => right.contains a

/-- The attributes of a heading that do not occur in another one. -/
def without (heading other : Heading) : Heading :=
  heading.filter fun a => !other.contains a

/-- Fails unless no attribute occurs in both headings. -/
def ensureDisjoint (left right : Heading) : Except Error Unit :=
  if shared left right = [] then .ok () else .error (.attributeConflict (shared left right))

/-- Fails unless the headings are the same, order included. -/
def ensureSame (left right : Heading) : Except Error Unit :=
  if left = right then .ok () else .error (.headingMismatch left right)

end Heading

/-- The values of a tuple at some positions. -/
def Tuple.pick (positions : List Nat) (t : Tuple) : Tuple :=
  positions.map fun i => t[i]?.getD .null

/-- A tuple whose values are named by a heading of the same length. -/
structure Record where
  heading : Heading
  values : Tuple
deriving DecidableEq

namespace Record

/-- The value at the first position of an attribute. -/
def get (record : Record) (attr : Attribute) : Except Error Scalar :=
  (record.heading.indexOf attr).map fun i => record.values[i]?.getD .null

/-- The attributes with their values, column by column. -/
def pairs (record : Record) : List (Attribute × Scalar) :=
  record.heading.zip record.values

end Record

end RelationalAlgebra
