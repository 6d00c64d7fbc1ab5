import RelationalAlgebra.Heading
import RelationalAlgebra.TupleSet

/-!
# Relations

A relation is a heading and a set of tuples of its length. `Relation` itself is any heading with
any list of tuples; `WellFormed` says that the list is such a set. Whatever is built by the
functions of this library is well formed.

Two relations are equal when their headings are the same and their tuples are equal one by one in
the order of tuples, so that equal relations may show different scalars.
-/

namespace RelationalAlgebra

/-- A heading with tuples. -/
structure Relation where
  heading : Heading
  tuples : List Tuple
deriving DecidableEq

namespace Relation

/-- The number of columns. -/
def arity (r : Relation) : Nat :=
  r.heading.length

/-- The number of tuples. -/
def size (r : Relation) : Nat :=
  r.tuples.length

/-- Whether a relation has no tuples. -/
def isEmpty (r : Relation) : Bool :=
  r.tuples.isEmpty

/-- All tuples have a value for each attribute, and they form a set. -/
def WellFormed (r : Relation) : Prop :=
  (∀ t ∈ r.tuples, t.length = r.arity) ∧ TupleSet.Ascending r.tuples

instance (r : Relation) : Decidable r.WellFormed :=
  inferInstanceAs (Decidable (_ ∧ _))

/-- The relation of a heading without tuples. -/
def empty (heading : Heading) : Relation :=
  ⟨heading, []⟩

/-- Fails with the first tuple that does not have the length of the heading. -/
def ensureArity (heading : Heading) (tuples : List Tuple) : Except Error Unit :=
  match tuples.find? fun t => t.length != heading.length with
  | some t => .error (.arity heading.length t.length)
  | none => .ok ()

/-- The relation of a set of tuples, which has to fit the heading. -/
def ofSet (heading : Heading) (set : List Tuple) : Except Error Relation := do
  ensureArity heading set
  return ⟨heading, set⟩

/-- The relation of some rows, which have to fit the heading. Of equal rows the last is kept. -/
def ofRows (heading : Heading) (rows : List Tuple) : Except Error Relation := do
  ensureArity heading rows
  return ⟨heading, TupleSet.ofList rows⟩

/-- Whether a tuple of the relation is equal to a given one. -/
def contains (r : Relation) (t : Tuple) : Bool :=
  TupleSet.contains r.tuples t

/-- The position of an attribute. -/
def indexOf (r : Relation) (attr : Attribute) : Except Error Nat :=
  r.heading.indexOf attr

/-- The record of one of the tuples. -/
def record (r : Relation) (t : Tuple) : Record :=
  ⟨r.heading, t⟩

/-- The tuples as records, in their order. -/
def records (r : Relation) : List Record :=
  r.tuples.map r.record

/-- Whether two relations have the same heading and equal tuples. -/
def equal (r s : Relation) : Bool :=
  r.heading == s.heading && r.tuples.isEqv s.tuples Tuple.equal

end Relation

end RelationalAlgebra
