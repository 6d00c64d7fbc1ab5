import RelationalAlgebra.Heading
import RelationalAlgebra.Lookup

/-!
# Predicates

Conditions on records: comparisons of fields and literal values, joined by conjunction,
disjunction and negation. Evaluation looks at every part of a predicate, whatever the parts
before it say, so it fails exactly when some comparison in it fails, and then with the error of
the leftmost one.
-/

namespace RelationalAlgebra

/-- A side of a comparison: a value, or the field of the record under test. -/
inductive Operand where
  | literal (value : Scalar)
  | field (attr : Attribute)
deriving DecidableEq

namespace Operand

/-- The value of an operand on a record. -/
def resolve (record : Record) : Operand → Except Error Scalar
  | .literal value => .ok value
  | .field attr => record.get attr

/-- The attribute that an operand refers to. -/
def field? : Operand → Option Attribute
  | .literal _ => none
  | .field attr => some attr

end Operand

/-- A condition on a record. -/
inductive Predicate where
  | compare (lookup : Lookup) (lhs rhs : Operand)
  | all (parts : List Predicate)
  | any (parts : List Predicate)
  | not (part : Predicate)

namespace Predicate

/-- The comparison for equality of two fields. -/
def equalFields (a b : Attribute) : Predicate :=
  .compare .exact (.field a) (.field b)

mutual

/-- The truth value of a predicate on a record. All parts are evaluated; the first error wins. -/
def eval (record : Record) : Predicate → Except Error Bool
  | .compare lookup lhs rhs => do
    let a ← lhs.resolve record
    let b ← rhs.resolve record
    lookup.apply a b
  | .all parts => do
    let values ← evalList record parts
    return values.all id
  | .any parts => do
    let values ← evalList record parts
    return values.any id
  | .not part => do
    let value ← eval record part
    return !value

/-- The truth values of all predicates of a list. -/
def evalList (record : Record) : List Predicate → Except Error (List Bool)
  | [] => .ok []
  | part :: parts => do
    let value ← eval record part
    let values ← evalList record parts
    return value :: values

end

/-- A list with one more attribute at its end, unless it has that attribute already. -/
def addField (seen : List Attribute) (operand : Operand) : List Attribute :=
  match operand.field? with
  | some attr => if seen.contains attr then seen else seen ++ [attr]
  | none => seen

mutual

/-- The fields of a predicate, after those that have been seen before. -/
def fieldsAfter (seen : List Attribute) : Predicate → List Attribute
  | .compare _ lhs rhs => addField (addField seen lhs) rhs
  | .all parts => fieldsAfterList seen parts
  | .any parts => fieldsAfterList seen parts
  | .not part => fieldsAfter seen part

/-- The fields of the predicates of a list, after those that have been seen before. -/
def fieldsAfterList (seen : List Attribute) : List Predicate → List Attribute
  | [] => seen
  | part :: parts => fieldsAfterList (fieldsAfter seen part) parts

end

/-- The attributes that a predicate refers to, in the order in which they are first met. -/
def fields (predicate : Predicate) : List Attribute :=
  fieldsAfter [] predicate

end Predicate

end RelationalAlgebra
