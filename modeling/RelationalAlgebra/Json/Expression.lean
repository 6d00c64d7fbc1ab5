import RelationalAlgebra.Aggregate.Basic
import RelationalAlgebra.Decimal.Layout
import RelationalAlgebra.Json.Form
import RelationalAlgebra.Predicate
import RelationalAlgebra.Date

/-!
# Expressions in JSON

Scalars, attributes, operands, predicates and aggregates as JSON values. Every type has a writer
`toJson` and a reader `ofJson?`, which takes the number of arrays and objects that may still be
opened.
-/

namespace RelationalAlgebra

open Json

/-! ## Scalars -/

/-- Floating-point numbers are written positionally from a hundred-thousandth up to ten to the
sixteenth, and of two equally near decimals the even one is written. -/
def Binary64.writtenLayout : Decimal.Layout :=
  ⟨-5, 16, .even⟩

/-- A floating-point number that is not finite is written as a null. -/
def Binary64.toJson (x : Binary64) : Json :=
  if x.isFinite then .number (writtenLayout.numeral x) else .null

/-- Every numeral that is not too great is a floating-point number. -/
def Binary64.ofJson? : Json → Option Binary64
  | .number n => n.toBinary64?
  | _ => none

namespace Scalar

/-- The JSON value of a scalar: the name of its variant, and its content. -/
def toJson : Scalar → Json
  | .null => .text "Null"
  | .bool b => .record [("Bool", .bool b)]
  | .int n => .record [("I64", .int n.toInt)]
  | .float x => .record [("F64", x.toJson)]
  | .text s => .record [("Str", .text s)]
  | .date d => .record [("Date", .text (String.ofList d.text))]

/-- The 64-bit integer that a value is. -/
def int64? (j : Json) : Option Int64 :=
  (intWithin? Int64.minValue.toInt Int64.maxValue.toInt j).map Int64.ofInt

/-- Reads a scalar. -/
def ofJson? (depth : Nat) (j : Json) : Option Scalar :=
  match variant? depth j with
  | some ("Null", none) => some .null
  | some ("Null", some .null) => some .null
  | some ("Bool", some (.bool b)) => some (.bool b)
  | some ("I64", some content) => (int64? content).map .int
  | some ("F64", some content) => (Binary64.ofJson? content).map .float
  | some ("Str", some content) => content.text?.map .text
  | some ("Date", some content) => do
    return .date (← Date.ofText? (← content.text?).toList)
  | _ => none

end Scalar

/-! ## Attributes -/

namespace Attribute

/-- The JSON value of an attribute. -/
def toJson : Attribute → Json
  | .name s => .record [("Name", .text s)]
  | .qualified qualifier inner =>
    .record [("Qualified", .record [("qualifier", .text qualifier), ("attr", inner.toJson)])]

/-- Reads an attribute. -/
def ofJson? : (depth : Nat) → Json → Option Attribute
  | 0, _ => none
  | depth + 1, j =>
    match variant? (depth + 1) j with
    | some ("Name", some content) => content.text?.map .name
    | some ("Qualified", some content) =>
      match depth, fields? ["qualifier", "attr"] depth content with
      | inner + 1, some [qualifier, attr] => do
        return .qualified (← qualifier.text?) (← ofJson? inner attr)
      | _, _ => none
    | _ => none

end Attribute

/-! ## Predicates -/

namespace Lookup

/-- The JSON value of a lookup: its name. -/
def toJson (lookup : Lookup) : Json :=
  .text lookup.name

/-- Reads a lookup. -/
def ofJson? (depth : Nat) (j : Json) : Option Lookup :=
  choice? ofName? depth j

end Lookup

namespace Operand

/-- The JSON value of an operand. -/
def toJson : Operand → Json
  | .literal value => .record [("Literal", value.toJson)]
  | .field attr => .record [("Field", attr.toJson)]

/-- Reads an operand. -/
def ofJson? (depth : Nat) (j : Json) : Option Operand :=
  match variant? depth j with
  | some ("Literal", some content) => (Scalar.ofJson? (depth - 1) content).map .literal
  | some ("Field", some content) => (Attribute.ofJson? (depth - 1) content).map .field
  | _ => none

end Operand

namespace Predicate

mutual

/-- The JSON value of a predicate. -/
def toJson : Predicate → Json
  | .compare lookup lhs rhs =>
    .record [("Compare", .record [("lookup", lookup.toJson), ("lhs", lhs.toJson),
      ("rhs", rhs.toJson)])]
  | .all parts => .record [("And", .array (listToJson parts))]
  | .any parts => .record [("Or", .array (listToJson parts))]
  | .not part => .record [("Not", toJson part)]

/-- The JSON values of predicates. -/
def listToJson : List Predicate → List Json
  | [] => []
  | part :: parts => toJson part :: listToJson parts

end

/-- Reads a comparison after its name. -/
def comparison? (depth : Nat) (content : Json) : Option Predicate :=
  match fields? ["lookup", "lhs", "rhs"] depth content with
  | some [lookup, lhs, rhs] => do
    return .compare (← Lookup.ofJson? (depth - 1) lookup) (← Operand.ofJson? (depth - 1) lhs)
      (← Operand.ofJson? (depth - 1) rhs)
  | _ => none

/-- Reads a predicate. -/
def ofJson? : (depth : Nat) → Json → Option Predicate
  | 0, _ => none
  | depth + 1, j =>
    match variant? (depth + 1) j with
    | some ("Compare", some content) => comparison? depth content
    | some ("And", some (.array items)) =>
      match depth with
      | 0 => none
      | inner + 1 => (items.mapM (ofJson? inner)).map .all
    | some ("Or", some (.array items)) =>
      match depth with
      | 0 => none
      | inner + 1 => (items.mapM (ofJson? inner)).map .any
    | some ("Not", some content) => (ofJson? depth content).map .not
    | _ => none

end Predicate

/-! ## Aggregates -/

namespace AggregateKind

/-- The JSON value of a kind of aggregate: its name. -/
def toJson (kind : AggregateKind) : Json :=
  .text kind.name

/-- Reads a kind of aggregate. -/
def ofJson? (depth : Nat) (j : Json) : Option AggregateKind :=
  choice? ofName? depth j

end AggregateKind

namespace Aggregate

/-- The JSON value of an aggregate. -/
def toJson (aggregate : Aggregate) : Json :=
  .record [("kind", aggregate.kind.toJson), ("attr", aggregate.attr.toJson)]

/-- Reads an aggregate. -/
def ofJson? (depth : Nat) (j : Json) : Option Aggregate :=
  match fields? ["kind", "attr"] depth j with
  | some [kind, attr] => do
    return ⟨← AggregateKind.ofJson? (depth - 1) kind, ← Attribute.ofJson? (depth - 1) attr⟩
  | _ => none

end Aggregate

end RelationalAlgebra
