import RelationalAlgebra.Aggregate.Kind
import RelationalAlgebra.Attribute
import RelationalAlgebra.Decimal.Digit
import RelationalAlgebra.Scalar.Basic

/-!
# Errors

Everything that can go wrong when a relation is built, an expression is evaluated or an operator
is planned. An error carries its cause; its wording is in `Error.message` alone.
-/

namespace RelationalAlgebra

/-- Why an operation has no result. -/
inductive Error where
  /-- A tuple or a new heading has the wrong length. -/
  | arity (expected found : Nat)
  /-- An attribute does not occur in the heading it is looked up in. -/
  | missingAttribute (missing : Attribute)
  /-- Two headings to be joined share no attribute. -/
  | noCommonAttributes (left right : Heading)
  /-- Two headings that have to be disjoint share attributes. -/
  | attributeConflict (shared : Heading)
  /-- Two headings that have to be the same differ. -/
  | headingMismatch (left right : Heading)
  /-- An aggregate that needs a value is applied to none. -/
  | emptyGroup (kind : AggregateKind)
  /-- An operation is applied to values of kinds that do not fit it. -/
  | typeMismatch (operation : String) (left right : Kind)
  /-- No lookup has the name. -/
  | unknownLookup (name : String)
  /-- No aggregate has the name. -/
  | unknownAggregate (name : String)
  /-- An operator is given the wrong number of relations. -/
  | inputCount (operator : String) (expected found : Nat)
deriving DecidableEq

/-- What sort of error has happened, regardless of the values involved. -/
inductive ErrorKind where
  | arity
  | attributes
  | attributeConflict
  | headingMismatch
  | emptyGroup
  | typeMismatch
  | unknownLookup
  | unknownAggregate
  | plan
deriving DecidableEq

namespace Error

/-- The sort of an error. -/
def kind : Error → ErrorKind
  | .arity .. => .arity
  | .missingAttribute .. => .attributes
  | .noCommonAttributes .. => .attributes
  | .attributeConflict .. => .attributeConflict
  | .headingMismatch .. => .headingMismatch
  | .emptyGroup .. => .emptyGroup
  | .typeMismatch .. => .typeMismatch
  | .unknownLookup .. => .unknownLookup
  | .unknownAggregate .. => .unknownAggregate
  | .inputCount .. => .plan

/-- The decimal text of a count in a message. -/
def countText (n : Nat) : String :=
  String.ofList (Decimal.natText n)

/-- A heading in parentheses. -/
def headingText (heading : Heading) : String :=
  "(" ++ Attribute.displayList heading ++ ")"

/-- The message of an error. -/
def message : Error → String
  | .arity expected found =>
    "arity error: expected " ++ countText expected ++ " values, found " ++ countText found
  | .missingAttribute missing =>
    "attribute error: attribute '" ++ missing.display ++ "' not found"
  | .noCommonAttributes left right =>
    "attribute error: no common attributes between " ++ headingText left ++ " and " ++
      headingText right
  | .attributeConflict shared =>
    "attribute conflict: " ++ Attribute.displayList shared ++ " present on both sides"
  | .headingMismatch left right =>
    "schema mismatch: " ++ headingText left ++ " vs " ++ headingText right
  | .emptyGroup kind => kind.name ++ " applied to an empty group"
  | .typeMismatch operation left right =>
    "type mismatch in '" ++ operation ++ "': cannot apply to " ++ left.label ++ " and " ++
      right.label
  | .unknownLookup name => "unknown lookup: " ++ name
  | .unknownAggregate name => "unknown aggregate: " ++ name
  | .inputCount operator expected found =>
    "planning error: " ++ operator ++ " expects " ++ countText expected ++ " input(s), got " ++
      countText found

/-- Outcomes can be compared when results can. -/
instance {α : Type} [DecidableEq α] : DecidableEq (Except Error α)
  | .ok a, .ok b => decidable_of_iff (a = b) ⟨congrArg Except.ok, Except.ok.inj⟩
  | .error d, .error e => decidable_of_iff (d = e) ⟨congrArg Except.error, Except.error.inj⟩
  | .ok _, .error _ => isFalse nofun
  | .error _, .ok _ => isFalse nofun

end Error

end RelationalAlgebra
