import RelationalAlgebra.Digest.Hex
import RelationalAlgebra.Json.Relation
import RelationalAlgebra.Operator
import RelationalAlgebra.Relation.Fingerprint
import RelationalAlgebra.Version
import RelationalAlgebra.Proofs.Binary64.Integer
import RelationalAlgebra.Proofs.Scalar.Order
import RelationalAlgebra.Proofs.Binary64.Rounding
import RelationalAlgebra.Proofs.Scalar.Agreement
import RelationalAlgebra.Proofs.Outcome
import RelationalAlgebra.Proofs.TupleSet.Membership
import RelationalAlgebra.Proofs.Aggregate.Outcomes
import RelationalAlgebra.Proofs.Operator.Outcomes
import RelationalAlgebra.Proofs.Operator.Planning
import RelationalAlgebra.Proofs.Relation.Run
import RelationalAlgebra.Proofs.Heading.Values
import RelationalAlgebra.Proofs.Relation.Tuples
import RelationalAlgebra.Proofs.Operator.Deferred
import RelationalAlgebra.Proofs.Relation.NaturalJoin
import RelationalAlgebra.Proofs.Date.Text
import RelationalAlgebra.Proofs.Fingerprint.Bytes
import RelationalAlgebra.Proofs.Fingerprint.Scalars
import RelationalAlgebra.Proofs.Relation.OuterJoin
import RelationalAlgebra.Proofs.Relation.RepeatedAttributes
import RelationalAlgebra.Proofs.Fingerprint.Relations
import RelationalAlgebra.Proofs.Relation.SameHeading
import RelationalAlgebra.Proofs.Aggregate.Matching
import RelationalAlgebra.Proofs.Relation.Interchange
import RelationalAlgebra.Proofs.Relabel.Conditions
import RelationalAlgebra.Proofs.Relabel.Relations
import RelationalAlgebra.Proofs.Operator.Relabel
import RelationalAlgebra.Proofs.Aggregate.Sums
import RelationalAlgebra.Proofs.Relation.Partition
import RelationalAlgebra.Proofs.Relation.Grouping
import RelationalAlgebra.Proofs.Aggregate.Totals
import RelationalAlgebra.Proofs.Relation.GroupedSums
import RelationalAlgebra.Proofs.Decimal.Numerals
import RelationalAlgebra.Proofs.Json.Strings
import RelationalAlgebra.Proofs.Json.Tokens
import RelationalAlgebra.Proofs.Json.Values
import RelationalAlgebra.Proofs.Json.Forms
import RelationalAlgebra.Proofs.Json.Expression
import RelationalAlgebra.Proofs.Binary64.Bounds
import RelationalAlgebra.Proofs.Decimal.Reading
import RelationalAlgebra.Proofs.Json.Accepted
import RelationalAlgebra.Proofs.Json.Relation
import RelationalAlgebra.Proofs.Json.RoundTrip
import RelationalAlgebra.Proofs.Predicate.Strictness
import RelationalAlgebra.Proofs.Predicate.Fields
import RelationalAlgebra.Proofs.Relation.Selection
import RelationalAlgebra.Proofs.Relation.RollUp
import RelationalAlgebra.Proofs.Operator.Errors
import RelationalAlgebra.Proofs.Text.Lowercase
import RelationalAlgebra.Proofs.Aggregate.Numbers
import RelationalAlgebra.Proofs.Relation.BooleanLaws
import RelationalAlgebra.Proofs.Relation.PushedSelection
import RelationalAlgebra.Proofs.Relation.TurnedJoin
import RelationalAlgebra.Proofs.Relation.Projections
import RelationalAlgebra.Proofs.Relation.Alignment
import RelationalAlgebra.Proofs.Binary64.WholePart
import RelationalAlgebra.Proofs.Binary64.Value
