import RelationalAlgebra.Digest.Blake3
import RelationalAlgebra.Json.Expression
import RelationalAlgebra.Relation.Table

/-!
# Relations in JSON

Relations as JSON values, which are only written, and what belongs to them: the options of their
tables and their digests, which are read as well.
-/

namespace RelationalAlgebra

open Json

/-- The JSON value of a relation: its heading, and its tuples in order. -/
def Relation.toJson (r : Relation) : Json :=
  .record [("attrs", .array (r.heading.map Attribute.toJson)),
    ("tuples", .array (r.tuples.map fun t => .array (t.map Scalar.toJson)))]

namespace TableOptions

/-- The JSON value of the options of a table. -/
def toJson (options : TableOptions) : Json :=
  .record [("null_repr", .text options.nullText),
    ("max_rows", (options.maxRows.map fun limit => .int limit).getD .null)]

/-- Reads the greatest number of rows: a null, or a natural number below `2 ^ 64`. -/
def maxRows? : Json → Option (Option Nat)
  | .null => some none
  | j => (intWithin? 0 0xFFFFFFFFFFFFFFFF j).map fun limit => some limit.toNat

/-- Reads the options of a table. What is missing has its default. -/
def ofJson? (depth : Nat) (j : Json) : Option TableOptions :=
  match someFields? ["null_repr", "max_rows"] depth j with
  | some [nullText, maxRows] => do
    let defaults : TableOptions := {}
    let nullText ← (nullText.map text?).getD (some defaults.nullText)
    let maxRows ← (maxRows.map maxRows?).getD (some defaults.maxRows)
    return ⟨nullText, maxRows⟩
  | _ => none

end TableOptions

namespace Digest

/-- The JSON value of a digest: the list of its bytes. -/
def toJson (digest : Digest) : Json :=
  .array (digest.bytes.toList.map fun byte => .int byte.toNat)

/-- Reads a byte. -/
def byte? (j : Json) : Option UInt8 :=
  (intWithin? 0 255 j).map fun n => UInt8.ofNat n.toNat

/-- Reads a digest: a list of exactly 32 bytes. -/
def ofJson? (depth : Nat) (j : Json) : Option Digest := do
  let items ← items? depth j
  let bytes ← items.mapM byte?
  if h : bytes.length = 32 then some ⟨⟨bytes.toArray, by simpa using h⟩⟩ else none

end Digest

end RelationalAlgebra
