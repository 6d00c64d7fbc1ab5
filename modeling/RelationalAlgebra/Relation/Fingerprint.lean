import RelationalAlgebra.Digest.Blake3
import RelationalAlgebra.Relation.Basic

/-!
# Fingerprints of relations

The fingerprint of a relation is the digest of its content, written as bytes: the arity, the
attributes, the number of tuples, and the scalars row by row. All lengths are written before what
they measure, so the bytes can be read in one way only. A floating-point number that equals a
64-bit integer is written as that integer, so equal relations have the same bytes.
-/

namespace RelationalAlgebra

namespace Fingerprint

/-- The lowest bytes of a number, the least first. -/
def littleEndian : (count : Nat) → Nat → List UInt8
  | 0, _ => []
  | count + 1, n => UInt8.ofNat n :: littleEndian count (n / 256)

/-- A word of eight bytes. -/
def wordBytes (n : Nat) : List UInt8 :=
  littleEndian 8 n

/-- A text after the number of its bytes. -/
def textBytes (s : String) : List UInt8 :=
  wordBytes s.utf8ByteSize ++ s.toUTF8.data.toList

/-- An attribute: a tag for each qualifier and for the plain name, before its text. -/
def attributeBytes : Attribute → List UInt8
  | .name text => 0 :: textBytes text
  | .qualified qualifier inner => 1 :: (textBytes qualifier ++ attributeBytes inner)

/-- A 64-bit integer after its tag. -/
def intBytes (n : Int64) : List UInt8 :=
  0 :: wordBytes n.toUInt64.toNat

/-- Whether a floating-point number equals a 64-bit integer. -/
def fitsInt64 (x : Binary64) : Bool :=
  x.isIntegral && (x.compare Binary64.twoPow63.neg).isGE && (x.compare Binary64.twoPow63).isLT

/-- A floating-point number: as an integer if it equals one, otherwise by its bits. -/
def floatBytes (x : Binary64) : List UInt8 :=
  if fitsInt64 x then intBytes x.toInt64 else 1 :: wordBytes x.bits.toNat

/-- A scalar after the rank of its kind. -/
def scalarBytes (value : Scalar) : List UInt8 :=
  UInt8.ofNat value.rank ::
    match value with
    | .null => []
    | .bool b => [if b then 1 else 0]
    | .int n => intBytes n
    | .float x => floatBytes x
    | .text s => textBytes s
    | .date d => textBytes (Scalar.date d).display

/-- The content of a relation. -/
def relationBytes (r : Relation) : List UInt8 :=
  wordBytes r.arity ++ r.heading.flatMap attributeBytes ++
    (wordBytes r.size ++ r.tuples.flatMap fun t => t.flatMap scalarBytes)

end Fingerprint

/-- The digest of the content of a relation. -/
def Relation.fingerprint (r : Relation) : Digest :=
  Blake3.digest (Fingerprint.relationBytes r)

end RelationalAlgebra
