import RelationalAlgebra.Json.Expression
import RelationalAlgebra.Proofs.Date.Text
import RelationalAlgebra.Proofs.Json.Forms
import RelationalAlgebra.Proofs.Predicate.Comparisons

/-!
# Expressions read back

Scalars, attributes, operands, predicates and aggregates are read back from their JSON values
exactly if as much may be opened as they open.  Nothing is asked of what they hold, apart from the
floating-point numbers: each has to read back from its own number text, which is a property of this
text and of the quick way in which numerals are read.

The nested types are taken by induction on the value, for all numbers of arrays and objects that
may be opened at once; the parts of a conjunction or a disjunction go through `mapM_map`.
-/

namespace RelationalAlgebra

open Json

/-- Whether the number text of a floating-point number is read as the number. -/
def Binary64.ReadsBack (x : Binary64) : Prop :=
  (Binary64.writtenLayout.numeral x).toBinary64? = some x

instance (x : Binary64) : Decidable x.ReadsBack :=
  inferInstanceAs (Decidable (_ = _))

-- The number text `1.9755512200227625e-10` is read as a number next to the one it was written for.
example : ¬ Binary64.ReadsBack ⟨4461702575078561980⟩ := by decide +kernel

/-! ## Scalars -/

namespace Scalar

/-- The floating-point numbers in a scalar. -/
def floats : Scalar → List Binary64
  | .float x => [x]
  | _ => []

/-- The JSON value of a scalar is well formed. -/
@[simp] lemma wellFormed_toJson (v : Scalar) : v.toJson.WellFormed := by
  cases v with
  | float x =>
    have hx : x.toJson.WellFormed := by
      unfold Binary64.toJson
      split
      · rw [wellFormed_number]
        exact Binary64.writtenLayout.wellFormed_numeral x
      · exact wellFormed_null
    simp [toJson, hx]
  | _ => simp [toJson]

/-- A 64-bit integer is read back. -/
lemma int64?_int (n : Int64) : int64? (.int n.toInt) = some n := by
  have hlow : Int64.minValue.toInt ≤ n.toInt := n.le_toInt
  have hhigh : n.toInt ≤ Int64.maxValue.toInt := Int.le_of_lt_add_one n.toInt_lt
  rw [int64?, intWithin?_int hlow hhigh, Option.map_some, Int64.ofInt_toInt]

/-- A scalar is read back as soon as what it opens may be opened, if its number is. -/
lemma ofJson?_toJson {v : Scalar} (h : ∀ x ∈ v.floats, x.isFinite = true ∧ x.ReadsBack)
    (depth : Nat) :
    ofJson? depth v.toJson = if v.toJson.nesting ≤ depth then some v else none := by
  cases depth with
  | zero => cases v <;> simp [toJson, ofJson?]
  | succ depth =>
    cases v with
    | null => simp [toJson, ofJson?]
    | bool b => simp [toJson, ofJson?, nesting]
    | int n => simp [toJson, ofJson?, int64?_int]
    | float x =>
      obtain ⟨hfinite, hx⟩ := h x (List.mem_singleton_self x)
      have hjson : x.toJson = .number (Binary64.writtenLayout.numeral x) := if_pos hfinite
      rw [Binary64.ReadsBack] at hx
      simp [toJson, ofJson?, hjson, Binary64.ofJson?, hx, nesting]
    | text s => simp [toJson, ofJson?]
    | date d => simp [toJson, ofJson?, Date.ofText?_text]

end Scalar

/-! ## Attributes -/

namespace Attribute

/-- The JSON value of an attribute is well formed. -/
@[simp] lemma wellFormed_toJson (attr : Attribute) : attr.toJson.WellFormed := by
  induction attr with
  | name s => simp [toJson]
  | qualified qualifier inner ih => simp [toJson, ih]

/-- An attribute is read back as soon as what it opens may be opened. -/
lemma ofJson?_toJson (attr : Attribute) (depth : Nat) :
    ofJson? depth attr.toJson = if attr.toJson.nesting ≤ depth then some attr else none := by
  induction attr generalizing depth with
  | name s =>
    cases depth with
    | zero => simp [toJson, ofJson?]
    | succ depth => simp [toJson, ofJson?]
  | qualified qualifier inner ih =>
    match depth with
    | 0 => simp [toJson, ofJson?]
    | 1 => simp [toJson, ofJson?]
    | depth + 2 =>
      by_cases hdepth : inner.toJson.nesting ≤ depth <;> simp [toJson, ofJson?, ih, hdepth]

end Attribute

/-! ## Predicates -/

/-- A lookup opens nothing. -/
@[simp] lemma Lookup.nesting_toJson (lookup : Lookup) : lookup.toJson.nesting = 0 := rfl

/-- The JSON value of a lookup is well formed. -/
@[simp] lemma Lookup.wellFormed_toJson (lookup : Lookup) : lookup.toJson.WellFormed :=
  wellFormed_text _

/-- A lookup is read back. -/
lemma Lookup.ofJson?_toJson (lookup : Lookup) (depth : Nat) :
    ofJson? depth lookup.toJson = some lookup :=
  choice?_text (ofName?_name lookup) depth

namespace Operand

/-- The floating-point numbers in an operand. -/
def floats : Operand → List Binary64
  | .literal value => value.floats
  | .field _ => []

/-- The JSON value of an operand is well formed. -/
@[simp] lemma wellFormed_toJson (operand : Operand) : operand.toJson.WellFormed := by
  cases operand <;> simp [toJson]

/-- An operand is read back as soon as what it opens may be opened, if its numbers are. -/
lemma ofJson?_toJson {operand : Operand}
    (h : ∀ x ∈ operand.floats, x.isFinite = true ∧ x.ReadsBack) (depth : Nat) :
    ofJson? depth operand.toJson =
      if operand.toJson.nesting ≤ depth then some operand else none := by
  cases depth with
  | zero => cases operand <;> simp [toJson, ofJson?]
  | succ depth =>
    cases operand with
    | literal value =>
      have hvalue := Scalar.ofJson?_toJson h depth
      by_cases hdepth : value.toJson.nesting ≤ depth <;> simp [toJson, ofJson?, hvalue, hdepth]
    | field attr =>
      have hattr := Attribute.ofJson?_toJson attr depth
      by_cases hdepth : attr.toJson.nesting ≤ depth <;> simp [toJson, ofJson?, hattr, hdepth]

end Operand

/-- The floating-point numbers in a comparison. -/
def Comparison.floats (c : Comparison) : List Binary64 :=
  c.lhs.floats ++ c.rhs.floats

namespace Predicate

/-- The floating-point numbers in a predicate. -/
def floats (predicate : Predicate) : List Binary64 :=
  predicate.comparisons.flatMap Comparison.floats

/-- The numbers in several predicates are those in each of them. -/
lemma mem_floats_list {parts : List Predicate} {x : Binary64} :
    x ∈ (comparisonsList parts).flatMap Comparison.floats ↔ ∃ part ∈ parts, x ∈ part.floats := by
  rw [comparisonsList_eq_flatMap, List.flatMap_assoc, List.mem_flatMap]
  rfl

/-- The parts of a predicate are written one after the other. -/
lemma listToJson_eq_map (parts : List Predicate) : listToJson parts = parts.map toJson := by
  induction parts with
  | nil => rfl
  | cons part parts ih => rw [listToJson, ih, List.map_cons]

/-- The JSON value of a predicate is well formed. -/
@[simp] lemma wellFormed_toJson (predicate : Predicate) : predicate.toJson.WellFormed := by
  induction predicate with
  | compare lookup lhs rhs => simp [toJson]
  | all parts ih => simpa [toJson, listToJson_eq_map] using ih
  | any parts ih => simpa [toJson, listToJson_eq_map] using ih
  | not part ih => simp [toJson, ih]

/-- Several predicates are read back as soon as what each opens may be opened. -/
lemma mapM_ofJson?_listToJson {parts : List Predicate} {depth : Nat}
    (h : ∀ part ∈ parts, ofJson? depth part.toJson =
      if part.toJson.nesting ≤ depth then some part else none) :
    (listToJson parts).mapM (ofJson? depth) =
      if (Json.array (listToJson parts)).nesting ≤ depth + 1 then some parts else none := by
  rw [listToJson_eq_map, mapM_map h]
  simp

/-- A comparison is read back as soon as what it opens may be opened, if its numbers are. -/
lemma comparison?_toJson (lookup : Lookup) {lhs rhs : Operand}
    (h : ∀ x ∈ lhs.floats ++ rhs.floats, x.isFinite = true ∧ x.ReadsBack) (depth : Nat) :
    comparison? (depth + 1) (.record [("lookup", lookup.toJson), ("lhs", lhs.toJson),
      ("rhs", rhs.toJson)]) =
      if lhs.toJson.nesting ≤ depth ∧ rhs.toJson.nesting ≤ depth then
        some (.compare lookup lhs rhs)
      else none := by
  rw [List.forall_mem_append] at h
  have hlhs := Operand.ofJson?_toJson h.1 depth
  have hrhs := Operand.ofJson?_toJson h.2 depth
  by_cases hl : lhs.toJson.nesting ≤ depth
  · by_cases hr : rhs.toJson.nesting ≤ depth <;>
      simp [comparison?, Lookup.ofJson?_toJson, hlhs, hrhs, hl, hr]
  · simp [comparison?, Lookup.ofJson?_toJson, hlhs, hl]

/-- A predicate is read back as soon as what it opens may be opened, if its numbers are. -/
lemma ofJson?_toJson {predicate : Predicate}
    (h : ∀ x ∈ predicate.floats, x.isFinite = true ∧ x.ReadsBack) (depth : Nat) :
    ofJson? depth predicate.toJson =
      if predicate.toJson.nesting ≤ depth then some predicate else none := by
  induction predicate generalizing depth with
  | compare lookup lhs rhs =>
    match depth with
    | 0 => simp [toJson, ofJson?]
    | 1 => simp [toJson, ofJson?, comparison?]
    | depth + 2 =>
      have hfloats : ∀ x ∈ lhs.floats ++ rhs.floats, x.isFinite = true ∧ x.ReadsBack := by
        simpa [floats, comparisons, Comparison.floats] using h
      have hcomparison := comparison?_toJson lookup hfloats depth
      by_cases hdepth : lhs.toJson.nesting ≤ depth ∧ rhs.toJson.nesting ≤ depth <;>
        simp [toJson, ofJson?, hcomparison, hdepth]
  | all parts ih =>
    match depth with
    | 0 => simp [toJson, ofJson?]
    | 1 => simp [toJson, ofJson?, nesting]
    | depth + 2 =>
      have hparts := mapM_ofJson?_listToJson fun part hpart =>
        ih part hpart (fun x hx => h x (mem_floats_list.2 ⟨part, hpart, hx⟩)) depth
      have hread : ofJson? (depth + 2) (all parts).toJson =
          ((listToJson parts).mapM (ofJson? depth)).map .all := rfl
      rw [hread, hparts]
      simp only [toJson, nesting_record_singleton, Nat.add_le_add_iff_right]
      split <;> rfl
  | any parts ih =>
    match depth with
    | 0 => simp [toJson, ofJson?]
    | 1 => simp [toJson, ofJson?, nesting]
    | depth + 2 =>
      have hparts := mapM_ofJson?_listToJson fun part hpart =>
        ih part hpart (fun x hx => h x (mem_floats_list.2 ⟨part, hpart, hx⟩)) depth
      have hread : ofJson? (depth + 2) (any parts).toJson =
          ((listToJson parts).mapM (ofJson? depth)).map .any := rfl
      rw [hread, hparts]
      simp only [toJson, nesting_record_singleton, Nat.add_le_add_iff_right]
      split <;> rfl
  | not part ih =>
    cases depth with
    | zero => simp [toJson, ofJson?]
    | succ depth =>
      by_cases hdepth : part.toJson.nesting ≤ depth <;> simp [toJson, ofJson?, ih h, hdepth]

end Predicate

/-! ## Aggregates -/

/-- A kind of aggregate opens nothing. -/
@[simp] lemma AggregateKind.nesting_toJson (kind : AggregateKind) : kind.toJson.nesting = 0 := rfl

/-- The JSON value of a kind of aggregate is well formed. -/
@[simp] lemma AggregateKind.wellFormed_toJson (kind : AggregateKind) : kind.toJson.WellFormed :=
  wellFormed_text _

/-- A kind of aggregate is read back. -/
lemma AggregateKind.ofJson?_toJson (kind : AggregateKind) (depth : Nat) :
    ofJson? depth kind.toJson = some kind :=
  choice?_text (ofName?_name kind) depth

/-- The JSON value of an aggregate is well formed. -/
@[simp] lemma Aggregate.wellFormed_toJson (aggregate : Aggregate) :
    aggregate.toJson.WellFormed := by
  simp [toJson]

/-- An aggregate is read back as soon as what it opens may be opened. -/
lemma Aggregate.ofJson?_toJson (aggregate : Aggregate) (depth : Nat) :
    ofJson? depth aggregate.toJson =
      if aggregate.toJson.nesting ≤ depth then some aggregate else none := by
  cases depth with
  | zero => simp [toJson, ofJson?]
  | succ depth =>
    have hattr := Attribute.ofJson?_toJson aggregate.attr depth
    by_cases hdepth : aggregate.attr.toJson.nesting ≤ depth <;>
      simp [toJson, ofJson?, AggregateKind.ofJson?_toJson, hattr, hdepth]

end RelationalAlgebra
