import RelationalAlgebra.Proofs.Json.Accepted
import RelationalAlgebra.Proofs.Json.Relation

/-!
# Values and their texts

A form of values is how they are written as JSON and how they are read again.  For every form, a
value is read back from its text whenever as much may be opened as the value opens, and a value
that was read from any text, however it was spelled there, can be written and read again with the
same limit (`forms_roundTrip`).

The number text of a floating-point number is not always read as the number: reading is quick and
may come out next to it.  So both statements are about values whose finite numbers read back.  A
number that is not finite is written as a null, which is not read as a number at all.
-/

namespace RelationalAlgebra

open Json

/-- How values of a type are written and read, the floating-point numbers in them, and which of them
can be there at all. -/
structure Form (α : Type) where
  write : α → Json
  read : (depth : Nat) → Json → Option α
  floats : α → List Binary64
  Fits : α → Prop

namespace Form

variable {α : Type}

/-- The text of a value. -/
def toText (form : Form α) (a : α) : String :=
  (form.write a).render

/-- The value of a text, if no more than the given number of arrays and objects are open at once. -/
def ofText? (form : Form α) (depth : Nat) (text : String) : Option α :=
  (parse? text).bind (form.read depth)

/-- Whether the number texts of all finite numbers in a value are read as the numbers. -/
def FloatsReadBack (form : Form α) (a : α) : Prop :=
  ∀ x ∈ form.floats a, x.isFinite = true → x.ReadsBack

/-- Reading and writing agree: a value all of whose numbers are finite is read back from its text
exactly if as much may be opened as it opens, and what is read from any text can be written and is
then read again. -/
structure RoundTrips (form : Form α) : Prop where
  ofText?_toText : ∀ a, form.Fits a → (∀ x ∈ form.floats a, x.isFinite = true) →
    form.FloatsReadBack a → ∀ depth,
      form.ofText? depth (form.toText a) =
        if (form.write a).nesting ≤ depth then some a else none
  ofText?_toText_of_ofText? : ∀ depth text a, form.ofText? depth text = some a →
    form.FloatsReadBack a → form.ofText? depth (form.toText a) = some a

/-- A form whose values are well formed and read back, and that reads only values that open no more
than may be opened, reads and writes in agreement. -/
lemma roundTrips {form : Form α} (hwrite : ∀ a, (form.write a).WellFormed)
    (hread : ∀ a, form.Fits a → (∀ x ∈ form.floats a, x.isFinite = true ∧ x.ReadsBack) → ∀ depth,
      form.read depth (form.write a) =
        if (form.write a).nesting ≤ depth then some a else none)
    (haccepted : ∀ depth j a, form.read depth j = some a →
      (form.write a).nesting ≤ depth ∧ form.Fits a ∧ ∀ x ∈ form.floats a, x.isFinite = true) :
    form.RoundTrips := by
  have hback : ∀ a, form.Fits a → (∀ x ∈ form.floats a, x.isFinite = true) →
      form.FloatsReadBack a → ∀ depth,
        form.ofText? depth (form.toText a) =
          if (form.write a).nesting ≤ depth then some a else none := by
    intro a hfits hfinite hfloats depth
    rw [ofText?, toText, parse?_render (hwrite a), Option.bind_some]
    exact hread a hfits (fun x hx => ⟨hfinite x hx, hfloats x hx (hfinite x hx)⟩) depth
  refine ⟨hback, ?_⟩
  intro depth text a htext hfloats
  obtain ⟨j, -, hj⟩ := Option.bind_eq_some_iff.1 htext
  obtain ⟨hnesting, hfits, hfinite⟩ := haccepted depth j a hj
  rw [hback a hfits hfinite hfloats depth, if_pos hnesting]

end Form

/-! ## The forms -/

/-- The form of attributes. -/
def Attribute.form : Form Attribute :=
  ⟨toJson, ofJson?, fun _ => [], fun _ => True⟩

/-- Attributes are read and written in agreement. -/
lemma Attribute.form_roundTrips : form.RoundTrips :=
  Form.roundTrips wellFormed_toJson (fun attr _ _ => attr.ofJson?_toJson) fun _ _ _ h =>
    ⟨nesting_le_of_ofJson? h, trivial, List.forall_mem_nil _⟩

/-- The form of scalars. -/
def Scalar.form : Form Scalar :=
  ⟨toJson, ofJson?, floats, fun _ => True⟩

/-- Scalars are read and written in agreement. -/
lemma Scalar.form_roundTrips : form.RoundTrips :=
  Form.roundTrips wellFormed_toJson (fun _ _ hfloats => ofJson?_toJson hfloats) fun _ _ _ h =>
    ⟨(of_ofJson? h).1, trivial, (of_ofJson? h).2⟩

/-- The form of operands. -/
def Operand.form : Form Operand :=
  ⟨toJson, ofJson?, floats, fun _ => True⟩

/-- Operands are read and written in agreement. -/
lemma Operand.form_roundTrips : form.RoundTrips :=
  Form.roundTrips wellFormed_toJson (fun _ _ hfloats => ofJson?_toJson hfloats) fun _ _ _ h =>
    ⟨(of_ofJson? h).1, trivial, (of_ofJson? h).2⟩

/-- The form of predicates. -/
def Predicate.form : Form Predicate :=
  ⟨toJson, ofJson?, floats, fun _ => True⟩

/-- Predicates are read and written in agreement. -/
lemma Predicate.form_roundTrips : form.RoundTrips :=
  Form.roundTrips wellFormed_toJson (fun _ _ hfloats => ofJson?_toJson hfloats) fun _ _ _ h =>
    ⟨(of_ofJson? h).1, trivial, (of_ofJson? h).2⟩

/-- The form of lookups. -/
def Lookup.form : Form Lookup :=
  ⟨toJson, ofJson?, fun _ => [], fun _ => True⟩

/-- Lookups are read and written in agreement. -/
lemma Lookup.form_roundTrips : form.RoundTrips :=
  Form.roundTrips wellFormed_toJson
    (fun lookup _ _ depth => (lookup.ofJson?_toJson depth).trans (if_pos depth.zero_le).symm)
    fun depth _ _ _ => ⟨depth.zero_le, trivial, List.forall_mem_nil _⟩

/-- The form of kinds of aggregates. -/
def AggregateKind.form : Form AggregateKind :=
  ⟨toJson, ofJson?, fun _ => [], fun _ => True⟩

/-- Kinds of aggregates are read and written in agreement. -/
lemma AggregateKind.form_roundTrips : form.RoundTrips :=
  Form.roundTrips wellFormed_toJson
    (fun kind _ _ depth => (kind.ofJson?_toJson depth).trans (if_pos depth.zero_le).symm)
    fun depth _ _ _ => ⟨depth.zero_le, trivial, List.forall_mem_nil _⟩

/-- The form of aggregates. -/
def Aggregate.form : Form Aggregate :=
  ⟨toJson, ofJson?, fun _ => [], fun _ => True⟩

/-- Aggregates are read and written in agreement. -/
lemma Aggregate.form_roundTrips : form.RoundTrips :=
  Form.roundTrips wellFormed_toJson (fun aggregate _ _ => aggregate.ofJson?_toJson)
    fun _ _ _ h => ⟨nesting_le_of_ofJson? h, trivial, List.forall_mem_nil _⟩

/-- The form of options of tables, whose greatest number of rows has 64 bits. -/
def TableOptions.form : Form TableOptions :=
  ⟨toJson, ofJson?, fun _ => [], Fits⟩

/-- Options of tables are read and written in agreement. -/
lemma TableOptions.form_roundTrips : form.RoundTrips :=
  Form.roundTrips wellFormed_toJson (fun _ hfits _ => ofJson?_toJson hfits) fun _ _ _ h =>
    ⟨(of_ofJson? h).1, (of_ofJson? h).2, List.forall_mem_nil _⟩

/-- The form of digests. -/
def Digest.form : Form Digest :=
  ⟨toJson, ofJson?, fun _ => [], fun _ => True⟩

/-- Digests are read and written in agreement. -/
lemma Digest.form_roundTrips : form.RoundTrips :=
  Form.roundTrips wellFormed_toJson (fun digest _ _ => digest.ofJson?_toJson) fun _ _ _ h =>
    ⟨nesting_le_of_ofJson? h, trivial, List.forall_mem_nil _⟩

/-- All forms that are both written and read are read and written in agreement. -/
theorem forms_roundTrip :
    Attribute.form.RoundTrips ∧ Scalar.form.RoundTrips ∧ Operand.form.RoundTrips ∧
      Predicate.form.RoundTrips ∧ Lookup.form.RoundTrips ∧ AggregateKind.form.RoundTrips ∧
      Aggregate.form.RoundTrips ∧ TableOptions.form.RoundTrips ∧ Digest.form.RoundTrips :=
  ⟨Attribute.form_roundTrips, Scalar.form_roundTrips, Operand.form_roundTrips,
    Predicate.form_roundTrips, Lookup.form_roundTrips, AggregateKind.form_roundTrips,
    Aggregate.form_roundTrips, TableOptions.form_roundTrips, Digest.form_roundTrips⟩

/-- A negated comparison of a qualified field with a tenth is read back from its text. -/
theorem forms_roundTrip_of_negated_comparison :
    ∃ p : Predicate, p.floats = [⟨0x3FB999999999999A⟩] ∧ p.toJson.nesting = 7 ∧
      Predicate.form.ofText? depthLimit (Predicate.form.toText p) = some p := by
  refine ⟨.not (.compare .gte (.field (.qualified "t" (.name "a")))
    (.literal (.float ⟨0x3FB999999999999A⟩))), rfl, rfl, ?_⟩
  obtain ⟨-, -, -, hpredicate, -⟩ := forms_roundTrip
  have hfinite : ∀ x ∈ [(⟨0x3FB999999999999A⟩ : Binary64)],
      x.isFinite = true ∧ x.ReadsBack := by decide +kernel
  refine (hpredicate.ofText?_toText _ trivial ?_ ?_ depthLimit).trans (if_pos (by decide))
  · exact fun x hx => (hfinite x hx).1
  · exact fun x hx _ => (hfinite x hx).2

end RelationalAlgebra
