import RelationalAlgebra.Proofs.Heading.Positions
import RelationalAlgebra.Relation.Join

/-!
# The comparisons in a predicate

A predicate is a tree with comparisons at its leaves.  Whatever a predicate says, its evaluation
makes every comparison, from left to right.  So the errors of a predicate are the errors of its
comparisons, and its fields are the fields of its comparisons.
-/

namespace RelationalAlgebra

/-- A comparison of two operands, as it stands in a predicate. -/
structure Comparison where
  lookup : Lookup
  lhs : Operand
  rhs : Operand
deriving DecidableEq

namespace Comparison

/-- The attributes that a comparison refers to, from left to right. -/
def fields (comparison : Comparison) : List Attribute :=
  [comparison.lhs, comparison.rhs].filterMap Operand.field?

/-- The truth value of a comparison on a record. -/
def eval (record : Record) (comparison : Comparison) : Except Error Bool := do
  let a ← comparison.lhs.resolve record
  let b ← comparison.rhs.resolve record
  comparison.lookup.apply a b

end Comparison

namespace Predicate

mutual

/-- The comparisons in a predicate, from left to right. -/
def comparisons : Predicate → List Comparison
  | .compare lookup lhs rhs => [⟨lookup, lhs, rhs⟩]
  | .all parts => comparisonsList parts
  | .any parts => comparisonsList parts
  | .not part => comparisons part

/-- The comparisons in the predicates of a list, from left to right. -/
def comparisonsList : List Predicate → List Comparison
  | [] => []
  | part :: parts => comparisons part ++ comparisonsList parts

end

/-! ## Lists of parts -/

/-- A property of predicates that passes from the parts to the whole holds of all predicates. -/
@[elab_as_elim, induction_eliminator]
theorem inductionOnParts {motive : Predicate → Prop}
    (compare : ∀ lookup lhs rhs, motive (.compare lookup lhs rhs))
    (all : ∀ parts, (∀ part ∈ parts, motive part) → motive (.all parts))
    (any : ∀ parts, (∀ part ∈ parts, motive part) → motive (.any parts))
    (not : ∀ part, motive part → motive (.not part)) (predicate : Predicate) :
    motive predicate := by
  refine Predicate.rec (motive_1 := motive) (motive_2 := fun parts => ∀ part ∈ parts, motive part)
    compare all any not ?nil ?cons predicate
  case nil =>
    intro part hpart
    exact absurd hpart List.not_mem_nil
  case cons =>
    intro head tail hhead htail part hpart
    rcases List.mem_cons.1 hpart with rfl | hrest
    · exact hhead
    · exact htail part hrest

/-- The predicates of a list are evaluated one after the other. -/
lemma evalList_eq_mapM (record : Record) (parts : List Predicate) :
    evalList record parts = parts.mapM (eval record) := by
  induction parts with
  | nil => rfl
  | cons part parts ih => rw [evalList, ih, List.mapM_cons]

/-- The comparisons of a list of predicates are those of its members. -/
lemma comparisonsList_eq_flatMap (parts : List Predicate) :
    comparisonsList parts = parts.flatMap comparisons := by
  induction parts with
  | nil => rfl
  | cons part parts ih => rw [comparisonsList, ih, List.flatMap_cons]

/-- A comparison in a list of predicates is a comparison in one of them. -/
lemma mem_comparisonsList {parts : List Predicate} {c : Comparison} :
    c ∈ comparisonsList parts ↔ ∃ part ∈ parts, c ∈ part.comparisons := by
  rw [comparisonsList_eq_flatMap, List.mem_flatMap]

/-! ## Fields -/

/-- The attributes that a predicate refers to, from left to right and with repetitions. -/
def references (predicate : Predicate) : List Attribute :=
  predicate.comparisons.flatMap Comparison.fields

/-- A list of attributes with those of another list that it does not have yet. -/
def addReferences (seen attrs : List Attribute) : List Attribute :=
  attrs.foldl (fun seen attr => addField seen (.field attr)) seen

/-- The references of a list of predicates are those of its members. -/
lemma references_list (parts : List Predicate) :
    (comparisonsList parts).flatMap Comparison.fields = parts.flatMap references := by
  rw [comparisonsList_eq_flatMap, List.flatMap_assoc]
  rfl

/-- References are added one predicate after the other. -/
lemma addReferences_append (seen attrs more : List Attribute) :
    addReferences seen (attrs ++ more) = addReferences (addReferences seen attrs) more :=
  List.foldl_append

/-- The fields of a list of predicates are collected one predicate after the other. -/
lemma fieldsAfterList_eq_addReferences {parts : List Predicate}
    (h : ∀ part ∈ parts, ∀ seen, fieldsAfter seen part = addReferences seen part.references)
    (seen : List Attribute) :
    fieldsAfterList seen parts = addReferences seen (parts.flatMap references) := by
  induction parts generalizing seen with
  | nil => rfl
  | cons part parts ih =>
    rw [fieldsAfterList, h part List.mem_cons_self, List.flatMap_cons, addReferences_append]
    exact ih (fun q hq => h q (List.mem_cons_of_mem part hq)) _

/-- The fields of a predicate are its references, each at its first occurrence. -/
theorem fieldsAfter_eq_addReferences (seen : List Attribute) (predicate : Predicate) :
    fieldsAfter seen predicate = addReferences seen predicate.references := by
  induction predicate generalizing seen with
  | compare lookup lhs rhs => cases lhs <;> cases rhs <;> rfl
  | all parts ih =>
    rw [fieldsAfter, references, comparisons, references_list]
    exact fieldsAfterList_eq_addReferences (fun part hpart seen => ih part hpart seen) seen
  | any parts ih =>
    rw [fieldsAfter, references, comparisons, references_list]
    exact fieldsAfterList_eq_addReferences (fun part hpart seen => ih part hpart seen) seen
  | not part ih => exact ih seen

/-- Adding a field adds its attribute and no other. -/
lemma mem_addField {seen : List Attribute} {a b : Attribute} :
    a ∈ addField seen (.field b) ↔ a ∈ seen ∨ a = b := by
  unfold addField Operand.field?
  by_cases hb : b ∈ seen
  · simp only [List.contains_iff_mem, hb, if_true]
    exact ⟨Or.inl, fun h => h.elim id fun hab => hab ▸ hb⟩
  · simp only [List.contains_iff_mem, hb, if_false, List.mem_append, List.mem_singleton]

/-- Adding references adds their attributes and no others. -/
lemma mem_addReferences {seen attrs : List Attribute} {a : Attribute} :
    a ∈ addReferences seen attrs ↔ a ∈ seen ∨ a ∈ attrs := by
  induction attrs generalizing seen with
  | nil => exact (or_iff_left List.not_mem_nil).symm
  | cons b attrs ih =>
    change a ∈ addReferences (addField seen (.field b)) attrs ↔ _
    rw [ih, mem_addField, List.mem_cons, or_assoc]

/-- The fields of a predicate are the attributes that its comparisons refer to. -/
lemma mem_fields {predicate : Predicate} {a : Attribute} :
    a ∈ predicate.fields ↔ ∃ c ∈ predicate.comparisons, a ∈ c.fields := by
  rw [fields, fieldsAfter_eq_addReferences, mem_addReferences, references, List.mem_flatMap]
  simp only [List.not_mem_nil, false_or]

/-! ## The outcome of an evaluation -/

/-- A list of predicates is evaluated member by member. -/
lemma evalList_meets {record : Record} {good : Predicate → Prop} {bad : Error → Prop}
    {parts : List Predicate}
    (h : ∀ part ∈ parts, Meets (fun _ => good part) bad (part.eval record)) :
    Meets (fun _ => ∀ part ∈ parts, good part) bad (evalList record parts) := by
  rw [evalList_eq_mapM]
  exact Meets.mapM_inputs h

/-- A predicate is evaluated by making all its comparisons: what each of them guarantees when it
is made, all guarantee together, and the predicate fails only as one of them does. -/
theorem eval_meets_forall {record : Record} {good : Comparison → Prop} {bad : Error → Prop}
    (predicate : Predicate)
    (h : ∀ c ∈ predicate.comparisons, Meets (fun _ => good c) bad (c.eval record)) :
    Meets (fun _ => ∀ c ∈ predicate.comparisons, good c) bad (predicate.eval record) := by
  have hlist : ∀ parts : List Predicate,
      (∀ part ∈ parts, (∀ c ∈ part.comparisons, Meets (fun _ => good c) bad (c.eval record)) →
        Meets (fun _ => ∀ c ∈ part.comparisons, good c) bad (part.eval record)) →
      (∀ c ∈ comparisonsList parts, Meets (fun _ => good c) bad (c.eval record)) →
      Meets (fun _ => ∀ c ∈ comparisonsList parts, good c) bad (evalList record parts) := by
    intro parts ih h
    have hparts := evalList_meets fun part hpart =>
      ih part hpart fun c hc => h c (mem_comparisonsList.2 ⟨part, hpart, hc⟩)
    refine hparts.imp_ok fun _ hall c hc => ?_
    obtain ⟨part, hpart, hc⟩ := mem_comparisonsList.1 hc
    exact hall part hpart c hc
  induction predicate with
  | compare lookup lhs rhs =>
    refine (h ⟨lookup, lhs, rhs⟩ (List.mem_singleton_self _)).imp_ok fun _ hgood c hc => ?_
    rw [List.mem_singleton.1 hc]
    exact hgood
  | all parts ih => exact (hlist parts ih h).bind fun _ hall => hall
  | any parts ih => exact (hlist parts ih h).bind fun _ hall => hall
  | not part ih => exact (ih h).bind fun _ hall => hall

end Predicate

/-! ## The outcome of a comparison -/

/-- Comparing two values fails only if their kinds do not fit. -/
lemma Scalar.compareWithin_meets (operation : String) (a b : Scalar) :
    Meets (fun _ => True) (fun e => e.kind = .typeMismatch) (a.compareWithin operation b) := by
  unfold Scalar.compareWithin
  split
  · trivial
  · rfl

namespace Lookup

/-- A test of texts fails only on other values. -/
lemma onTexts_meets (lookup : Lookup) (a b : Scalar) (test : List Char → List Char → Bool) :
    Meets (fun _ => True) (fun e => e.kind = .typeMismatch) (lookup.onTexts a b test) := by
  unfold onTexts
  split
  · trivial
  · rfl

/-- A test of orderings fails only on values that are not ordered. -/
lemma onOrder_meets (lookup : Lookup) (a b : Scalar) (test : Ordering → Bool) :
    Meets (fun _ => True) (fun e => e.kind = .typeMismatch) (lookup.onOrder a b test) :=
  (Scalar.compareWithin_meets lookup.name a b).map fun _ _ => trivial

/-- A test of a part of a date fails only on values other than a date and a number. -/
lemma onDate_meets (lookup : Lookup) (a b : Scalar) (part : Date → Int) :
    Meets (fun _ => True) (fun e => e.kind = .typeMismatch) (lookup.onDate a b part) := by
  unfold onDate
  split
  · trivial
  · trivial
  · rfl

/-- A lookup fails only on values of kinds that do not fit it. -/
theorem apply_meets (lookup : Lookup) (a b : Scalar) :
    Meets (fun _ => True) (fun e => e.kind = .typeMismatch) (lookup.apply a b) := by
  unfold apply
  cases lookup with
  | exact => trivial
  | contains | startsWith | endsWith => exact onTexts_meets _ a b _
  | iexact | icontains | istartsWith | iendsWith => exact onTexts_meets _ a b _
  | gt | gte | lt | lte => exact onOrder_meets _ a b _
  | year | month | day => exact onDate_meets _ a b _

end Lookup

/-- An operand has a value exactly if it is no field that the record lacks. -/
lemma Operand.resolve_meets (record : Record) (operand : Operand) :
    Meets (fun _ => operand.field?.toList ⊆ record.heading)
      (record.heading.Missing operand.field?.toList) (operand.resolve record) := by
  cases operand with
  | literal value => exact List.nil_subset _
  | field attr =>
    refine (record.get_meets attr).imp_ok fun _ hattr => ?_
    exact List.cons_subset.2 ⟨hattr, List.nil_subset _⟩

namespace Comparison

/-- The operands of a comparison have values unless one is a field that the record does not
have; then the lookup decides the outcome. -/
lemma eval_meets_of_apply_meets {record : Record} {bad : Error → Prop} (c : Comparison)
    (hmissing : ∀ e, record.heading.Missing c.fields e → bad e)
    (happly : ∀ a b, Meets (fun _ => True) bad (c.lookup.apply a b)) :
    Meets (fun _ => c.fields ⊆ record.heading) bad (c.eval record) := by
  have hfields : c.fields = c.lhs.field?.toList ++ c.rhs.field?.toList := by
    obtain ⟨lookup, lhs, rhs⟩ := c
    cases lhs <;> cases rhs <;> rfl
  rw [hfields] at hmissing ⊢
  have hlhs := (c.lhs.resolve_meets record).imp_error fun e he =>
    hmissing e (he.mono (List.subset_append_left _ _))
  have hrhs := (c.rhs.resolve_meets record).imp_error fun e he =>
    hmissing e (he.mono (List.subset_append_right _ _))
  refine hlhs.bind fun a ha => hrhs.bind fun b hb => (happly a b).imp_ok fun _ _ => ?_
  exact List.append_subset.2 ⟨ha, hb⟩

/-- A comparison has found its fields, or it fails because one is missing or because the kinds of
the values do not fit. -/
theorem eval_meets (record : Record) (c : Comparison) :
    Meets (fun _ => c.fields ⊆ record.heading) (record.heading.Unfit c.fields)
      (c.eval record) :=
  c.eval_meets_of_apply_meets (fun _ he => Or.inl he) fun a b =>
    (c.lookup.apply_meets a b).imp_error fun _ he => Or.inr he

end Comparison

/-- The columns that some equations are about. -/
def JoinPair.columns (pairs : List JoinPair) : List Attribute :=
  pairs.flatMap fun pair => [pair.1, pair.2]

namespace Predicate

/-- What all comparisons of a predicate refer to is what the predicate refers to. -/
lemma fields_subset {predicate : Predicate} {attrs : List Attribute}
    (h : ∀ c ∈ predicate.comparisons, c.fields ⊆ attrs) : predicate.fields ⊆ attrs := by
  intro a ha
  obtain ⟨c, hc, hac⟩ := mem_fields.1 ha
  exact h c hc hac

/-- A predicate has found its fields, or it fails because one is missing or because the kinds of
values do not fit. -/
theorem eval_meets_unfit (record : Record) (predicate : Predicate) :
    Meets (fun _ => predicate.fields ⊆ record.heading) (record.heading.Unfit predicate.fields)
      (predicate.eval record) := by
  have hcomparisons : Meets (fun _ => ∀ c ∈ predicate.comparisons, c.fields ⊆ record.heading)
      (record.heading.Unfit predicate.fields) (predicate.eval record) := by
    refine predicate.eval_meets_forall fun c hc => (c.eval_meets record).imp_error fun e he => ?_
    exact he.mono fun a ha => mem_fields.2 ⟨c, hc, ha⟩
  exact hcomparisons.imp_ok fun _ => fields_subset

/-- The fields of equations between columns are these columns. -/
lemma mem_fields_equations {pairs : List JoinPair} {a : Attribute} :
    a ∈ (equations pairs).fields ↔ a ∈ JoinPair.columns pairs := by
  rw [mem_fields, equations, comparisons, comparisonsList_eq_flatMap, List.flatMap_map]
  simp [equalFields, comparisons, Comparison.fields, Operand.field?, JoinPair.columns,
    eq_comm (a := a)]

/-- Equations between columns have found these, or they fail because one is missing. -/
theorem equations_eval_meets (record : Record) (pairs : List JoinPair) :
    Meets (fun _ => JoinPair.columns pairs ⊆ record.heading)
      (record.heading.Missing (JoinPair.columns pairs)) ((equations pairs).eval record) := by
  have hcomparisons : Meets
      (fun _ => ∀ c ∈ (equations pairs).comparisons, c.fields ⊆ record.heading)
      (record.heading.Missing (JoinPair.columns pairs)) ((equations pairs).eval record) := by
    refine (equations pairs).eval_meets_forall fun c hc => ?_
    obtain ⟨part, hpart, hc'⟩ := mem_comparisonsList.1 hc
    obtain ⟨pair, hpair, rfl⟩ := List.mem_map.1 hpart
    obtain rfl := List.mem_singleton.1 hc'
    refine Comparison.eval_meets_of_apply_meets _ (fun e he => he.mono fun a ha => ?_)
      fun _ _ => trivial
    exact mem_fields_equations.1 (mem_fields.2 ⟨_, hc, ha⟩)
  refine hcomparisons.imp_ok fun _ hfields a ha => ?_
  exact fields_subset hfields (mem_fields_equations.2 ha)

end Predicate

end RelationalAlgebra
