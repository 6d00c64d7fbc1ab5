import RelationalAlgebra.Proofs.Predicate.Comparisons

/-!
# Predicates are evaluated strictly

A predicate is a Boolean formula over its comparisons.  `Predicate.value` is the value of this
formula once every comparison has a truth value.  Evaluation makes all comparisons first, from left
to right, and whatever they say: so a predicate has a truth value exactly if all its comparisons
have one, and otherwise it fails as the leftmost comparison that does.

Main statement: this is so for all predicates and records.  Hence the laws of Boolean formulas that
keep the comparisons in their order, as De Morgan's laws do, hold of the errors as well.
-/

namespace RelationalAlgebra

namespace Comparison

variable {record : Record} {c : Comparison} {e : Error}

/-- Both operands of a comparison have values, and the lookup gives a truth value on them. -/
def Gives (record : Record) (c : Comparison) (truth : Bool) : Prop :=
  ∃ a b, c.lhs.resolve record = .ok a ∧ c.rhs.resolve record = .ok b ∧
    c.lookup.apply a b = .ok truth

/-- A comparison fails: the left operand has no value, or else the right one has none, or else the
lookup does not fit the values. -/
inductive Fails (record : Record) (c : Comparison) (e : Error) : Prop
  | left (h : c.lhs.resolve record = .error e)
  | right {a : Scalar} (ha : c.lhs.resolve record = .ok a) (h : c.rhs.resolve record = .error e)
  | lookup {a b : Scalar} (ha : c.lhs.resolve record = .ok a) (hb : c.rhs.resolve record = .ok b)
      (h : c.lookup.apply a b = .error e)

/-- A comparison gives a truth value, or it fails; its evaluation says which. -/
lemma eval_meets_gives (record : Record) (c : Comparison) :
    Meets (c.Gives record) (c.Fails record) (c.eval record) := by
  unfold eval
  cases ha : c.lhs.resolve record with
  | error e => exact .left ha
  | ok a =>
    cases hb : c.rhs.resolve record with
    | error e => exact .right ha hb
    | ok b =>
      rw [ok_bind, ok_bind]
      cases h : c.lookup.apply a b with
      | error e => exact .lookup ha hb h
      | ok truth => exact ⟨a, b, ha, hb, h⟩

/-- A comparison is evaluated to the truth value that it gives. -/
lemma eval_eq_ok_iff {truth : Bool} : c.eval record = .ok truth ↔ c.Gives record truth := by
  refine ⟨fun h => (c.eval_meets_gives record).of_ok h, ?_⟩
  rintro ⟨a, b, ha, hb, h⟩
  rw [eval, ha, ok_bind, hb, ok_bind, h]

/-- The evaluation of a comparison fails as the comparison does. -/
lemma eval_eq_error_iff : c.eval record = .error e ↔ c.Fails record e := by
  refine ⟨fun h => (c.eval_meets_gives record).of_error h, ?_⟩
  rintro (h | ⟨ha, h⟩ | ⟨ha, hb, h⟩)
  · rw [eval, h]
    rfl
  · rw [eval, ha, ok_bind, h]
    rfl
  · rw [eval, ha, ok_bind, hb, ok_bind, h]

/-- Whether a comparison is true of a record. -/
def holds (record : Record) (c : Comparison) : Bool :=
  c.eval record = .ok true

/-- A comparison that gives a truth value is true if this is the value. -/
lemma holds_of_gives {truth : Bool} (h : c.Gives record truth) : c.holds record = truth := by
  rw [holds, eval_eq_ok_iff.2 h]
  cases truth <;> rfl

end Comparison

namespace Predicate

variable {record : Record} {predicate other : Predicate} {parts : List Predicate}

/-! ## Predicates as formulas -/

mutual

/-- The value of a predicate as a formula, if its comparisons have given truth values. -/
def value (truth : Comparison → Bool) : Predicate → Bool
  | .compare lookup lhs rhs => truth ⟨lookup, lhs, rhs⟩
  | .all parts => valueAll truth parts
  | .any parts => valueAny truth parts
  | .not part => !value truth part

/-- The conjunction of the values of some predicates, which is true of none. -/
def valueAll (truth : Comparison → Bool) : List Predicate → Bool
  | [] => true
  | part :: parts => value truth part && valueAll truth parts

/-- The disjunction of the values of some predicates, which is false of none. -/
def valueAny (truth : Comparison → Bool) : List Predicate → Bool
  | [] => false
  | part :: parts => value truth part || valueAny truth parts

end

/-- A conjunction is true if all its parts are. -/
lemma valueAll_eq_all (truth : Comparison → Bool) (parts : List Predicate) :
    valueAll truth parts = (parts.map (value truth)).all id := by
  induction parts with
  | nil => rfl
  | cons part parts ih => rw [valueAll, ih, List.map_cons, List.all_cons, id]

/-- A disjunction is true if one of its parts is. -/
lemma valueAny_eq_any (truth : Comparison → Bool) (parts : List Predicate) :
    valueAny truth parts = (parts.map (value truth)).any id := by
  induction parts with
  | nil => rfl
  | cons part parts ih => rw [valueAny, ih, List.map_cons, List.any_cons, id]

/-- The value of a predicate depends only on the truth values of its comparisons. -/
lemma value_congr {truth truth' : Comparison → Bool}
    (h : ∀ c ∈ predicate.comparisons, truth c = truth' c) :
    predicate.value truth = predicate.value truth' := by
  have hparts : ∀ parts : List Predicate,
      (∀ part ∈ parts, (∀ c ∈ part.comparisons, truth c = truth' c) →
        part.value truth = part.value truth') →
      (∀ c ∈ comparisonsList parts, truth c = truth' c) →
      parts.map (value truth) = parts.map (value truth') := fun parts ih h =>
    List.map_congr_left fun part hpart =>
      ih part hpart fun c hc => h c (mem_comparisonsList.2 ⟨part, hpart, hc⟩)
  induction predicate with
  | compare lookup lhs rhs => exact h _ (List.mem_singleton_self _)
  | all parts ih => rw [value, value, valueAll_eq_all, valueAll_eq_all, hparts parts ih h]
  | any parts ih => rw [value, value, valueAny_eq_any, valueAny_eq_any, hparts parts ih h]
  | not part ih => rw [value, value, ih h]

/-! ## The outcome of an evaluation -/

/-- A list of predicates is evaluated by making their comparisons, if each of them is. -/
lemma evalList_eq_mapM_comparisons
    (h : ∀ part ∈ parts, part.eval record =
      (part.comparisons.mapM (Comparison.eval record)).map fun _ =>
        part.value (Comparison.holds record)) :
    evalList record parts =
      ((comparisonsList parts).mapM (Comparison.eval record)).map fun _ =>
        parts.map (value (Comparison.holds record)) := by
  induction parts with
  | nil => rfl
  | cons part parts ih =>
    obtain ⟨hpart, hparts⟩ := List.forall_mem_cons.1 h
    rw [evalList, hpart, ih hparts, comparisonsList, List.mapM_append]
    cases part.comparisons.mapM (Comparison.eval record) with
    | error e => rfl
    | ok truths => cases (comparisonsList parts).mapM (Comparison.eval record) <;> rfl

/-- A predicate is evaluated by making all its comparisons from left to right, and then by taking
the value of the formula. -/
theorem eval_eq_mapM_comparisons (record : Record) (predicate : Predicate) :
    predicate.eval record =
      (predicate.comparisons.mapM (Comparison.eval record)).map fun _ =>
        predicate.value (Comparison.holds record) := by
  induction predicate with
  | compare lookup lhs rhs =>
    change Comparison.eval record ⟨lookup, lhs, rhs⟩ = _
    rw [comparisons, List.mapM_cons, List.mapM_nil, value, Comparison.holds]
    cases Comparison.eval record ⟨lookup, lhs, rhs⟩ with
    | error e => rfl
    | ok truth => cases truth <;> rfl
  | all parts ih =>
    rw [eval, evalList_eq_mapM_comparisons ih, comparisons, value, valueAll_eq_all]
    cases (comparisonsList parts).mapM (Comparison.eval record) <;> rfl
  | any parts ih =>
    rw [eval, evalList_eq_mapM_comparisons ih, comparisons, value, valueAny_eq_any]
    cases (comparisonsList parts).mapM (Comparison.eval record) <;> rfl
  | not part ih =>
    rw [eval, ih, comparisons, value]
    cases part.comparisons.mapM (Comparison.eval record) <;> rfl

/-- What it means that a predicate is evaluated strictly on a record. -/
structure StrictOutcome (record : Record) (predicate : Predicate) : Prop where
  /-- It has a truth value if all its comparisons do. -/
  succeeds_iff : (∃ truth, predicate.eval record = .ok truth) ↔
    ∀ c ∈ predicate.comparisons, ∃ truth, c.Gives record truth
  /-- The truth value is that of the formula. -/
  value_eq : ∀ truth : Comparison → Bool,
    (∀ c ∈ predicate.comparisons, c.Gives record (truth c)) →
      predicate.eval record = .ok (predicate.value truth)
  /-- It fails as the first comparison that does, whatever those before it give. -/
  error_iff : ∀ e, predicate.eval record = .error e ↔
    ∃ before c after, predicate.comparisons = before ++ c :: after ∧
      (∀ d ∈ before, ∃ truth, d.Gives record truth) ∧ c.Fails record e

/-- All comparisons of a predicate have truth values exactly if these are some list. -/
lemma exists_truths_iff (comparisons : List Comparison) :
    (∃ truths, comparisons.mapM (Comparison.eval record) = .ok truths) ↔
      ∀ c ∈ comparisons, ∃ truth, c.Gives record truth := by
  simp only [exists_mapM_eq_ok_iff, Comparison.eval_eq_ok_iff]

/-- Every predicate is evaluated strictly. -/
lemma strictOutcome (record : Record) (predicate : Predicate) :
    StrictOutcome record predicate where
  succeeds_iff := by
    rw [← exists_truths_iff, eval_eq_mapM_comparisons]
    cases predicate.comparisons.mapM (Comparison.eval record) with
    | error e => exact iff_of_false (fun ⟨_, h⟩ => nomatch h) fun ⟨_, h⟩ => nomatch h
    | ok truths => exact iff_of_true ⟨_, rfl⟩ ⟨_, rfl⟩
  value_eq := by
    intro truth htruth
    obtain ⟨truths, htruths⟩ := (exists_truths_iff predicate.comparisons).2 fun c hc =>
      ⟨truth c, htruth c hc⟩
    rw [eval_eq_mapM_comparisons, htruths,
      value_congr fun c hc => Comparison.holds_of_gives (htruth c hc)]
    rfl
  error_iff := by
    intro e
    simp only [eval_eq_mapM_comparisons, map_eq_error_iff, mapM_eq_error_iff,
      Comparison.eval_eq_ok_iff, Comparison.eval_eq_error_iff]

/-! ## Laws of formulas -/

/-- Formulas of the same comparisons in the same order that always have the same value have the
same outcome. -/
lemma eval_congr_of_comparisons (hcomparisons : predicate.comparisons = other.comparisons)
    (hvalue : ∀ truth, predicate.value truth = other.value truth) :
    predicate.eval record = other.eval record := by
  rw [eval_eq_mapM_comparisons, eval_eq_mapM_comparisons, hcomparisons, hvalue]

/-- A conjunction of negations is true if no part is. -/
lemma valueAll_map_not (truth : Comparison → Bool) (parts : List Predicate) :
    valueAll truth (parts.map not) = !valueAny truth parts := by
  induction parts with
  | nil => rfl
  | cons part parts ih => rw [List.map_cons, valueAll, value, ih, valueAny, Bool.not_or]

/-- A disjunction of negations is true if not all parts are. -/
lemma valueAny_map_not (truth : Comparison → Bool) (parts : List Predicate) :
    valueAny truth (parts.map not) = !valueAll truth parts := by
  induction parts with
  | nil => rfl
  | cons part parts ih => rw [List.map_cons, valueAny, value, ih, valueAll, Bool.not_and]

/-- Negations have the comparisons of their parts. -/
lemma comparisonsList_map_not (parts : List Predicate) :
    comparisonsList (parts.map not) = comparisonsList parts := by
  rw [comparisonsList_eq_flatMap, comparisonsList_eq_flatMap, List.flatMap_map]
  rfl

/-- The comparisons of a nested list of parts are those of the list in which it is nested. -/
lemma comparisonsList_nested {nested : List Predicate → Predicate}
    (hnested : ∀ parts, (nested parts).comparisons = comparisonsList parts)
    (before inner after : List Predicate) :
    comparisonsList (before ++ nested inner :: after) =
      comparisonsList (before ++ inner ++ after) := by
  simp only [comparisonsList_eq_flatMap, List.flatMap_append, List.flatMap_cons, hnested,
    List.append_assoc]

/-- The laws of Boolean formulas under which the comparisons keep their order. They hold of truth
values and of errors. -/
structure FormulaLaws (record : Record) : Prop where
  /-- The negation of a conjunction is the disjunction of the negations. -/
  not_all : ∀ parts, (not (all parts)).eval record = (any (parts.map not)).eval record
  /-- The negation of a disjunction is the conjunction of the negations. -/
  not_any : ∀ parts, (not (any parts)).eval record = (all (parts.map not)).eval record
  /-- Two negations cancel. -/
  not_not : ∀ predicate, (not (not predicate)).eval record = predicate.eval record
  /-- A conjunction within a conjunction may be replaced by its parts. -/
  all_nested : ∀ before inner after,
    (all (before ++ all inner :: after)).eval record =
      (all (before ++ inner ++ after)).eval record
  /-- A disjunction within a disjunction may be replaced by its parts. -/
  any_nested : ∀ before inner after,
    (any (before ++ any inner :: after)).eval record =
      (any (before ++ inner ++ after)).eval record

/-- The laws of Boolean formulas hold on every record. -/
lemma formulaLaws (record : Record) : FormulaLaws record where
  not_all parts :=
    eval_congr_of_comparisons (comparisonsList_map_not parts).symm fun truth =>
      (valueAny_map_not truth parts).symm
  not_any parts :=
    eval_congr_of_comparisons (comparisonsList_map_not parts).symm fun truth =>
      (valueAll_map_not truth parts).symm
  not_not predicate :=
    eval_congr_of_comparisons rfl fun truth => Bool.not_not (predicate.value truth)
  all_nested before inner after := by
    refine eval_congr_of_comparisons (comparisonsList_nested (fun _ => rfl) before inner after)
      fun truth => ?_
    simp [value, valueAll_eq_all]
  any_nested before inner after := by
    refine eval_congr_of_comparisons (comparisonsList_nested (fun _ => rfl) before inner after)
      fun truth => ?_
    simp [value, valueAny_eq_any]

/-- Evaluation is strict: a predicate has a truth value exactly if all its comparisons do, and then
it is that of the formula; otherwise it fails as the leftmost comparison that does. So laws of
formulas that keep the comparisons in order hold of errors too. -/
theorem eval_strict (record : Record) :
    (∀ predicate, StrictOutcome record predicate) ∧ FormulaLaws record :=
  ⟨strictOutcome record, formulaLaws record⟩

/-- A text is compared with a number behind a comparison that is already true, and in front of one
of a missing attribute: the disjunction fails, and names the kinds. -/
theorem eval_strict_of_failure_behind_truth :
    let record : Record := ⟨[.name "a", .name "b"], [.int 1, .text "x"]⟩
    let first : Comparison := ⟨.exact, .field (.name "a"), .literal (.int 1)⟩
    let second : Comparison := ⟨.gt, .field (.name "b"), .literal (.int 3)⟩
    let third : Comparison := ⟨.exact, .field (.name "c"), .literal (.int 1)⟩
    let predicate : Predicate :=
      any [.compare first.lookup first.lhs first.rhs,
        not (all [.compare second.lookup second.lhs second.rhs,
          .compare third.lookup third.lhs third.rhs])]
    first.Gives record true ∧ second.Fails record (.typeMismatch "gt" .text .int) ∧
      third.Fails record (.missingAttribute (.name "c")) ∧
      predicate.eval record = .error (.typeMismatch "gt" .text .int) ∧
      (all [not (any []), .compare first.lookup first.lhs first.rhs]).eval record = .ok true := by
  intro record first second third predicate
  have hfirst : first.Gives record true := ⟨.int 1, .int 1, rfl, rfl, by decide⟩
  have hsecond : second.Fails record (.typeMismatch "gt" .text .int) := .lookup rfl rfl rfl
  obtain ⟨hstrict, -⟩ := eval_strict record
  refine ⟨hfirst, hsecond, .left rfl, ?_, ?_⟩
  · refine ((hstrict predicate).error_iff _).2 ⟨[first], second, [third], rfl, ?_, hsecond⟩
    exact fun d hd => ⟨true, List.mem_singleton.1 hd ▸ hfirst⟩
  · refine (hstrict _).value_eq (fun _ => true) fun c hc => ?_
    exact List.mem_singleton.1 hc ▸ hfirst

end Predicate

end RelationalAlgebra
