import RelationalAlgebra.Proofs.Operator.Deferred
import RelationalAlgebra.Proofs.Predicate.Strictness
import RelationalAlgebra.Proofs.Relation.Classes
import RelationalAlgebra.Proofs.Relation.NaturalJoin

/-!
# The errors of plans and evaluations

A plan and an evaluation make the same checks in different ways: a plan goes through the attributes
that an operator refers to, and an evaluation looks them up as it comes to them, tuple by tuple.
Where several things are wrong at once it matters which check comes first.

Main statement: an operator that depends on headings alone fails in the evaluation exactly as in the
plan, and a join does if both inputs have tuples.  An operator that computes with values reports the
attribute that the plan reports, unless it comes earlier to values of kinds that do not fit.
-/

namespace RelationalAlgebra

open Operator (ensureAttributes)

/-! ## The first attribute that is missing -/

namespace Heading

variable {heading : Heading} {attrs more : List Attribute} {e : Error}

/-- The first of some attributes that a heading does not have. -/
def firstMissing? (heading : Heading) (attrs : List Attribute) : Option Attribute :=
  attrs.find? fun a => a ∉ heading

/-- No attribute is missing exactly if the heading has all of them. -/
lemma firstMissing?_eq_none_iff : heading.firstMissing? attrs = none ↔ attrs ⊆ heading := by
  simp only [firstMissing?, List.find?_eq_none, decide_eq_true_eq, not_not]
  rfl

/-- A check of attributes fails with the first one that is missing. -/
lemma ensureAttributes_eq (heading : Heading) (attrs : List Attribute) :
    ensureAttributes heading attrs =
      (heading.firstMissing? attrs).elim (.ok ()) fun a => .error (.missingAttribute a) := by
  rw [ensureAttributes, positions]
  induction attrs with
  | nil => rfl
  | cons a attrs ih =>
    rw [List.mapM_cons, firstMissing?, List.find?_cons]
    by_cases ha : a ∈ heading
    · rw [indexOf_of_mem ha, ok_bind, decide_eq_false (not_not.2 ha)]
      refine Eq.trans ?_ ih
      cases attrs.mapM heading.indexOf <;> rfl
    · rw [indexOf, List.idxOf?_eq_none_iff.2 ha, decide_eq_true ha]
      rfl

/-- A check that fails on some attributes fails alike if more attributes follow. -/
lemma ensureAttributes_append_of_error (h : ensureAttributes heading attrs = .error e) :
    ensureAttributes heading (attrs ++ more) = .error e := by
  rw [ensureAttributes_eq] at h ⊢
  rw [firstMissing?, List.find?_append, ← firstMissing?]
  cases hfirst : heading.firstMissing? attrs with
  | none =>
    rw [hfirst] at h
    cases h
  | some a =>
    rw [hfirst] at h
    exact h

/-- Attributes that the heading has do not matter for a check of those that follow. -/
lemma ensureAttributes_append_of_subset (h : attrs ⊆ heading) :
    ensureAttributes heading (attrs ++ more) = ensureAttributes heading more := by
  rw [ensureAttributes_eq, ensureAttributes_eq, firstMissing?, List.find?_append, ← firstMissing?,
    firstMissing?_eq_none_iff.2 h, Option.none_or, ← firstMissing?]

/-- The error of a step that looks up some attributes, in order, and then works with their values:
the first one that is missing, or, if none is, values of kinds that do not fit. -/
def FailsInOrder (heading : Heading) (attrs : List Attribute) (e : Error) : Prop :=
  ensureAttributes heading attrs = .error e ∨ attrs ⊆ heading ∧ e.kind = .typeMismatch

/-- Steps that look up attributes, one after the other, fail if one of these is missing. The error
is the first missing attribute, or it is that of an earlier step whose values do not fit. -/
lemma mapM_error_of_missing {α β : Type} {step : α → Except Error β} {needs : α → List Attribute}
    {xs : List α}
    (hstep : ∀ x ∈ xs, Meets (fun _ => needs x ⊆ heading) (heading.FailsInOrder (needs x)) (step x))
    (h : ensureAttributes heading (xs.flatMap needs) = .error e) :
    ∃ d, xs.mapM step = .error d ∧
      (d = e ∨ d.kind = .typeMismatch ∧ ∃ before x after, xs = before ++ x :: after ∧
        (before ++ [x]).flatMap needs ⊆ heading ∧
        (∀ y ∈ before, ∃ b, step y = .ok b) ∧ step x = .error d) := by
  induction xs with
  | nil => cases h
  | cons x xs ih =>
    obtain ⟨hx, hxs⟩ := List.forall_mem_cons.1 hstep
    rw [List.flatMap_cons] at h
    cases hresult : step x with
    | error d =>
      refine ⟨d, by rw [List.mapM_cons, hresult]; rfl, ?_⟩
      rcases hx.of_error hresult with hmissing | ⟨hsub, hkind⟩
      · rw [ensureAttributes_append_of_error hmissing] at h
        exact .inl (Except.error.inj h)
      · refine .inr ⟨hkind, [], x, xs, rfl, ?_, fun y hy => absurd hy List.not_mem_nil, hresult⟩
        simpa using hsub
    | ok b =>
      have hsub : needs x ⊆ heading := hx.of_ok hresult
      rw [ensureAttributes_append_of_subset hsub] at h
      obtain ⟨d, hd, hcases⟩ := ih hxs h
      refine ⟨d, by rw [List.mapM_cons, hresult, ok_bind, hd]; rfl, hcases.imp_right ?_⟩
      rintro ⟨hkind, before, y, after, rfl, hfound, hbefore, hy⟩
      refine ⟨hkind, x :: before, y, after, rfl, ?_, ?_, hy⟩
      · rw [List.cons_append, List.flatMap_cons]
        exact List.append_subset.2 ⟨hsub, hfound⟩
      · exact List.forall_mem_cons.2 ⟨⟨b, hresult⟩, hbefore⟩

/-- The check of a single attribute fails if it is missing. -/
lemma ensureAttributes_singleton {a : Attribute} (h : heading.Missing [a] e) :
    ensureAttributes heading [a] = .error e := by
  obtain ⟨b, hb, hmissing, rfl⟩ := h
  obtain rfl := List.mem_singleton.1 hb
  rw [ensureAttributes_eq, firstMissing?, List.find?_cons, decide_eq_true hmissing]
  rfl

end Heading

/-! ## Selections -/

/-- An operand has a value, or it is a field that the record lacks. -/
lemma Operand.resolve_meets_inOrder (record : Record) (operand : Operand) :
    Meets (fun _ => operand.field?.toList ⊆ record.heading)
      (fun e => ensureAttributes record.heading operand.field?.toList = .error e)
      (operand.resolve record) := by
  refine (operand.resolve_meets record).imp_error fun e he => ?_
  cases operand with
  | literal value => exact absurd he (Heading.not_missing (List.nil_subset _))
  | field attr => exact Heading.ensureAttributes_singleton he

/-- A comparison looks up its fields from left to right, and then applies the lookup. -/
lemma Comparison.eval_meets_inOrder (record : Record) (c : Comparison) :
    Meets (fun _ => c.fields ⊆ record.heading) (record.heading.FailsInOrder c.fields)
      (c.eval record) := by
  have hfields : c.fields = c.lhs.field?.toList ++ c.rhs.field?.toList := by
    obtain ⟨lookup, lhs, rhs⟩ := c
    cases lhs <;> cases rhs <;> rfl
  rw [hfields]
  have hlhs := (c.lhs.resolve_meets_inOrder record).imp_error fun e he =>
    (Or.inl (Heading.ensureAttributes_append_of_error he) :
      record.heading.FailsInOrder (c.lhs.field?.toList ++ c.rhs.field?.toList) e)
  refine hlhs.bind fun a ha => ?_
  have hrhs := (c.rhs.resolve_meets_inOrder record).imp_error fun e he =>
    (Or.inl ((Heading.ensureAttributes_append_of_subset ha).trans he) :
      record.heading.FailsInOrder (c.lhs.field?.toList ++ c.rhs.field?.toList) e)
  refine hrhs.bind fun b hb => ?_
  have hfound := List.append_subset.2 ⟨ha, hb⟩
  exact (c.lookup.apply_meets a b).mono (fun _ _ => hfound) fun _ he => .inr ⟨hfound, he⟩

namespace Predicate

/-- Leaving out repetitions does not change which attribute is the first that is missing. -/
lemma firstMissing?_addReferences (heading : Heading) (seen attrs : List Attribute) :
    heading.firstMissing? (addReferences seen attrs) = heading.firstMissing? (seen ++ attrs) := by
  induction attrs generalizing seen with
  | nil => rw [List.append_nil]; rfl
  | cons b attrs ih =>
    change heading.firstMissing? (addReferences (addField seen (.field b)) attrs) = _
    rw [ih, addField, Operand.field?]
    by_cases hb : b ∈ seen
    · simp only [List.contains_iff_mem, hb, if_true, Heading.firstMissing?, List.find?_append]
      cases hseen : seen.find? fun a => a ∉ heading with
      | some a => rfl
      | none =>
        have hfound : b ∈ heading := Heading.firstMissing?_eq_none_iff.1 hseen hb
        rw [List.find?_cons, decide_eq_false (not_not.2 hfound)]
    · simp only [List.contains_iff_mem, hb, if_false, List.append_assoc, List.singleton_append]

/-- The fields of a predicate are checked as its references are. -/
lemma ensureAttributes_fields (heading : Heading) (predicate : Predicate) :
    ensureAttributes heading predicate.fields = ensureAttributes heading predicate.references := by
  rw [Heading.ensureAttributes_eq, Heading.ensureAttributes_eq, fields,
    fieldsAfter_eq_addReferences, firstMissing?_addReferences, List.nil_append]

/-- The references of equations are the columns that they are about. -/
lemma references_equations (pairs : List JoinPair) :
    (equations pairs).references = JoinPair.columns pairs := by
  rw [equations, references, comparisons, references_list, List.flatMap_map]
  rfl

end Predicate

/-- An aggregate over some tuples looks up its attribute, and then reduces the values. -/
lemma Aggregate.apply_meets_inOrder (aggregate : Aggregate) (heading : Heading)
    {members : List Tuple} (h : members ≠ []) :
    Meets (fun _ => [aggregate.attr] ⊆ heading) (heading.FailsInOrder [aggregate.attr])
      (aggregate.apply (members.map (Record.mk heading))) := by
  rw [aggregate.apply_eq heading h]
  by_cases hattr : aggregate.attr ∈ heading
  · have hfound : [aggregate.attr] ⊆ heading := List.cons_subset.2 ⟨hattr, List.nil_subset _⟩
    have hvalues : (members.map fun t => heading.valueAt t aggregate.attr) ≠ [] :=
      fun hnil => h (List.map_eq_nil_iff.1 hnil)
    rw [if_pos hattr]
    exact (aggregate.kind.reduce_meets hvalues).mono (fun _ _ => hfound)
      fun _ he => .inr ⟨hfound, he⟩
  · rw [if_neg hattr]
    exact .inl (Heading.ensureAttributes_singleton ⟨_, List.mem_singleton_self _, hattr, rfl⟩)

namespace Operator

variable {relations : List Relation} {r s : Relation} {e : Error}

/-- The evaluation on a relation fails before it comes to an attribute that the relation lacks: on
the first tuple, at a comparison such that this one and those before it have their fields; or in the
first group, at an aggregate such that this one and those before it have their sources. -/
inductive FailsEarly (r : Relation) (e : Error) : Operator → Prop
  | select {predicate : Predicate} {t : Tuple} {rest : List Tuple} {before after : List Comparison}
      {c : Comparison} (tuples_eq : r.tuples = t :: rest)
      (comparisons_eq : predicate.comparisons = before ++ c :: after)
      (found : (before ++ [c]).flatMap Comparison.fields ⊆ r.heading)
      (given : ∀ d ∈ before, ∃ truth, d.Gives ⟨r.heading, t⟩ truth)
      (fails : c.Fails ⟨r.heading, t⟩ e) : FailsEarly r e (.select predicate)
  | groupBy {keys : List Attribute} {aggregations before after : List Aggregation}
      {a : Aggregation} {group : Relation.Group} {rest : List Relation.Group}
      (groups_eq : r.groupsBy keys = group :: rest)
      (aggregations_eq : aggregations = before ++ a :: after)
      (found : keys ++ (before ++ [a]).map (fun a => a.aggregate.attr) ⊆ r.heading)
      (given : ∀ b ∈ before, ∃ value,
        b.aggregate.apply (group.members.map (Record.mk r.heading)) = .ok value)
      (fails : a.aggregate.apply (group.members.map (Record.mk r.heading)) = .error e) :
      FailsEarly r e (.groupBy keys aggregations)

/-- A selection from a relation that has tuples fails if a field is missing. -/
lemma select_error_of_missing {predicate : Predicate} (hne : r.tuples ≠ [])
    (h : ensureAttributes r.heading predicate.fields = .error e) :
    ∃ d, r.select predicate = .error d ∧
      (d = e ∨ d.kind = .typeMismatch ∧ FailsEarly r d (.select predicate)) := by
  obtain ⟨t, rest, htuples⟩ := List.exists_cons_of_ne_nil hne
  rw [Predicate.ensureAttributes_fields] at h
  obtain ⟨d, hd, hcases⟩ := Heading.mapM_error_of_missing
    (fun c _ => Comparison.eval_meets_inOrder ⟨r.heading, t⟩ c) h
  have htest : predicate.eval ⟨r.heading, t⟩ = .error d := by
    rw [Predicate.eval_eq_mapM_comparisons, hd]
    rfl
  refine ⟨d, ?_, hcases.imp_right ?_⟩
  · rw [Relation.select, htuples, Relation.satisfying, htest]
    rfl
  · rintro ⟨hkind, before, c, after, hcomparisons, hfound, hbefore, hc⟩
    refine ⟨hkind, .select htuples hcomparisons hfound (fun d hd => ?_)
      (Comparison.eval_eq_error_iff.1 hc)⟩
    obtain ⟨truth, htruth⟩ := hbefore d hd
    exact ⟨truth, Comparison.eval_eq_ok_iff.1 htruth⟩

/-- Grouping a relation that has tuples fails if a grouping attribute or the source of an aggregate
is missing. -/
lemma groupBy_error_of_missing {keys : List Attribute} {aggregations : List Aggregation}
    (hne : r.tuples ≠ [])
    (h : ensureAttributes r.heading (keys ++ aggregations.map fun a => a.aggregate.attr) =
      .error e) :
    ∃ d, r.groupBy keys aggregations = .error d ∧
      (d = e ∨ d.kind = .typeMismatch ∧ FailsEarly r d (.groupBy keys aggregations)) := by
  by_cases hkeys : keys ⊆ r.heading
  · rw [Heading.ensureAttributes_append_of_subset hkeys, List.map_eq_flatMap] at h
    have hgroups : r.groupsBy keys ≠ [] := Relation.groups_ne_nil _ hne
    obtain ⟨group, rest, hgroup⟩ := List.exists_cons_of_ne_nil hgroups
    have hmembers : group.members ≠ [] := by
      have hmem : group ∈ r.groupsBy keys := by
        rw [hgroup]
        exact List.mem_cons_self
      exact (Relation.groups_from _ _ group hmem).members_ne_nil
    obtain ⟨d, hd, hcases⟩ := Heading.mapM_error_of_missing
      (fun a _ => a.aggregate.apply_meets_inOrder r.heading hmembers) h
    have hrow : Relation.groupRow r.heading aggregations group = .error d := by
      rw [Relation.groupRow, hd]
      rfl
    refine ⟨d, ?_, hcases.imp_right ?_⟩
    · have hrows : (r.groupsBy keys).mapM (Relation.groupRow r.heading aggregations) =
          .error d := by
        rw [hgroup, List.mapM_cons, hrow]
        rfl
      rw [Relation.groupBy, Heading.positions_of_subset hkeys, ok_bind]
      change ((r.groupsBy keys).mapM _ >>= _) = _
      rw [hrows]
      rfl
    · rintro ⟨hkind, before, a, after, haggregations, hfound, hbefore, ha⟩
      rw [← List.map_eq_flatMap] at hfound
      have hall := List.append_subset.2 ⟨hkeys, hfound⟩
      exact ⟨hkind, .groupBy hgroup haggregations hall hbefore ha⟩
  · cases hpositions : r.heading.positions keys with
    | ok positions => exact absurd (Heading.subset_of_positions hpositions) hkeys
    | error d =>
      have hcheck : ensureAttributes r.heading keys = .error d := by
        rw [ensureAttributes, hpositions]
        rfl
      rw [Heading.ensureAttributes_append_of_error hcheck] at h
      refine ⟨d, ?_, .inl (Except.error.inj h)⟩
      rw [Relation.groupBy, hpositions]
      rfl

/-! ## Operators -/

/-- Whether all that an operator checks depends on headings alone. -/
def checksHeadings : Operator → Bool
  | .rename _ | .project _ | .cross | .naturalJoin | .union | .intersection | .difference => true
  | _ => false

/-- Whether an operator tests equations between columns that the caller names. -/
def testsEquations : Operator → Bool
  | .innerJoin _ | .leftOuterJoin _ => true
  | _ => false

/-- The evaluation on some relations fails exactly as the plan on their headings does. -/
def FailsAsPlanned (operator : Operator) (relations : List Relation) : Prop :=
  ∀ e, operator.eval relations = .error e ↔
    operator.plan (relations.map Relation.heading) = .error e

variable {operator : Operator}

/-- An operator that takes one input is not given one. -/
lemma single_of_length_ne {α : Type} {inputs : List α} (h : inputs.length ≠ 1) :
    operator.single inputs = .error (operator.wrongInputs inputs.length) := by
  match inputs with
  | [_] => exact absurd rfl h
  | [] => rfl
  | _ :: _ :: _ => rfl

/-- An operator that takes two inputs is not given two. -/
lemma both_of_length_ne {α : Type} {inputs : List α} (h : inputs.length ≠ 2) :
    operator.both inputs = .error (operator.wrongInputs inputs.length) := by
  match inputs with
  | [_, _] => exact absurd rfl h
  | [] => rfl
  | [_] => rfl
  | _ :: _ :: _ :: _ => rfl

/-- With the wrong number of inputs the plan and the evaluation fail alike. -/
lemma failsAsPlanned_of_length_ne (h : relations.length ≠ operator.inputs) :
    operator.FailsAsPlanned relations := by
  have hheadings : (relations.map Relation.heading).length = relations.length := List.length_map _
  intro e
  cases operator with
  | rename | project | select | groupBy =>
    rw [eval, plan, single_of_length_ne h, single_of_length_ne (hheadings.trans_ne h), hheadings,
      error_bind, error_bind, Except.error.injEq, Except.error.injEq]
  | cross | naturalJoin | innerJoin | leftOuterJoin | union | intersection | difference =>
    rw [eval, plan, both_of_length_ne h, both_of_length_ne (hheadings.trans_ne h), hheadings,
      error_bind, error_bind, Except.error.injEq, Except.error.injEq]

/-- If only a check comes before a result that is known, an error is that of the check. -/
lemma error_of_check {α β : Type} {check : Except Error α} {result : β}
    (h : (check >>= fun _ => .ok result) = .error e) : check = .error e := by
  cases check with
  | ok a => cases h
  | error d => rw [error_bind, Except.error.injEq] at h; rw [h]

/-- An inner join of relations that have tuples fails as it is planned. -/
lemma innerJoin_error_of_plan_error {pairs : List JoinPair} (hr : r.WellFormed)
    (hs : s.WellFormed) (hrne : r.tuples ≠ []) (hsne : s.tuples ≠ [])
    (planned : planJoin r.heading s.heading pairs = .error e) :
    r.innerJoin s pairs = .error e := by
  by_cases hdisjoint : Heading.shared r.heading s.heading = []
  · rw [planJoin, Heading.ensureDisjoint, if_pos hdisjoint, ok_bind] at planned
    have hcolumns : ensureAttributes (r.heading ++ s.heading) (JoinPair.columns pairs) = .error e :=
      error_of_check planned
    have hfields : ensureAttributes (r.heading ++ s.heading) (Predicate.equations pairs).fields =
        .error e := by
      rw [Predicate.ensureAttributes_fields, Predicate.references_equations, hcolumns]
    have hcross := Relation.cross_eq hr.over hs.over hdisjoint
    obtain ⟨-, hproduct⟩ := (Relation.cross_meets hr.over hs.over).of_ok hcross
    obtain ⟨d, hd, hcases⟩ := select_error_of_missing
      (r := ⟨r.heading ++ s.heading, Relation.pairings r s⟩)
      (Relation.pairings_ne_nil hrne hsne) hfields
    -- Equations never compare values of kinds that do not fit.
    have hkind : d.kind = .attributes :=
      ((Relation.select_equations_meets hproduct pairs).of_error hd).kind_eq
    obtain rfl : d = e := hcases.resolve_right fun hmismatch => by
      rw [hmismatch.1] at hkind
      cases hkind
    rw [Relation.innerJoin, hcross, ok_bind, hd]
  · rw [planJoin, Heading.ensureDisjoint, if_neg hdisjoint, error_bind,
      Except.error.injEq] at planned
    rw [Relation.innerJoin, Relation.cross, Heading.ensureDisjoint, if_neg hdisjoint, error_bind,
      error_bind, planned]

/-- An operator that does not compute with values fails in the evaluation as in the plan, if a join
is given relations that have tuples. -/
lemma eval_error_of_plan_error (operator : Operator) (wellFormed : ∀ r ∈ relations, r.WellFormed)
    (hcount : relations.length = operator.inputs) (hvalues : operator.computesWithValues = false)
    (hne : operator.testsEquations = true → ∀ r ∈ relations, r.tuples ≠ [])
    (planned : operator.plan (relations.map Relation.heading) = .error e) :
    operator.eval relations = .error e := by
  cases operator with
  | select | groupBy => cases hvalues
  | rename new =>
    obtain ⟨r, rfl⟩ := List.length_eq_one_iff.1 hcount
    change (if new.length = r.heading.length then _ else _) = _ at planned
    change (if new.length = r.heading.length then _ else _) = _
    by_cases hlength : new.length = r.heading.length
    · rw [if_pos hlength] at planned
      cases planned
    · rw [if_neg hlength] at planned ⊢
      exact congrArg Except.error (Except.error.inj planned)
  | project attrs =>
    obtain ⟨r, rfl⟩ := List.length_eq_one_iff.1 hcount
    have hpositions : r.heading.positions attrs = .error e :=
      map_eq_error_iff.1 (error_of_check planned)
    change r.project attrs = _
    rw [Relation.project, hpositions, error_bind]
  | cross =>
    obtain ⟨r, s, rfl⟩ := List.length_eq_two.1 hcount
    change planJoin r.heading s.heading [] = _ at planned
    change r.cross s = _
    have hdisjoint : Heading.ensureDisjoint r.heading s.heading = .error e := error_of_check planned
    rw [Relation.cross, hdisjoint, error_bind]
  | naturalJoin =>
    obtain ⟨r, s, rfl⟩ := List.length_eq_two.1 hcount
    change (if Heading.shared r.heading s.heading = [] then _ else _) = _ at planned
    change r.naturalJoin s = _
    by_cases hshared : Heading.shared r.heading s.heading = []
    · rw [if_pos hshared] at planned
      rw [Relation.naturalJoin_of_shared_eq_nil hshared]
      exact congrArg Except.error (Except.error.inj planned)
    · rw [if_neg hshared] at planned
      cases planned
  | innerJoin pairs =>
    obtain ⟨r, s, rfl⟩ := List.length_eq_two.1 hcount
    exact innerJoin_error_of_plan_error (wellFormed r (by simp)) (wellFormed s (by simp))
      (hne rfl r (by simp)) (hne rfl s (by simp)) planned
  | leftOuterJoin pairs =>
    obtain ⟨r, s, rfl⟩ := List.length_eq_two.1 hcount
    have hjoin := innerJoin_error_of_plan_error (wellFormed r (by simp)) (wellFormed s (by simp))
      (hne rfl r (by simp)) (hne rfl s (by simp)) planned
    change r.leftOuterJoin s pairs = _
    rw [Relation.leftOuterJoin, hjoin, error_bind]
  | union | intersection | difference =>
    obtain ⟨r, s, rfl⟩ := List.length_eq_two.1 hcount
    have hsame : Heading.ensureSame r.heading s.heading = .error e := error_of_check planned
    change (Heading.ensureSame r.heading s.heading >>= _) = _
    rw [hsame, error_bind]

/-- An operator that does not compute with values fails in the evaluation exactly as in the plan, if
a join is given relations that have tuples. -/
lemma failsAsPlanned_of_computesWithValues_eq_false (wellFormed : ∀ r ∈ relations, r.WellFormed)
    (hvalues : operator.computesWithValues = false)
    (hne : operator.testsEquations = true → ∀ r ∈ relations, r.tuples ≠ []) :
    operator.FailsAsPlanned relations := by
  by_cases hcount : relations.length = operator.inputs
  · intro e
    refine ⟨fun evaluated => ?_, operator.eval_error_of_plan_error wellFormed hcount hvalues hne⟩
    cases planned : operator.plan (relations.map Relation.heading) with
    | ok heading =>
      -- After a successful plan only values of kinds that do not fit are left to go wrong.
      obtain ⟨hcomputes, -⟩ := (operator.eval_meets_of_plan wellFormed planned).of_error evaluated
      rw [hvalues] at hcomputes
      cases hcomputes
    | error d =>
      rw [operator.eval_error_of_plan_error wellFormed hcount hvalues hne planned] at evaluated
      rw [Except.error.inj evaluated]
  · exact failsAsPlanned_of_length_ne hcount

/-- Where an operator that computes with values cannot be planned on a relation that has tuples, an
attribute is missing, and the evaluation reports it unless it comes earlier to values of kinds that
do not fit. -/
lemma eval_error_of_missing (hvalues : operator.computesWithValues = true) (hne : r.tuples ≠ [])
    (planned : operator.plan [r.heading] = .error e) :
    e.kind = .attributes ∧ ∃ d, operator.eval [r] = .error d ∧
      (d = e ∨ d.kind = .typeMismatch ∧ FailsEarly r d operator) := by
  cases operator with
  | select predicate =>
    have hcheck : ensureAttributes r.heading predicate.fields = .error e := error_of_check planned
    exact ⟨((ensureAttributes_meets _ _).of_error hcheck).kind_eq,
      select_error_of_missing hne hcheck⟩
  | groupBy keys aggregations =>
    have hcheck : ensureAttributes r.heading
        (keys ++ aggregations.map fun a => a.aggregate.attr) = .error e := error_of_check planned
    exact ⟨((ensureAttributes_meets _ _).of_error hcheck).kind_eq,
      groupBy_error_of_missing hne hcheck⟩
  | _ => cases hvalues

/-- An operator that depends on headings alone neither computes with values nor tests equations. -/
lemma of_checksHeadings (h : operator.checksHeadings = true) :
    operator.computesWithValues = false ∧ operator.testsEquations = false := by
  cases operator with
  | select | groupBy | innerJoin | leftOuterJoin => cases h
  | _ => exact ⟨rfl, rfl⟩

/-- Plans and evaluations report the same errors. An operator that depends on headings alone fails
in the evaluation exactly as in the plan, also on relations without tuples, and so does every
operator with the wrong number of inputs, and a join by equations if its inputs have tuples. A
selection or a grouping that cannot be planned fails on a relation that has tuples: it reports the
missing attribute of the plan, unless it comes earlier to values of kinds that do not fit. -/
theorem eval_fails_as_planned {relations : List Relation}
    (wellFormed : ∀ r ∈ relations, r.WellFormed) :
    (∀ operator : Operator,
      operator.checksHeadings = true ∨ relations.length ≠ operator.inputs →
        operator.FailsAsPlanned relations) ∧
    (∀ operator : Operator, operator.testsEquations = true →
      (∀ r ∈ relations, r.isEmpty = false) → operator.FailsAsPlanned relations) ∧
    ∀ operator : Operator, operator.computesWithValues = true →
      ∀ r ∈ relations, r.isEmpty = false → ∀ e, operator.plan [r.heading] = .error e →
        e.kind = .attributes ∧ ∃ d, operator.eval [r] = .error d ∧
          (d = e ∨ d.kind = .typeMismatch ∧ FailsEarly r d operator) := by
  have htuples : ∀ r : Relation, r.isEmpty = false → r.tuples ≠ [] := by
    intro r hr hnil
    rw [Relation.isEmpty, hnil] at hr
    cases hr
  refine ⟨?headings, ?joins, ?values⟩
  case headings =>
    rintro operator (hheadings | hcount)
    · obtain ⟨hvalues, hequations⟩ := of_checksHeadings hheadings
      refine failsAsPlanned_of_computesWithValues_eq_false wellFormed hvalues fun htests => ?_
      rw [hequations] at htests
      cases htests
    · exact failsAsPlanned_of_length_ne hcount
  case joins =>
    intro operator hequations hne
    have hvalues : operator.computesWithValues = false := by
      cases operator with
      | innerJoin | leftOuterJoin => rfl
      | _ => cases hequations
    exact failsAsPlanned_of_computesWithValues_eq_false wellFormed hvalues fun _ r hr =>
      htuples r (hne r hr)
  case values =>
    intro operator hvalues r _ hne e planned
    exact eval_error_of_missing hvalues (htuples r hne) planned

/-- Two relations without a common attribute cannot be united, and a join of them that lacks two
columns reports the first. A selection that lacks a field comes to a text in place of a number
before it looks for the field. -/
theorem eval_fails_as_planned_of_several_errors :
    let people : Relation := ⟨[.name "id", .name "name"], [[.int 1, .text "Ada"]]⟩
    let departments : Relation := ⟨[.name "dept"], [[.text "R"], [.text "S"]]⟩
    let join : Operator := .innerJoin [(.name "id", .name "head"), (.name "boss", .name "dept")]
    let select : Operator := .select (.any [
      .compare .gt (.field (.name "name")) (.literal (.int 3)),
      .compare .exact (.field (.name "age")) (.literal (.int 1))])
    (∀ r ∈ [people, departments], r.WellFormed ∧ r.isEmpty = false) ∧
      (Operator.union.FailsAsPlanned [people, departments] ∧
        Operator.union.eval [people, departments] =
          .error (.headingMismatch people.heading departments.heading)) ∧
      (join.FailsAsPlanned [people, departments] ∧
        join.eval [people, departments] = .error (.missingAttribute (.name "head"))) ∧
      select.plan [people.heading] = .error (.missingAttribute (.name "age")) ∧
        select.eval [people] = .error (.typeMismatch "gt" .text .int) ∧
        ∃ d, select.eval [people] = .error d ∧
          (d = .missingAttribute (.name "age") ∨
            d.kind = .typeMismatch ∧ FailsEarly people d select) := by
  intro people departments join select
  have hinputs : ∀ r ∈ [people, departments], r.WellFormed ∧ r.isEmpty = false := by decide
  obtain ⟨hheadings, hjoins, hvalues⟩ := eval_fails_as_planned fun r hr => (hinputs r hr).1
  have hplan : select.plan [people.heading] = .error (.missingAttribute (.name "age")) := by
    decide +kernel
  have hunion := hheadings .union (.inl rfl)
  have hjoin := hjoins join rfl fun r hr => (hinputs r hr).2
  obtain ⟨-, hselect⟩ := hvalues select rfl people List.mem_cons_self rfl _ hplan
  exact ⟨hinputs, ⟨hunion, by decide +kernel⟩, ⟨hjoin, by decide +kernel⟩, hplan, by decide +kernel,
    hselect⟩

end Operator

end RelationalAlgebra
