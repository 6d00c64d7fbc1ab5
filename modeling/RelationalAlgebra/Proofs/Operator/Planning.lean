import RelationalAlgebra.Operator
import RelationalAlgebra.Proofs.Relation.Groups
import RelationalAlgebra.Proofs.Relation.Joins

/-!
# What a plan promises

A plan looks at the headings of the inputs only.  It checks all that the evaluation will check
about headings, so that after a successful plan the evaluation has a result with the planned
heading.  The only exception are operators that compute with values: no plan can see that the
values of a column have kinds that do not fit.
-/

namespace RelationalAlgebra.Operator

variable {relations : List Relation} {heading : Heading}

/-- Whether an operator computes with values, so that their kinds matter. -/
def computesWithValues : Operator → Bool
  | .select _ | .groupBy _ _ => true
  | _ => false

/-! ## Inputs -/

section

variable {α β : Type} {view : Relation → α} {inputs : List α} {result : β}

/-- An operator that is planned or evaluated on one input is given a view of one relation. -/
lemma single_of_ok {operator : Operator} {next : α → Except Error β}
    (hinputs : inputs = relations.map view) (wellFormed : ∀ r ∈ relations, r.WellFormed)
    (h : (operator.single inputs >>= next) = .ok result) :
    ∃ r, relations = [r] ∧ r.Over r.heading ∧ next (view r) = .ok result := by
  subst hinputs
  match relations with
  | [r] => exact ⟨r, rfl, (wellFormed r List.mem_cons_self).over, h⟩
  | [] => cases h
  | _ :: _ :: _ => cases h

/-- An operator that is planned or evaluated on two inputs is given views of two relations. -/
lemma both_of_ok {operator : Operator} {next : α × α → Except Error β}
    (hinputs : inputs = relations.map view) (wellFormed : ∀ r ∈ relations, r.WellFormed)
    (h : (operator.both inputs >>= next) = .ok result) :
    ∃ r s, relations = [r, s] ∧ r.Over r.heading ∧ s.Over s.heading ∧
      next (view r, view s) = .ok result := by
  subst hinputs
  match relations with
  | [r, s] =>
    have hs := wellFormed s (List.mem_cons_of_mem r List.mem_cons_self)
    exact ⟨r, s, rfl, (wellFormed r List.mem_cons_self).over, hs.over, h⟩
  | [] => cases h
  | [_] => cases h
  | _ :: _ :: _ :: _ => cases h

end

/-! ## The checks of a plan -/

/-- Attributes all occur in a heading, or one of them is missing. -/
lemma ensureAttributes_meets (heading : Heading) (attrs : List Attribute) :
    Meets (fun _ => attrs ⊆ heading) (heading.Missing attrs) (ensureAttributes heading attrs) := by
  unfold ensureAttributes
  cases hpositions : heading.positions attrs with
  | ok positions => exact Heading.subset_of_positions hpositions
  | error e => exact (Heading.positions_meets heading attrs).of_error hpositions

/-- A plan that only checks attributes has found all of them. -/
lemma subset_of_plan {old new : Heading} {attrs : List Attribute}
    (h : (ensureAttributes old attrs >>= fun _ => .ok new) = .ok heading) :
    attrs ⊆ old ∧ new = heading := by
  have hmeets : Meets (fun h => attrs ⊆ old ∧ new = h) (old.Missing attrs)
      (ensureAttributes old attrs >>= fun _ => .ok new) :=
    (ensureAttributes_meets old attrs).bind fun _ hsub => ⟨hsub, rfl⟩
  exact hmeets.of_ok h

/-- A plan that only compares two headings has found them the same. -/
lemma same_of_plan {left right : Heading}
    (h : (Heading.ensureSame left right >>= fun _ => .ok left) = .ok heading) :
    left = right ∧ left = heading := by
  have hmeets : Meets (fun h => left = right ∧ left = h) (Heading.Mismatch left right)
      (Heading.ensureSame left right >>= fun _ => .ok left) :=
    (Heading.ensureSame_meets left right).bind fun _ hsame => ⟨hsame, rfl⟩
  exact hmeets.of_ok h

/-- A join is planned on disjoint headings that have all columns of the equations. -/
lemma planJoin_meets (left right : Heading) (pairs : List JoinPair) :
    Meets
      (fun h => h = left ++ right ∧ Heading.shared left right = [] ∧
        JoinPair.columns pairs ⊆ left ++ right)
      (Relation.JoinError left right pairs) (planJoin left right pairs) := by
  have hdisjoint := (Heading.ensureDisjoint_meets left right).imp_error fun e he =>
    (Or.inl he : Relation.JoinError left right pairs e)
  refine hdisjoint.bind fun _ hshared => ?_
  have hcolumns := (ensureAttributes_meets (left ++ right) (JoinPair.columns pairs)).imp_error
    fun e he => (Or.inr he : Relation.JoinError left right pairs e)
  exact hcolumns.bind fun _ hsub => ⟨rfl, hshared, hsub⟩

/-- A join that has been planned does not fail. -/
lemma not_joinError_of_plan {left right : Heading} {pairs : List JoinPair}
    (h : planJoin left right pairs = .ok heading) :
    left ++ right = heading ∧ ∀ e, ¬ Relation.JoinError left right pairs e := by
  obtain ⟨rfl, hshared, hsub⟩ := (planJoin_meets left right pairs).of_ok h
  exact ⟨rfl, fun e he => he.elim (fun hconflict => hconflict.1 hshared)
    (Heading.not_missing hsub)⟩

/-! ## Evaluating what has been planned -/

/-- After a successful plan the result has the planned heading, and the evaluation fails only on
values of kinds that do not fit. -/
lemma eval_meets_of_plan (operator : Operator)
    (wellFormed : ∀ r ∈ relations, r.WellFormed)
    (planned : operator.plan (relations.map Relation.heading) = .ok heading) :
    Meets (Relation.Over heading)
      (fun e => operator.computesWithValues = true ∧ e.kind = .typeMismatch)
      (operator.eval relations) := by
  cases operator with
  | rename new =>
    obtain ⟨r, rfl, hr, hplan⟩ := single_of_ok rfl wellFormed planned
    by_cases hlength : new.length = r.heading.length
    · rw [if_pos hlength] at hplan
      obtain rfl := Except.ok.inj hplan
      exact (Relation.rename_meets hr new).mono (fun _ hu => hu.2) fun _ he =>
        absurd hlength he.1
    · rw [if_neg hlength] at hplan
      cases hplan
  | project attrs =>
    obtain ⟨r, rfl, hr, hplan⟩ := single_of_ok rfl wellFormed planned
    obtain ⟨hsub, rfl⟩ := subset_of_plan hplan
    exact (Relation.project_meets hr attrs).imp_error fun _ he =>
      absurd he (Heading.not_missing hsub)
  | select predicate =>
    obtain ⟨r, rfl, hr, hplan⟩ := single_of_ok rfl wellFormed planned
    obtain ⟨hsub, rfl⟩ := subset_of_plan hplan
    exact (Relation.select_meets_unfit hr predicate).imp_error fun _ he =>
      ⟨rfl, he.kind_eq hsub⟩
  | groupBy keys aggregations =>
    obtain ⟨r, rfl, hr, hplan⟩ := single_of_ok rfl wellFormed planned
    obtain ⟨hsub, rfl⟩ := subset_of_plan hplan
    exact (Relation.groupBy_meets hr keys aggregations).imp_error fun _ he =>
      ⟨rfl, he.kind_eq hsub⟩
  | cross =>
    obtain ⟨r, s, rfl, hr, hs, hplan⟩ := both_of_ok rfl wellFormed planned
    obtain ⟨rfl, hnot⟩ := not_joinError_of_plan hplan
    exact (Relation.cross_meets hr hs).mono (fun _ hu => hu.2) fun e he =>
      absurd (Or.inl he) (hnot e)
  | naturalJoin =>
    obtain ⟨r, s, rfl, hr, hs, hplan⟩ := both_of_ok rfl wellFormed planned
    by_cases hshared : Heading.shared r.heading s.heading = []
    · simp only [hshared, if_true] at hplan
      cases hplan
    · simp only [hshared, if_false] at hplan
      obtain rfl := Except.ok.inj hplan
      exact (Relation.naturalJoin_meets hr hs).mono (fun _ hu => hu.2) fun _ he =>
        absurd he.1 hshared
  | innerJoin pairs =>
    obtain ⟨r, s, rfl, hr, hs, hplan⟩ := both_of_ok rfl wellFormed planned
    obtain ⟨rfl, hnot⟩ := not_joinError_of_plan hplan
    exact (Relation.innerJoin_meets hr hs pairs).mono (fun _ hu => hu.2) fun e he =>
      absurd he (hnot e)
  | leftOuterJoin pairs =>
    obtain ⟨r, s, rfl, hr, hs, hplan⟩ := both_of_ok rfl wellFormed planned
    obtain ⟨rfl, hnot⟩ := not_joinError_of_plan hplan
    exact (Relation.leftOuterJoin_meets hr hs pairs).mono (fun _ hu => hu.2) fun e he =>
      absurd he (hnot e)
  | union =>
    obtain ⟨r, s, rfl, hr, hs, hplan⟩ := both_of_ok rfl wellFormed planned
    obtain ⟨hsame, rfl⟩ := same_of_plan hplan
    exact (Relation.union_meets hr hs).mono (fun _ hu => hu.2) fun _ he =>
      absurd hsame he.1
  | intersection =>
    obtain ⟨r, s, rfl, hr, hs, hplan⟩ := both_of_ok rfl wellFormed planned
    obtain ⟨hsame, rfl⟩ := same_of_plan hplan
    exact (Relation.intersection_meets hr hs).mono (fun _ hu => hu.2) fun _ he =>
      absurd hsame he.1
  | difference =>
    obtain ⟨r, s, rfl, hr, hs, hplan⟩ := both_of_ok rfl wellFormed planned
    obtain ⟨hsame, rfl⟩ := same_of_plan hplan
    exact (Relation.difference_meets hr hs).mono (fun _ hu => hu.2) fun _ he =>
      absurd hsame he.1

/-- Planning is sound: after a successful plan on the headings of some relations, the evaluation
on these relations returns a relation with the planned heading, unless the operator computes with
values and two values have kinds that do not fit. -/
theorem eval_of_plan (operator : Operator) {relations : List Relation} {heading : Heading}
    (wellFormed : ∀ r ∈ relations, r.WellFormed)
    (planned : operator.plan (relations.map Relation.heading) = .ok heading) :
    (∃ r, operator.eval relations = .ok r ∧ r.heading = heading) ∨
      operator.computesWithValues = true ∧ ∃ operation left right,
        operator.eval relations = .error (.typeMismatch operation left right) := by
  have hmeets := operator.eval_meets_of_plan wellFormed planned
  cases heval : operator.eval relations with
  | ok r => exact Or.inl ⟨r, rfl, (hmeets.of_ok heval).heading_eq⟩
  | error e =>
    obtain ⟨hcomputes, hkind⟩ := hmeets.of_error heval
    cases e with
    | typeMismatch operation left right => exact Or.inr ⟨hcomputes, operation, left, right, rfl⟩
    | _ => cases hkind

/-- A sum of texts is planned, and its evaluation finds that the kinds do not fit. -/
theorem eval_of_plan_sum_of_texts :
    let cities : Relation := ⟨[.name "id", .name "city"], [[.int 1, .text "Oslo"]]⟩
    let sum : Operator := .groupBy [.name "id"] [⟨⟨.sum, .name "city"⟩, .name "total"⟩]
    (∀ r ∈ [cities], r.WellFormed) ∧
      sum.plan ([cities].map Relation.heading) = .ok [.name "id", .name "total"] ∧
      sum.computesWithValues = true ∧
      sum.eval [cities] = .error (.typeMismatch "sum" .int .text) := by
  intro cities sum
  have wellFormed : ∀ r ∈ [cities], r.WellFormed := by decide
  have planned : sum.plan ([cities].map Relation.heading) = .ok [.name "id", .name "total"] := by
    decide +kernel
  have failed : sum.eval [cities] = .error (.typeMismatch "sum" .int .text) := by decide +kernel
  rcases eval_of_plan sum wellFormed planned with ⟨r, hr, -⟩ | ⟨hcomputes, -⟩
  · cases failed.symm.trans hr
  · exact ⟨wellFormed, planned, hcomputes, failed⟩

end RelationalAlgebra.Operator
