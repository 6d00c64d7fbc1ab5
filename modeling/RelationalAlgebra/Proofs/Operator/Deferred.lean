import RelationalAlgebra.Proofs.Operator.Planning
import RelationalAlgebra.Proofs.Relation.Tuples

/-!
# What an evaluation leaves unchecked

A plan looks up every attribute that an operator refers to.  An evaluation looks up some of them
only with a tuple at hand: the fields of a predicate and the columns of equations when a tuple is
tested, the source of an aggregate when a group is reduced.  Where there is no tuple these are
never looked up, so an evaluation may succeed although the plan fails.

Main statement: this is the only way in which the two differ.  If an evaluation succeeds, then
either the plan succeeds with the heading of the result, or one of the inputs is empty and the
plan names a deferred attribute that no input has.
-/

namespace RelationalAlgebra

namespace Relation

variable {r s : Relation} {left right : Heading}

/-- A projection has found its columns. -/
lemma project_found (r : Relation) (attrs : List Attribute) :
    Meets (fun _ => attrs ⊆ r.heading) (fun _ => True) (r.project attrs) := by
  unfold project
  cases hpositions : r.heading.positions attrs with
  | ok positions => exact Heading.subset_of_positions hpositions
  | error e => trivial

/-- A selection that has tested a tuple has found the fields of the predicate. -/
lemma select_found (r : Relation) (predicate : Predicate) :
    Meets (fun _ => r.tuples ≠ [] → predicate.fields ⊆ r.heading) (fun _ => True)
      (r.select predicate) := by
  have hkept : Meets (fun _ => ∀ t ∈ r.tuples, predicate.fields ⊆ r.heading) (fun _ => True)
      (satisfying r.heading predicate r.tuples) := by
    have htests : Meets (fun _ => ∀ t ∈ r.tuples, predicate.fields ⊆ r.heading) (fun _ => True)
        (r.tuples.mapM fun t => predicate.eval ⟨r.heading, t⟩) :=
      Meets.mapM_inputs fun t _ =>
        (predicate.eval_meets_unfit ⟨r.heading, t⟩).imp_error fun _ _ => trivial
    rw [satisfying_eq]
    exact htests.map fun _ hall => hall
  refine hkept.bind fun _ hall hne => ?_
  obtain ⟨t, ht⟩ := List.exists_mem_of_ne_nil _ hne
  exact hall t ht

/-- A join of two relations that have tuples has found the columns of its equations. -/
lemma innerJoin_found (hr : r.Over left) (hs : s.Over right) (pairs : List JoinPair) :
    Meets
      (fun _ => r.tuples ≠ [] → s.tuples ≠ [] → JoinPair.columns pairs ⊆ left ++ right)
      (fun _ => True) (r.innerJoin s pairs) := by
  by_cases hdisjoint : Heading.shared left right = []
  · rw [innerJoin, cross_eq hr hs hdisjoint]
    refine (select_found ⟨left ++ right, pairings r s⟩ (.equations pairs)).imp_ok ?_
    intro _ hfields hrne hsne a ha
    exact hfields (pairings_ne_nil hrne hsne) (Predicate.mem_fields_equations.2 ha)
  · exact (innerJoin_meets hr hs pairs).mono (fun _ hu => absurd hu.1 hdisjoint) fun _ _ => trivial

/-- An outer join of two relations that have tuples has found the columns of its equations. -/
lemma leftOuterJoin_found (hr : r.Over left) (hs : s.Over right) (pairs : List JoinPair) :
    Meets
      (fun _ => r.tuples ≠ [] → s.tuples ≠ [] → JoinPair.columns pairs ⊆ left ++ right)
      (fun _ => True) (r.leftOuterJoin s pairs) :=
  (innerJoin_found hr hs pairs).bind fun _ hfound =>
    Meets.of_forall (fun _ => hfound) fun _ => trivial

/-- Some tuples have some group. -/
lemma groups_ne_nil (positions : List Nat) {tuples : List Tuple} (h : tuples ≠ []) :
    groups positions tuples ≠ [] := by
  have hadd : ∀ key t found, addToGroup key t found ≠ [] := by
    intro key t found
    cases found with
    | nil => exact List.cons_ne_nil _ _
    | cons group rest =>
      unfold addToGroup
      cases Tuple.compare key group.key <;> exact List.cons_ne_nil _ _
  cases tuples with
  | nil => exact absurd rfl h
  | cons t tuples => exact hadd _ _ _

/-- A group that has been reduced has the sources of all aggregates. -/
lemma groupRow_found (heading : Heading) (aggregations : List Aggregation) {group : Group}
    (h : group.members ≠ []) :
    Meets (fun _ => (aggregations.map fun a => a.aggregate.attr) ⊆ heading) (fun _ => True)
      (groupRow heading aggregations group) := by
  have hresults : Meets (fun _ => ∀ a ∈ aggregations, a.aggregate.attr ∈ heading) (fun _ => True)
      (aggregations.mapM fun a => a.aggregate.apply (group.members.map (Record.mk heading))) :=
    Meets.mapM_inputs fun a _ => (a.aggregate.apply_meets heading h).imp_error fun _ _ => trivial
  refine hresults.bind fun _ hfound attr hattr => ?_
  obtain ⟨a, ha, rfl⟩ := List.mem_map.1 hattr
  exact hfound a ha

/-- Grouping has found the grouping attributes, and, if there are tuples, the sources of all
aggregates. -/
lemma groupBy_found (r : Relation) (keys : List Attribute) (aggregations : List Aggregation) :
    Meets
      (fun _ => keys ⊆ r.heading ∧
        (r.tuples ≠ [] → (aggregations.map fun a => a.aggregate.attr) ⊆ r.heading))
      (fun _ => True) (r.groupBy keys aggregations) := by
  unfold groupBy
  cases hpositions : r.heading.positions keys with
  | error e => trivial
  | ok positions =>
    have hkeys := Heading.subset_of_positions hpositions
    have hrows : Meets
        (fun _ => ∀ group ∈ groups positions r.tuples,
          (aggregations.map fun a => a.aggregate.attr) ⊆ r.heading) (fun _ => True)
        ((groups positions r.tuples).mapM (groupRow r.heading aggregations)) :=
      Meets.mapM_inputs fun group hgroup => groupRow_found r.heading aggregations
        (groups_from positions r.tuples group hgroup).members_ne_nil
    refine hrows.bind fun _ hall => ⟨hkeys, fun hne => ?_⟩
    obtain ⟨group, hgroup⟩ := List.exists_mem_of_ne_nil _ (groups_ne_nil positions hne)
    exact hall group hgroup

end Relation

namespace Operator

variable {relations : List Relation} {result : Relation}

/-- The attributes that an evaluation looks up only with a tuple at hand. -/
def deferred : Operator → List Attribute
  | .select predicate => predicate.fields
  | .groupBy _ aggregations => aggregations.map fun a => a.aggregate.attr
  | .innerJoin pairs | .leftOuterJoin pairs => JoinPair.columns pairs
  | _ => []

/-- The error of a plan that an evaluation does not notice: an input is empty, and a deferred
attribute occurs in no input. -/
def Unnoticed (operator : Operator) (relations : List Relation) (e : Error) : Prop :=
  (∃ r ∈ relations, r.isEmpty = true) ∧
    Heading.Missing (relations.flatMap Relation.heading) operator.deferred e

/-! ## The plan after an evaluation -/

/-- Where all inputs have tuples no deferred attribute is missing; so where one is missing, some
input is empty. -/
lemma unnoticed_of_missing {operator : Operator} {e : Error}
    (hfound : (∀ r ∈ relations, r.tuples ≠ []) →
      operator.deferred ⊆ relations.flatMap Relation.heading)
    (hmissing : Heading.Missing (relations.flatMap Relation.heading) operator.deferred e) :
    operator.Unnoticed relations e := by
  refine ⟨?_, hmissing⟩
  by_contra hempty
  refine Heading.not_missing (hfound fun r hr hnil => hempty ⟨r, hr, ?_⟩) hmissing
  rw [Relation.isEmpty, hnil]
  rfl

/-- The headings of a single input. -/
lemma flatMap_heading_single (r : Relation) : [r].flatMap Relation.heading = r.heading := by
  simp only [List.flatMap_cons, List.flatMap_nil, List.append_nil]

/-- The headings of two inputs. -/
lemma flatMap_heading_both (r s : Relation) :
    [r, s].flatMap Relation.heading = r.heading ++ s.heading := by
  simp only [List.flatMap_cons, List.flatMap_nil, List.append_nil]

/-- An operator that looks up columns of one relation, some of them deferred, is planned after an
evaluation unless one of these is missing. -/
lemma planColumns_meets_of_eval {operator : Operator} {r : Relation} {attrs : List Attribute}
    {new : Heading} (hdeferred : operator.deferred ⊆ attrs)
    (hothers : ∀ a ∈ attrs, a ∈ r.heading ∨ a ∈ operator.deferred)
    (hfound : r.tuples ≠ [] → operator.deferred ⊆ r.heading) :
    Meets (fun _ => operator.deferred ⊆ [r].flatMap Relation.heading) (operator.Unnoticed [r])
      (ensureAttributes r.heading attrs >>= fun _ => .ok new) := by
  have hcheck := ensureAttributes_meets r.heading attrs
  refine (hcheck.imp_error fun e he => ?_).bind fun _ hsub => ?_
  · refine unnoticed_of_missing (fun hne => ?_) ?_
    · rw [flatMap_heading_single]
      exact hfound (hne r List.mem_cons_self)
    · obtain ⟨a, ha, hmissing, rfl⟩ := he
      rw [flatMap_heading_single]
      exact ⟨a, (hothers a ha).resolve_left hmissing, hmissing, rfl⟩
  · change operator.deferred ⊆ _
    rw [flatMap_heading_single]
    exact List.Subset.trans hdeferred hsub

/-- A join that has been evaluated is planned unless a column of its equations is missing. -/
lemma planJoin_meets_of_eval {operator : Operator} {r s : Relation} {pairs : List JoinPair}
    (hdeferred : operator.deferred = JoinPair.columns pairs)
    (hdisjoint : Heading.shared r.heading s.heading = [])
    (hfound : r.tuples ≠ [] → s.tuples ≠ [] →
      JoinPair.columns pairs ⊆ r.heading ++ s.heading) :
    Meets (fun _ => operator.deferred ⊆ [r, s].flatMap Relation.heading)
      (operator.Unnoticed [r, s]) (planJoin r.heading s.heading pairs) := by
  refine (planJoin_meets r.heading s.heading pairs).mono (fun _ hplan => ?_) fun e he => ?_
  · rw [hdeferred, flatMap_heading_both]
    exact hplan.2.2
  · refine unnoticed_of_missing (fun hne => ?_) ?_
    · rw [hdeferred, flatMap_heading_both]
      exact hfound (hne r List.mem_cons_self)
        (hne s (List.mem_cons_of_mem r List.mem_cons_self))
    · rw [hdeferred, flatMap_heading_both]
      exact he.resolve_left fun hconflict => hconflict.1 hdisjoint

/-- An operator on two relations with one heading, which defers nothing, is planned after an
evaluation. -/
lemma planSame_meets_of_eval {operator : Operator} {r s : Relation}
    (hdeferred : operator.deferred = []) (hsame : r.heading = s.heading) :
    Meets (fun _ => operator.deferred ⊆ [r, s].flatMap Relation.heading)
      (operator.Unnoticed [r, s])
      (Heading.ensureSame r.heading s.heading >>= fun _ => .ok r.heading) := by
  refine (Heading.ensureSame_meets r.heading s.heading).bind_of_not
    (fun _ he => he.1 hsame) fun _ _ => ?_
  change operator.deferred ⊆ _
  rw [hdeferred]
  exact List.nil_subset _

/-- After a successful evaluation the plan has found all deferred attributes, or it fails with an
error that the evaluation has not noticed. -/
lemma plan_meets_of_eval (operator : Operator) (wellFormed : ∀ r ∈ relations, r.WellFormed)
    (evaluated : operator.eval relations = .ok result) :
    Meets (fun _ => operator.deferred ⊆ relations.flatMap Relation.heading)
      (operator.Unnoticed relations) (operator.plan (relations.map Relation.heading)) := by
  have hinputs : relations = relations.map id := (List.map_id relations).symm
  cases operator with
  | rename new =>
    obtain ⟨r, rfl, hr, h⟩ := single_of_ok hinputs wellFormed evaluated
    have hlength := ((Relation.rename_meets hr new).of_ok h).1
    change Meets _ _ (if new.length = r.heading.length then _ else _)
    rw [if_pos hlength]
    exact List.nil_subset _
  | project attrs =>
    obtain ⟨r, rfl, -, h⟩ := single_of_ok hinputs wellFormed evaluated
    have hsub := (Relation.project_found r attrs).of_ok h
    exact planColumns_meets_of_eval (List.nil_subset _) (fun a ha => Or.inl (hsub ha))
      fun _ => List.nil_subset _
  | select predicate =>
    obtain ⟨r, rfl, -, h⟩ := single_of_ok hinputs wellFormed evaluated
    exact planColumns_meets_of_eval (List.Subset.refl _) (fun _ ha => Or.inr ha)
      ((r.select_found predicate).of_ok h)
  | groupBy keys aggregations =>
    obtain ⟨r, rfl, -, h⟩ := single_of_ok hinputs wellFormed evaluated
    obtain ⟨hkeys, hsources⟩ := (r.groupBy_found keys aggregations).of_ok h
    refine planColumns_meets_of_eval (List.subset_append_right _ _) (fun a ha => ?_) hsources
    exact (List.mem_append.1 ha).imp_left fun hkey => hkeys hkey
  | cross =>
    obtain ⟨r, s, rfl, hr, hs, h⟩ := both_of_ok hinputs wellFormed evaluated
    exact planJoin_meets_of_eval rfl ((Relation.cross_meets hr hs).of_ok h).1
      fun _ _ => List.nil_subset _
  | naturalJoin =>
    obtain ⟨r, s, rfl, hr, hs, h⟩ := both_of_ok hinputs wellFormed evaluated
    have hshared := ((Relation.naturalJoin_meets hr hs).of_ok h).1
    change Meets _ _ (if Heading.shared r.heading s.heading = [] then _ else _)
    rw [if_neg hshared]
    exact List.nil_subset _
  | innerJoin pairs =>
    obtain ⟨r, s, rfl, hr, hs, h⟩ := both_of_ok hinputs wellFormed evaluated
    exact planJoin_meets_of_eval rfl ((Relation.innerJoin_meets hr hs pairs).of_ok h).1
      ((Relation.innerJoin_found hr hs pairs).of_ok h)
  | leftOuterJoin pairs =>
    obtain ⟨r, s, rfl, hr, hs, h⟩ := both_of_ok hinputs wellFormed evaluated
    exact planJoin_meets_of_eval rfl ((Relation.leftOuterJoin_meets hr hs pairs).of_ok h).1
      ((Relation.leftOuterJoin_found hr hs pairs).of_ok h)
  | union =>
    obtain ⟨r, s, rfl, hr, hs, h⟩ := both_of_ok hinputs wellFormed evaluated
    exact planSame_meets_of_eval rfl ((Relation.union_meets hr hs).of_ok h).1
  | intersection =>
    obtain ⟨r, s, rfl, hr, hs, h⟩ := both_of_ok hinputs wellFormed evaluated
    exact planSame_meets_of_eval rfl ((Relation.intersection_meets hr hs).of_ok h).1
  | difference =>
    obtain ⟨r, s, rfl, hr, hs, h⟩ := both_of_ok hinputs wellFormed evaluated
    exact planSame_meets_of_eval rfl ((Relation.difference_meets hr hs).of_ok h).1

/-- A plan never refuses what an evaluation has found: after a successful evaluation the plan on
the headings of the inputs succeeds with the heading of the result, and all deferred attributes
occur in the inputs.  The only exception are inputs without tuples: if one of them is empty, a
deferred attribute may occur in no input, and then the plan fails on such an attribute. -/
theorem plan_of_eval (operator : Operator) {relations : List Relation} {result : Relation}
    (wellFormed : ∀ r ∈ relations, r.WellFormed)
    (evaluated : operator.eval relations = .ok result) :
    (operator.deferred ⊆ relations.flatMap Relation.heading ∧
      operator.plan (relations.map Relation.heading) = .ok result.heading) ∨
    (∃ r ∈ relations, r.isEmpty = true) ∧
      ∃ a ∈ operator.deferred, a ∉ relations.flatMap Relation.heading ∧
        operator.plan (relations.map Relation.heading) = .error (.missingAttribute a) := by
  have hplan := operator.plan_meets_of_eval wellFormed evaluated
  cases hp : operator.plan (relations.map Relation.heading) with
  | ok heading =>
    have hheading := ((operator.eval_meets_of_plan wellFormed hp).of_ok evaluated).heading_eq
    rw [hheading]
    exact Or.inl ⟨hplan.of_ok hp, rfl⟩
  | error e =>
    obtain ⟨hempty, a, ha, hmissing, rfl⟩ := hplan.of_error hp
    exact Or.inr ⟨hempty, a, ha, hmissing, rfl⟩

/-- A join of people with an empty relation of departments on a column that neither has: the
evaluation does not notice, and the plan does. -/
theorem plan_of_eval_join_of_empty :
    let people : Relation := ⟨[.name "id", .name "name"], [[.int 1, .text "Ada"]]⟩
    let departments : Relation := .empty [.name "dept"]
    let join : Operator := .innerJoin [(.name "id", .name "head")]
    (∀ r ∈ [people, departments], r.WellFormed) ∧
      join.eval [people, departments] = .ok (.empty [.name "id", .name "name", .name "dept"]) ∧
      (∃ r ∈ [people, departments], r.isEmpty = true) ∧ .name "head" ∈ join.deferred ∧
      .name "head" ∉ [people, departments].flatMap Relation.heading ∧
      join.plan ([people, departments].map Relation.heading) =
        .error (.missingAttribute (.name "head")) := by
  intro people departments join
  have wellFormed : ∀ r ∈ [people, departments], r.WellFormed := by decide
  have evaluated : join.eval [people, departments] =
      .ok (.empty [.name "id", .name "name", .name "dept"]) := by
    decide +kernel
  have refused : join.plan ([people, departments].map Relation.heading) =
      .error (.missingAttribute (.name "head")) := by
    decide +kernel
  rcases plan_of_eval join wellFormed evaluated with
    ⟨-, planned⟩ | ⟨hempty, a, ha, hmissing, herror⟩
  · cases refused.symm.trans planned
  · obtain rfl : a = .name "head" := by
      have heq := Except.error.inj (herror.symm.trans refused)
      exact Error.missingAttribute.inj heq
    exact ⟨wellFormed, evaluated, hempty, ha, hmissing, refused⟩

/-- Selections, groupings and joins that name a missing attribute are evaluated on relations
without tuples although they cannot be planned. -/
theorem eval_ok_plan_error_of_empty :
    let sales : Relation := .empty [.name "region", .name "amount"]
    let staff : Relation := .empty [.name "id"]
    let select : Operator := .select
      (.compare .gt (.field (.name "price")) (.literal (.int 1)))
    let sum : Operator := .groupBy [.name "region"] [⟨⟨.sum, .name "price"⟩, .name "total"⟩]
    let join : Operator := .innerJoin [(.name "amount", .name "price")]
    let outer : Operator := .leftOuterJoin [(.name "amount", .name "price")]
    let missing : Error := .missingAttribute (.name "price")
    (sales.WellFormed ∧ staff.WellFormed) ∧
      (select.eval [sales] = .ok sales ∧ select.plan [sales.heading] = .error missing) ∧
      (sum.eval [sales] = .ok (.empty [.name "region", .name "total"]) ∧
        sum.plan [sales.heading] = .error missing) ∧
      (join.eval [sales, staff] = .ok (.empty [.name "region", .name "amount", .name "id"]) ∧
        join.plan [sales.heading, staff.heading] = .error missing) ∧
      (outer.eval [sales, staff] = .ok (.empty [.name "region", .name "amount", .name "id"]) ∧
        outer.plan [sales.heading, staff.heading] = .error missing) := by
  decide +kernel

end Operator

end RelationalAlgebra
