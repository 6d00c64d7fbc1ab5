import RelationalAlgebra.Aggregate.Basic
import RelationalAlgebra.Proofs.Predicate.Comparisons

/-!
# How aggregates fail

A group has at least one record, so that no aggregate over it lacks a value.  What is left to go
wrong is that the attribute is missing or that the values do not fit the aggregate.
-/

namespace RelationalAlgebra

namespace Scalar

/-- The sum of two values fails only if one of them is no number. -/
lemma plus_meets (operation : String) (a b : Scalar) :
    Meets (fun _ => True) (fun e => e.kind = .typeMismatch) (plus operation a b) := by
  unfold plus
  split
  · trivial
  · trivial
  · trivial
  · trivial
  · rfl

/-- The sum of values fails only if one of them is no number. -/
lemma total_meets (operation : String) (values : List Scalar) :
    Meets (fun _ => True) (fun e => e.kind = .typeMismatch) (total operation values) :=
  Meets.foldlM trivial fun a b _ => plus_meets operation a b

end Scalar

namespace AggregateKind

/-- The extreme value of a list that has one fails only if two values are not ordered. -/
lemma extreme_meets (kind : AggregateKind) (preferred : Ordering) {values : List Scalar}
    (h : values ≠ []) :
    Meets (fun _ => True) (fun e => e.kind = .typeMismatch) (extreme kind preferred values) := by
  cases values with
  | nil => exact absurd rfl h
  | cons first rest =>
    refine Meets.foldlM trivial fun old new _ => ?_
    exact (new.compareWithin_meets kind.name old).map fun _ _ => trivial

/-- Reducing some values fails only if they do not fit the aggregate. -/
theorem reduce_meets (kind : AggregateKind) {values : List Scalar} (h : values ≠ []) :
    Meets (fun _ => True) (fun e => e.kind = .typeMismatch) (kind.reduce values) := by
  unfold reduce
  cases kind with
  | count => trivial
  | sum => exact Scalar.total_meets _ values
  | avg =>
    simp only [h, if_false]
    exact (Scalar.total_meets _ values).bind fun _ _ => trivial
  | min => exact extreme_meets _ _ h
  | max => exact extreme_meets _ _ h

end AggregateKind

/-- An aggregate over some records with one heading has found its attribute, or it fails because
the attribute is missing or because the values do not fit it. -/
theorem Aggregate.apply_meets (aggregate : Aggregate) (heading : Heading) {members : List Tuple}
    (h : members ≠ []) :
    Meets (fun _ => aggregate.attr ∈ heading) (heading.Unfit [aggregate.attr])
      (aggregate.apply (members.map (Record.mk heading))) := by
  have hvalues : Meets
      (fun values => values.length = members.length ∧ aggregate.attr ∈ heading)
      (heading.Missing [aggregate.attr])
      ((members.map (Record.mk heading)).mapM fun record => record.get aggregate.attr) := by
    have hget : Meets
        (List.Forall₂ (fun record _ => aggregate.attr ∈ record.heading)
          (members.map (Record.mk heading)))
        (heading.Missing [aggregate.attr])
        ((members.map (Record.mk heading)).mapM fun record => record.get aggregate.attr) := by
      refine Meets.mapM fun record hrecord => ?_
      obtain ⟨t, -, rfl⟩ := List.mem_map.1 hrecord
      exact Record.get_meets ⟨heading, t⟩ aggregate.attr
    refine hget.imp_ok fun values hvalues => ⟨?_, ?_⟩
    · rw [← hvalues.length_eq, List.length_map]
    · obtain ⟨t, ht⟩ := List.exists_mem_of_ne_nil members h
      obtain ⟨_, -, hattr⟩ := exists_of_forall₂ hvalues.flip (List.mem_map_of_mem ht)
      exact hattr
  refine (hvalues.imp_error fun _ he => Or.inl he).bind fun values ⟨hlength, hattr⟩ => ?_
  have hne : values ≠ [] := by
    rintro rfl
    exact h (List.length_eq_zero_iff.1 hlength.symm)
  exact (aggregate.kind.reduce_meets hne).mono (fun _ _ => hattr) fun _ he => Or.inr he

end RelationalAlgebra
