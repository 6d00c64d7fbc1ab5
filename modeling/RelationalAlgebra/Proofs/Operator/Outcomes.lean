import RelationalAlgebra.Operator
import RelationalAlgebra.Proofs.Relation.Groups
import RelationalAlgebra.Proofs.Relation.Joins

/-!
# How operators evaluate

On well-formed relations every operator returns a well-formed relation or fails.  Only renaming
compares the length of a parameter with its input, so no other operator fails with an error of
length: what the operations in between put together always fits.
-/

namespace RelationalAlgebra.Operator

/-- The input of an operator that takes one, unless their number is wrong. -/
lemma single_meets {α : Type} (operator : Operator) (inputs : List α) :
    Meets (fun input => input ∈ inputs) (fun e => e.kind = .plan) (operator.single inputs) := by
  match inputs with
  | [input] => exact List.mem_singleton_self input
  | [] => exact rfl
  | _ :: _ :: _ => exact rfl

/-- The inputs of an operator that takes two, unless their number is wrong. -/
lemma both_meets {α : Type} (operator : Operator) (inputs : List α) :
    Meets (fun pair => pair.1 ∈ inputs ∧ pair.2 ∈ inputs) (fun e => e.kind = .plan)
      (operator.both inputs) := by
  match inputs with
  | [left, right] => exact ⟨List.mem_cons_self, List.mem_cons_of_mem left List.mem_cons_self⟩
  | [] => exact rfl
  | [_] => exact rfl
  | _ :: _ :: _ :: _ => exact rfl

/-- Whether an operator compares the length of a parameter with its input. -/
def comparesLength : Operator → Bool
  | .rename _ => true
  | _ => false

variable {operator : Operator} {relations : List Relation} {bad : Error → Prop}

/-- An operator with one input keeps relations well formed if its operation does. -/
lemma single_bind_meets {operation : Relation → Except Error Relation}
    (wellFormed : ∀ r ∈ relations, r.WellFormed) (hplan : ∀ e, e.kind = .plan → bad e)
    (h : ∀ r : Relation, r.Over r.heading → Meets Relation.WellFormed bad (operation r)) :
    Meets Relation.WellFormed bad (operator.single relations >>= operation) :=
  ((operator.single_meets relations).imp_error hplan).bind fun r hr => h r (wellFormed r hr).over

/-- An operator with two inputs keeps relations well formed if its operation does. -/
lemma both_bind_meets {operation : Relation × Relation → Except Error Relation}
    (wellFormed : ∀ r ∈ relations, r.WellFormed) (hplan : ∀ e, e.kind = .plan → bad e)
    (h : ∀ r s : Relation, r.Over r.heading → s.Over s.heading →
      Meets Relation.WellFormed bad (operation (r, s))) :
    Meets Relation.WellFormed bad (operator.both relations >>= operation) :=
  ((operator.both_meets relations).imp_error hplan).bind fun (r, s) ⟨hr, hs⟩ =>
    h r s (wellFormed r hr).over (wellFormed s hs).over

/-- Operators keep relations well formed, and only one that compares lengths fails with an error
of length. -/
theorem eval_meets (operator : Operator) (wellFormed : ∀ r ∈ relations, r.WellFormed) :
    Meets Relation.WellFormed (fun e => e.kind = .arity → operator.comparesLength = true)
      (operator.eval relations) := by
  have hplan : ∀ e : Error, e.kind = .plan → e.kind = .arity → operator.comparesLength = true := by
    intro e he harity
    rw [he] at harity
    cases harity
  cases operator with
  | rename heading =>
    refine single_bind_meets wellFormed hplan fun r hr => ?_
    exact (Relation.rename_meets hr heading).mono (fun _ hu => hu.2.wellFormed) fun _ _ _ => rfl
  | project attrs =>
    refine single_bind_meets wellFormed hplan fun r hr => ?_
    refine (Relation.project_meets hr attrs).mono (fun _ hu => hu.wellFormed) ?_
    intro e he harity
    rw [he.kind_eq] at harity
    cases harity
  | select predicate =>
    refine single_bind_meets wellFormed hplan fun r hr => ?_
    exact (Relation.select_meets_unfit hr predicate).mono (fun _ hu => hu.wellFormed)
      fun _ he harity => absurd harity he.kind_ne_arity
  | groupBy keys aggregations =>
    refine single_bind_meets wellFormed hplan fun r hr => ?_
    exact (Relation.groupBy_meets hr keys aggregations).mono (fun _ hu => hu.wellFormed)
      fun _ he harity => absurd harity he.kind_ne_arity
  | cross =>
    refine both_bind_meets wellFormed hplan fun r s hr hs => ?_
    exact (Relation.cross_meets hr hs).mono (fun _ hu => hu.2.wellFormed)
      fun _ he harity => absurd harity he.kind_ne_arity
  | naturalJoin =>
    refine both_bind_meets wellFormed hplan fun r s hr hs => ?_
    refine (Relation.naturalJoin_meets hr hs).mono (fun _ hu => hu.2.wellFormed) ?_
    rintro e ⟨-, rfl⟩ harity
    cases harity
  | innerJoin pairs =>
    refine both_bind_meets wellFormed hplan fun r s hr hs => ?_
    exact (Relation.innerJoin_meets hr hs pairs).mono (fun _ hu => hu.2.wellFormed)
      fun _ he harity => absurd harity he.kind_ne_arity
  | leftOuterJoin pairs =>
    refine both_bind_meets wellFormed hplan fun r s hr hs => ?_
    exact (Relation.leftOuterJoin_meets hr hs pairs).mono (fun _ hu => hu.2.wellFormed)
      fun _ he harity => absurd harity he.kind_ne_arity
  | union =>
    refine both_bind_meets wellFormed hplan fun r s hr hs => ?_
    exact (Relation.union_meets hr hs).mono (fun _ hu => hu.2.wellFormed)
      fun _ he harity => absurd harity he.kind_ne_arity
  | intersection =>
    refine both_bind_meets wellFormed hplan fun r s hr hs => ?_
    exact (Relation.intersection_meets hr hs).mono (fun _ hu => hu.2.wellFormed)
      fun _ he harity => absurd harity he.kind_ne_arity
  | difference =>
    refine both_bind_meets wellFormed hplan fun r s hr hs => ?_
    exact (Relation.difference_meets hr hs).mono (fun _ hu => hu.2.wellFormed)
      fun _ he harity => absurd harity he.kind_ne_arity

end RelationalAlgebra.Operator
