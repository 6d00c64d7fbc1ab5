import Mathlib.Logic.Equiv.Basic
import RelationalAlgebra.Operator
import RelationalAlgebra.Proofs.Relabel.Relations

/-!
# Operators under other names

An operator is given other names by changing every attribute in its parameters.  It then does to
relations under these names what it did before: an injective map on attributes commutes with
evaluation, whatever names and qualifiers it makes up.
-/

namespace RelationalAlgebra.Operator

/-- An operator all of whose parameters have other names. -/
def relabel (f : Attribute → Attribute) : Operator → Operator
  | .rename heading => .rename (heading.map f)
  | .project attrs => .project (attrs.map f)
  | .select predicate => .select (predicate.relabel f)
  | .groupBy keys aggregations =>
    .groupBy (keys.map f) (aggregations.map (Aggregation.relabel f))
  | .cross => .cross
  | .naturalJoin => .naturalJoin
  | .innerJoin pairs => .innerJoin (pairs.map (Prod.map f f))
  | .leftOuterJoin pairs => .leftOuterJoin (pairs.map (Prod.map f f))
  | .union => .union
  | .intersection => .intersection
  | .difference => .difference

variable {f : Attribute → Attribute} {relations : List Relation}

/-- Other names are no wrong number of relations. -/
lemma wrongInputs_relabel (operator : Operator) (found : Nat) :
    (operator.relabel f).wrongInputs found = (operator.wrongInputs found).relabel f := by
  cases operator <;> rfl

/-- An operator with one input does the same under other names if its operation does. -/
lemma single_bind_relabelled (operator : Operator)
    {operation operation' : Relation → Except Error Relation}
    (h : ∀ r ∈ relations, Relation.SameTuples f (operation r) (operation' (r.relabel f))) :
    Relation.SameTuples f (operator.single relations >>= operation)
      ((operator.relabel f).single (relations.map (Relation.relabel f)) >>= operation') := by
  match relations with
  | [r] => exact h r (List.mem_singleton_self r)
  | [] => exact .error (operator.wrongInputs_relabel 0)
  | _ :: _ :: rest =>
    refine .error ?_
    rw [wrongInputs_relabel, List.length_cons, List.length_map]
    rfl

/-- An operator with two inputs does the same under other names if its operation does. -/
lemma both_bind_relabelled (operator : Operator)
    {operation operation' : Relation × Relation → Except Error Relation}
    (h : ∀ r ∈ relations, ∀ s ∈ relations,
      Relation.SameTuples f (operation (r, s)) (operation' (r.relabel f, s.relabel f))) :
    Relation.SameTuples f (operator.both relations >>= operation)
      ((operator.relabel f).both (relations.map (Relation.relabel f)) >>= operation') := by
  match relations with
  | [r, s] => exact h r List.mem_cons_self s (List.mem_cons_of_mem r List.mem_cons_self)
  | [] => exact .error (operator.wrongInputs_relabel 0)
  | [_] => exact .error (operator.wrongInputs_relabel 1)
  | _ :: _ :: _ :: rest =>
    refine .error ?_
    rw [wrongInputs_relabel, List.length_cons, List.length_cons, List.length_map]
    rfl

/-- Evaluation treats relations under other names as it treats them under their own. -/
theorem eval_relabelled (hf : Function.Injective f) (operator : Operator)
    (wellFormed : ∀ r ∈ relations, r.WellFormed) :
    Relation.SameTuples f (operator.eval relations)
      ((operator.relabel f).eval (relations.map (Relation.relabel f))) := by
  cases operator with
  | rename heading =>
    exact single_bind_relabelled (.rename heading) fun r _ => r.rename_relabelled heading
  | project attrs =>
    exact single_bind_relabelled (.project attrs) fun r _ => r.project_relabelled hf attrs
  | select predicate =>
    exact single_bind_relabelled (.select predicate) fun r _ => r.select_relabelled hf predicate
  | groupBy keys aggregations =>
    exact single_bind_relabelled (.groupBy keys aggregations) fun r _ =>
      r.groupBy_relabelled hf keys aggregations
  | cross => exact both_bind_relabelled .cross fun r _ s _ => r.cross_relabelled hf s
  | naturalJoin =>
    exact both_bind_relabelled .naturalJoin fun r hr s hs =>
      Relation.naturalJoin_relabelled hf (wellFormed r hr) (wellFormed s hs)
  | innerJoin pairs =>
    exact both_bind_relabelled (.innerJoin pairs) fun r _ s _ => r.innerJoin_relabelled hf s pairs
  | leftOuterJoin pairs =>
    exact both_bind_relabelled (.leftOuterJoin pairs) fun r _ s _ =>
      r.leftOuterJoin_relabelled hf s pairs
  | union => exact both_bind_relabelled .union fun r _ s _ => r.union_relabelled hf s
  | intersection =>
    exact both_bind_relabelled .intersection fun r _ s _ => r.intersection_relabelled hf s
  | difference => exact both_bind_relabelled .difference fun r _ s _ => r.difference_relabelled hf s

/-- Operators see attributes only through equality.  Under other names, different ones for
different attributes, an operator returns the same tuples under the heading with the other names,
or it fails as before, with an error of the same sort that shows the other names. -/
theorem eval_relabel_of_injective (hf : Function.Injective f) (operator : Operator)
    (wellFormed : ∀ r ∈ relations, r.WellFormed) :
    (∀ u, operator.eval relations = .ok u →
        (operator.relabel f).eval (relations.map (Relation.relabel f)) =
          .ok ⟨u.heading.map f, u.tuples⟩) ∧
      ∀ e, operator.eval relations = .error e →
        (operator.relabel f).eval (relations.map (Relation.relabel f)) = .error (e.relabel f) ∧
          (e.relabel f).kind = e.kind := by
  have hrelabelled := operator.eval_relabelled hf wellFormed
  constructor
  · intro u hu
    rw [hu] at hrelabelled
    obtain ⟨v, hv, rfl⟩ := hrelabelled.exists_ok
    exact hv
  · intro e he
    rw [he] at hrelabelled
    obtain ⟨e', he', rfl⟩ := hrelabelled.exists_error
    exact ⟨he', e.kind_relabel f⟩

/-- A map that exchanges an attribute and its marked copy: a natural join of relations that have
both is not misled by the marks, neither in the tuples that match nor in those without a match, and
the error of a product shows the exchanged name. -/
theorem eval_relabel_of_injective_of_exchanged_mark :
    let a : Attribute := .name "a"
    let b : Attribute := .name "b"
    let f : Attribute → Attribute := Equiv.swap a a.onLeft
    let r : Relation := ⟨[a, a.onLeft], [[.int 1, .int 2], [.int 3, .int 4]]⟩
    let s : Relation := ⟨[a.onLeft, b], [[.int 2, .text "x"], [.int 3, .text "y"]]⟩
    Function.Injective f ∧ (∀ q ∈ [r, s], q.WellFormed) ∧
      naturalJoin.eval [r, s] = .ok ⟨[a, a.onLeft, b], [[.int 1, .int 2, .text "x"]]⟩ ∧
      naturalJoin.eval [⟨[a.onLeft, a], r.tuples⟩, ⟨[a, b], s.tuples⟩] =
        .ok ⟨[a.onLeft, a, b], [[.int 1, .int 2, .text "x"]]⟩ ∧
      cross.eval [r, s] = .error (.attributeConflict [a.onLeft]) ∧
      cross.eval [⟨[a.onLeft, a], r.tuples⟩, ⟨[a, b], s.tuples⟩] =
        .error (.attributeConflict [a]) := by
  intro a b f r s
  have hf : Function.Injective f := (Equiv.swap a a.onLeft).injective
  have hwellFormed : ∀ q ∈ [r, s], q.WellFormed := by decide +kernel
  have hjoin : naturalJoin.eval [r, s] =
      .ok ⟨[a, a.onLeft, b], [[.int 1, .int 2, .text "x"]]⟩ := by decide +kernel
  have hcross : cross.eval [r, s] = .error (.attributeConflict [a.onLeft]) := by decide +kernel
  have hjoin' := (eval_relabel_of_injective hf naturalJoin hwellFormed).1 _ hjoin
  have hcross' := ((eval_relabel_of_injective hf cross hwellFormed).2 _ hcross).1
  exact ⟨hf, hwellFormed, hjoin, hjoin', hcross, hcross'⟩

end RelationalAlgebra.Operator
