import RelationalAlgebra.Aggregate.Basic
import RelationalAlgebra.Proofs.Correspondence
import RelationalAlgebra.Proofs.TupleSet.Matching

/-!
# Aggregates that only compare

Counting, and the search for the least or the greatest value, look at values only through the
order.  On values that are equal one by one they return equal results or fail together; what kinds
an error names may differ, since `1` and `1.0` are equal and of different kinds.
-/

namespace RelationalAlgebra

/-- Two errors of one sort. -/
def Error.SameKind (d e : Error) : Prop :=
  d.kind = e.kind

namespace Scalar

variable {a b c d : Scalar}

/-- Equal scalars have the same rank. -/
lemma rank_eq_of_compare_eq (h : a.compare b = .eq) : a.rank = b.rank := by
  cases a <;> cases b <;> first | rfl | cases h

/-- Conditions order values of one rank other than that of nulls. -/
lemma comparable_kind (a b : Scalar) :
    a.kind.comparable b.kind = (a.rank == b.rank && a.rank != 0) := by
  cases a <;> cases b <;> rfl

/-- Equal values are ordered alike by conditions, or fail alike. -/
lemma compareWithin_corresponds (operation : String) (hab : a.compare b = .eq)
    (hcd : c.compare d = .eq) :
    Corresponds (· = ·) Error.SameKind (a.compareWithin operation c)
      (b.compareWithin operation d) := by
  have hcomparable : a.kind.comparable c.kind = b.kind.comparable d.kind := by
    rw [comparable_kind, comparable_kind, rank_eq_of_compare_eq hab, rank_eq_of_compare_eq hcd]
  have horder : a.compare c = b.compare d := by
    rw [Std.TransCmp.congr_left hab, Std.TransCmp.congr_right hcd]
  unfold compareWithin
  rw [hcomparable, horder]
  cases b.kind.comparable d.kind with
  | true => exact .ok rfl
  | false => exact .error rfl

end Scalar

/-- Two lists of values that are equal one by one. -/
abbrev EqualValues (values values' : List Scalar) : Prop :=
  List.Forall₂ (fun a b => a.compare b = .eq) values values'

namespace AggregateKind

variable {values values' : List Scalar}

/-- The extremes of values that are equal one by one are equal, or are not found for reasons of
one sort. -/
lemma extreme_corresponds (kind : AggregateKind) (preferred : Ordering)
    (h : EqualValues values values') :
    Corresponds (fun a b => a.compare b = .eq) Error.SameKind (extreme kind preferred values)
      (extreme kind preferred values') := by
  cases h with
  | nil => exact .error rfl
  | cons hfirst hrest =>
    refine Corresponds.foldlM hrest hfirst fun old old' new new' hold hnew => ?_
    refine (Scalar.compareWithin_corresponds kind.name hnew hold).map fun order order' horder => ?_
    subst horder
    by_cases hpreferred : order = preferred
    · rw [if_pos hpreferred, if_pos hpreferred]
      exact hnew
    · rw [if_neg hpreferred, if_neg hpreferred]
      exact hold

/-- Values that are equal one by one have equal counts, least and greatest values. -/
theorem reduce_corresponds {kind : AggregateKind} (hkind : kind ∈ [count, min, max])
    (h : EqualValues values values') :
    Corresponds (fun a b => a.compare b = .eq) Error.SameKind (kind.reduce values)
      (kind.reduce values') := by
  cases kind with
  | count =>
    rw [reduce, reduce, h.length_eq]
    exact .ok Std.ReflCmp.compare_self
  | min => exact extreme_corresponds min .lt h
  | max => exact extreme_corresponds max .gt h
  | sum | avg => simp at hkind

end AggregateKind

/-- Equal tuples have equal values at an attribute, or both lack it. -/
lemma Record.get_corresponds (heading : Heading) (attr : Attribute) {t u : Tuple}
    (h : Tuple.equal t u = true) :
    Corresponds (fun a b => a.compare b = .eq) (· = ·) ((Record.mk heading t).get attr)
      ((Record.mk heading u).get attr) := by
  have hindex : Corresponds (· = ·) (· = ·) (heading.indexOf attr) (heading.indexOf attr) :=
    Corresponds.refl (fun _ => rfl) (fun _ => rfl) _
  refine hindex.map fun i j hij => ?_
  subst hij
  exact Tuple.compare_getD_eq h i

/-- Groups of equal tuples have equal counts, least and greatest values. -/
lemma Aggregate.apply_corresponds {aggregate : Aggregate}
    (hkind : aggregate.kind ∈ [.count, .min, .max]) (heading : Heading)
    {members members' : List Tuple} (h : TupleSet.Matching members members') :
    Corresponds (fun a b => a.compare b = .eq) Error.SameKind
      (aggregate.apply (members.map (Record.mk heading)))
      (aggregate.apply (members'.map (Record.mk heading))) := by
  have hvalues : Corresponds EqualValues (· = ·)
      ((members.map (Record.mk heading)).mapM fun record => record.get aggregate.attr)
      ((members'.map (Record.mk heading)).mapM fun record => record.get aggregate.attr) := by
    refine Corresponds.mapM (List.forall₂_map_left_iff.2 (List.forall₂_map_right_iff.2 ?_))
    exact h.imp fun t u htu => Record.get_corresponds heading aggregate.attr htu
  have hread := hvalues.mono (fun _ _ hequal => hequal) fun _ _ hsame => congrArg Error.kind hsame
  exact hread.bind fun _ _ hequal => AggregateKind.reduce_corresponds hkind hequal

end RelationalAlgebra
