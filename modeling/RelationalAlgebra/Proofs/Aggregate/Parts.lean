import RelationalAlgebra.Proofs.Aggregate.Extremes
import RelationalAlgebra.Proofs.Aggregate.Sums

/-!
# Aggregates taken in two steps

Some aggregates over many values can be taken over parts of the values first, and then over the
results: the least value is the least of those of the parts, and the count of all values is the sum
of the counts.  `RollsUp` says that this is so, and that a part never fails by itself when the
whole does not.  An extreme value may well be found in every part and not in the whole: then the
results of two parts cannot be ordered, and the second step fails instead of the first.
-/

namespace RelationalAlgebra

namespace AggregateKind

open Scalar (Comparable FirstExtreme)

variable {preferred : Ordering} {parts : List (List Scalar)} {results values : List Scalar}

/-- Up to a number of values, a first aggregate over the parts of some values and a second one over
its results have the outcome of the first one over all values. -/
structure RollsUp (inner outer : AggregateKind) (limit : Nat) : Prop where
  /-- Some of the values can be reduced if all can. -/
  part : ∀ {part values : List Scalar}, part.Sublist values → part ≠ [] →
    (∃ x, inner.reduce values = .ok x) → ∃ y, inner.reduce part = .ok y
  /-- Once the parts have been reduced, the results can be reduced if all values can, and to an
  equal value. -/
  whole : ∀ {parts : List (List Scalar)} {results values : List Scalar},
    List.Forall₂ (fun part y => inner.reduce part = .ok y) parts results →
      values.Perm parts.flatten → values.length ≤ limit →
        Corresponds (fun x y => x.compare y = .eq) (fun _ _ => True) (outer.reduce results)
          (inner.reduce values)

/-! ## Extreme values -/

/-- If the values of each part can be ordered, then all values can exactly if one value of each
part can. -/
lemma pairwise_flatten_iff
    (h : List.Forall₂ (fun part y => part.Pairwise Comparable ∧ y ∈ part) parts results) :
    parts.flatten.Pairwise Comparable ↔ results.Pairwise Comparable := by
  induction h with
  | nil => exact Iff.rfl
  | @cons part y parts results hpart hrest ih =>
    rw [List.flatten_cons, List.pairwise_append, List.pairwise_cons, ih]
    refine ⟨fun ⟨_, hresults, hacross⟩ => ⟨fun y' hy' => ?_, hresults⟩,
      fun ⟨hfirst, hresults⟩ => ⟨hpart.1, hresults, fun x hx x' hx' => ?_⟩⟩
    · obtain ⟨part', hpart', -, hmem⟩ := exists_of_forall₂ hrest hy'
      exact hacross y hpart.2 y' (List.mem_flatten.2 ⟨part', hpart', hmem⟩)
    · obtain ⟨part', hpart', hmem⟩ := List.mem_flatten.1 hx'
      obtain ⟨y', hy', hordered, hy'part⟩ := exists_of_forall₂ hrest.flip hpart'
      -- Every value has the rank of the one that stands for its part.
      exact (Scalar.comparable_congr (Scalar.rank_eq_of_pairwise hpart.1 hx hpart.2)
        (Scalar.rank_eq_of_pairwise hordered hmem hy'part)).2 (hfirst y' hy')

/-- There are values exactly if there are parts, if no part is empty. -/
lemma flatten_eq_nil_iff (h : List.Forall₂ (fun part y => y ∈ part) parts results) :
    parts.flatten = [] ↔ results = [] := by
  cases h with
  | nil => exact Iff.rfl
  | @cons part y parts results hy _ =>
    refine iff_of_false (fun hnil => ?_) (List.cons_ne_nil y results)
    rw [List.flatten_cons, List.append_eq_nil_iff] at hnil
    exact List.ne_nil_of_mem hy hnil.1

/-- An extreme value of the extreme values of all parts is equal to one of all values. -/
lemma extreme_of_parts (hpreferred : preferred ≠ .eq)
    (h : List.Forall₂ (fun part y => FirstExtreme preferred part y) parts results)
    (hperm : values.Perm parts.flatten) {x z : Scalar} (hx : FirstExtreme preferred results x)
    (hz : FirstExtreme preferred values z) : x.compare z = .eq := by
  refine Scalar.compare_eq_of_ne hpreferred ?_ fun hzx => ?_
  · obtain ⟨part, hpart, hfirst⟩ := exists_of_forall₂ h hx.mem
    exact hz.not_preferred hpreferred x
      (hperm.mem_iff.2 (List.mem_flatten.2 ⟨part, hpart, hfirst.mem⟩))
  · obtain ⟨part, hpart, hmem⟩ := List.mem_flatten.1 (hperm.mem_iff.1 hz.mem)
    obtain ⟨y, hy, (hfirst : FirstExtreme preferred part y)⟩ := exists_of_forall₂ h.flip hpart
    -- The value is not preferred to the result of its own part, which comes before the last one.
    refine hfirst.not_preferred hpreferred z hmem ?_
    exact Scalar.compare_eq_of_not hpreferred hzx (hx.not_preferred hpreferred y hy)

/-- The search for an extreme value can be made in two steps. -/
lemma rollsUp_extreme (kind : AggregateKind) (hpreferred : preferred ≠ .eq)
    (hreduce : ∀ values, kind.reduce values = extreme kind preferred values) (limit : Nat) :
    RollsUp kind kind limit where
  part := by
    intro part values hsublist hne
    rw [hreduce, hreduce, exists_extreme_iff kind hpreferred, exists_extreme_iff kind hpreferred]
    rintro ⟨-, hall⟩
    exact ⟨hne, hall.sublist hsublist⟩
  whole := by
    intro parts results values h hperm _
    have hparts : List.Forall₂ (fun part y => part.Pairwise Comparable ∧
        FirstExtreme preferred part y) parts results := by
      refine h.imp fun part y hy => ?_
      rw [hreduce] at hy
      exact (extreme_meets_first kind hpreferred part).of_ok hy
    have hordered := pairwise_flatten_iff (hparts.imp fun _ _ hy => ⟨hy.1, hy.2.mem⟩)
    have hnil := flatten_eq_nil_iff (hparts.imp fun _ _ hy => hy.2.mem)
    rw [hreduce, hreduce]
    refine Corresponds.of_exists_iff ?_ fun x z hx hz => ?_
    · rw [exists_extreme_iff kind hpreferred, exists_extreme_iff kind hpreferred,
        hperm.pairwise_iff Comparable.symm, hordered, ne_eq, ne_eq, ← hnil,
        ← List.perm_nil, ← List.perm_nil, hperm.congr_left]
    · exact extreme_of_parts hpreferred (hparts.imp fun _ _ hy => hy.2) hperm
        ((extreme_meets_first kind hpreferred results).of_ok hx).2
        ((extreme_meets_first kind hpreferred values).of_ok hz).2

/-- The least value is the least of those of the parts. -/
lemma rollsUp_min (limit : Nat) : RollsUp min min limit :=
  @rollsUp_extreme .lt min nofun (fun _ => rfl) limit

/-- The greatest value is the greatest of those of the parts. -/
lemma rollsUp_max (limit : Nat) : RollsUp max max limit :=
  @rollsUp_extreme .gt max nofun (fun _ => rfl) limit

/-! ## Counts -/

/-- The count of some values is the sum of the counts of the parts, as long as it fits. -/
lemma rollsUp_count {limit : Nat} (hlimit : limit < 2 ^ 63) : RollsUp count sum limit where
  part := fun _ _ _ => ⟨_, rfl⟩
  whole := by
    intro parts results values h hperm hlength
    have hresults : results =
        ((parts.map List.length).map fun n : Nat => Int64.ofInt n).map Scalar.int := by
      rw [← List.forall₂_eq_eq_eq, List.map_map, List.map_map, List.forall₂_map_right_iff]
      exact (h.imp fun _ _ hy => (Except.ok.inj hy).symm).flip
    have hsum : (parts.map List.length).sum = values.length := by
      rw [hperm.length_eq, List.length_flatten]
    have hfits : (parts.map List.length).sum < 2 ^ 63 := by omega
    have htotal : sum.reduce results = .ok (.int (Int64.ofInt values.length)) := by
      rw [hresults, ← hsum, ← Scalar.exactTotal_sizes hfits]
      exact Scalar.total_of_runsInRange _ (Scalar.runsInRange_sizes hfits)
    rw [htotal]
    exact .ok Std.ReflCmp.compare_self

end AggregateKind

end RelationalAlgebra
