import RelationalAlgebra.Proofs.TupleSet.Membership
import RelationalAlgebra.Relation.Basic

/-!
# Equality of relations

Two relations are equal if they have one heading and their tuples are equal one by one.  Equal
tuples may hold different scalars, so equal relations need not be the same; but tuples of one
relation are the same as soon as they are equal, and so are parts of one relation.
-/

namespace RelationalAlgebra

namespace Relation

variable {r s : Relation}

/-- Lists of tuples are compared tuple by tuple, and tuples value by value. -/
lemma isEqv_iff_forall₂ {rows rows' : List Tuple} :
    rows.isEqv rows' Tuple.equal = true ↔
      List.Forall₂ (List.Forall₂ fun a b => a.compare b = .eq) rows rows' := by
  induction rows generalizing rows' with
  | nil => cases rows' <;> simp
  | cons t rows ih =>
    cases rows' with
    | nil => simp
    | cons u rows' =>
      rw [List.isEqv, Bool.and_eq_true, Tuple.equal_iff_forall₂, ih, List.forall₂_cons]

/-- Two relations are equal if they have one heading and their tuples are equal one by one. -/
lemma equal_iff_forall₂ :
    r.equal s = true ↔ r.heading = s.heading ∧
      List.Forall₂ (List.Forall₂ fun a b => a.compare b = .eq) r.tuples s.tuples := by
  rw [equal, Bool.and_eq_true, beq_iff_eq, isEqv_iff_forall₂]

/-- Parts of one set are equal only if they are the same. -/
lemma isEqv_iff_eq_of_subset {set rows rows' : List Tuple} (hset : TupleSet.Ascending set)
    (hrows : rows ⊆ set) (hrows' : rows' ⊆ set) :
    rows.isEqv rows' Tuple.equal = true ↔ rows = rows' := by
  constructor
  · rw [isEqv_iff_forall₂]
    intro h
    induction h with
    | nil => rfl
    | @cons t u rows rows' htu _ ih =>
      obtain ⟨ht, hrows⟩ := List.cons_subset.1 hrows
      obtain ⟨hu, hrows'⟩ := List.cons_subset.1 hrows'
      rw [hset.eq_of_equal ht hu (Tuple.equal_iff_forall₂.2 htu), ih hrows hrows']
  · rintro rfl
    rw [isEqv_iff_forall₂, List.forall₂_same]
    exact fun t _ => Tuple.equal_iff_forall₂.1 (Tuple.equal_refl t)

/-- Selections from one relation are equal exactly if they keep the same tuples. -/
lemma equal_filter_iff (hr : r.WellFormed) {p q : Tuple → Bool} :
    equal ⟨r.heading, r.tuples.filter p⟩ ⟨r.heading, r.tuples.filter q⟩ = true ↔
      ∀ t ∈ r.tuples, p t = true ↔ q t = true := by
  have hp : r.tuples.filter p ⊆ r.tuples := List.filter_subset_self r.tuples
  have hq : r.tuples.filter q ⊆ r.tuples := List.filter_subset_self r.tuples
  rw [equal, beq_self_eq_true, Bool.true_and, isEqv_iff_eq_of_subset hr.2 hp hq]
  constructor
  · intro h t ht
    have hmem : t ∈ r.tuples.filter p ↔ t ∈ r.tuples.filter q := by rw [h]
    simpa only [List.mem_filter, ht, true_and] using hmem
  · intro h
    exact List.filter_congr fun t ht => Bool.eq_iff_iff.2 (h t ht)

end Relation

end RelationalAlgebra
