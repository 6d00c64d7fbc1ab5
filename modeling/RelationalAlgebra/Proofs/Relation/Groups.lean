import RelationalAlgebra.Proofs.Aggregate.Outcomes
import RelationalAlgebra.Proofs.Relation.WellFormed
import RelationalAlgebra.Relation.Operations

/-!
# Grouping keeps relations well formed

Every group is made of tuples of the relation and has at least one of them, which its key is
taken from.  So the row of a group has a value for each grouping attribute and for each aggregate,
and no aggregate lacks a value.
-/

namespace RelationalAlgebra.Relation

/-- A group is made from some tuples: its members are among them, and its key is what one of its
members has at the grouping positions. -/
structure Group.From (positions : List Nat) (tuples : List Tuple) (group : Group) : Prop where
  members_subset : group.members ⊆ tuples
  exists_key : ∃ t ∈ group.members, group.key = t.pick positions

namespace Group.From

variable {positions : List Nat} {tuples : List Tuple} {group : Group}

/-- A group has members. -/
lemma members_ne_nil (h : group.From positions tuples) : group.members ≠ [] := by
  obtain ⟨t, ht, -⟩ := h.exists_key
  exact List.ne_nil_of_mem ht

/-- The key of a group has a value for each grouping position. -/
lemma length_key (h : group.From positions tuples) : group.key.length = positions.length := by
  obtain ⟨t, -, hkey⟩ := h.exists_key
  rw [hkey, Tuple.pick, List.length_map]

/-- A group from some tuples is a group from more tuples. -/
lemma cons (h : group.From positions tuples) (t : Tuple) : group.From positions (t :: tuples) where
  members_subset := List.subset_cons_of_subset t h.members_subset
  exists_key := h.exists_key

end Group.From

/-- Adding a tuple to its group keeps every group a group from the tuples seen so far. -/
lemma addToGroup_from {positions : List Nat} {tuples : List Tuple} (t : Tuple)
    {found : List Group} (h : ∀ group ∈ found, group.From positions tuples) :
    ∀ group ∈ addToGroup (t.pick positions) t found, group.From positions (t :: tuples) := by
  have hnew : Group.From positions (t :: tuples) ⟨t.pick positions, [t]⟩ :=
    ⟨List.cons_subset_cons t (List.nil_subset tuples), t, List.mem_singleton_self t, rfl⟩
  induction found with
  | nil =>
    intro group hgroup
    rw [List.mem_singleton.1 hgroup]
    exact hnew
  | cons old rest ih =>
    have hold := h old List.mem_cons_self
    have hrest : ∀ group ∈ rest, group.From positions tuples := fun group hgroup =>
      h group (List.mem_cons_of_mem old hgroup)
    intro group hgroup
    unfold addToGroup at hgroup
    cases hcmp : Tuple.compare (t.pick positions) old.key with
    | lt =>
      rw [hcmp] at hgroup
      rcases List.mem_cons.1 hgroup with rfl | hgroup
      · exact hnew
      · exact (h group hgroup).cons t
    | eq =>
      rw [hcmp] at hgroup
      rcases List.mem_cons.1 hgroup with rfl | hgroup
      · exact ⟨List.cons_subset_cons t hold.members_subset, t, List.mem_cons_self, rfl⟩
      · exact (hrest group hgroup).cons t
    | gt =>
      rw [hcmp] at hgroup
      rcases List.mem_cons.1 hgroup with rfl | hgroup
      · exact hold.cons t
      · exact ih hrest group hgroup

/-- All groups of some tuples are groups from them. -/
theorem groups_from (positions : List Nat) (tuples : List Tuple) :
    ∀ group ∈ groups positions tuples, group.From positions tuples := by
  induction tuples with
  | nil => exact fun group hgroup => absurd hgroup List.not_mem_nil
  | cons t tuples ih => exact addToGroup_from t ih

/-- The row of a group has a value for each grouping attribute and for each aggregate. It fails
only if an attribute is missing or if the values do not fit an aggregate. -/
lemma groupRow_meets {heading : Heading} {aggregations : List Aggregation}
    {positions : List Nat} {tuples : List Tuple} {group : Group}
    (h : group.From positions tuples) :
    Meets (fun row => row.length = positions.length + aggregations.length)
      (heading.Unfit (aggregations.map fun a => a.aggregate.attr))
      (groupRow heading aggregations group) := by
  have hresults : Meets (fun results => results.length = aggregations.length)
      (heading.Unfit (aggregations.map fun a => a.aggregate.attr))
      (aggregations.mapM fun a => a.aggregate.apply (group.members.map (Record.mk heading))) := by
    refine Meets.mapM_length fun a ha => ?_
    have happly := a.aggregate.apply_meets heading h.members_ne_nil
    refine happly.mono (fun _ _ => trivial) fun e he => he.mono ?_
    exact List.cons_subset.2 ⟨List.mem_map_of_mem ha, List.nil_subset _⟩
  refine hresults.bind fun results hlength => ?_
  change (group.key ++ results).length = _
  rw [List.length_append, h.length_key, hlength]

/-- Grouping fails only if an attribute is missing or if values do not fit an aggregate. -/
theorem groupBy_meets {r : Relation} {heading : Heading} (h : r.Over heading)
    (keys : List Attribute) (aggregations : List Aggregation) :
    Meets (Over (keys ++ aggregations.map Aggregation.output))
      (heading.Unfit (keys ++ aggregations.map fun a => a.aggregate.attr))
      (r.groupBy keys aggregations) := by
  obtain ⟨rfl, -⟩ := h
  have hkeys : Meets
      (fun positions => List.Forall₂ (fun a i => r.heading.idxOf? a = some i) keys positions)
      (r.heading.Unfit (keys ++ aggregations.map fun a => a.aggregate.attr))
      (r.heading.positions keys) :=
    (Heading.positions_meets r.heading keys).imp_error fun e he =>
      Or.inl (he.mono (List.subset_append_left _ _))
  refine hkeys.bind fun positions hpositions => ?_
  have hrows : Meets
      (fun rows => ∀ row ∈ rows, row.length = positions.length + aggregations.length)
      (r.heading.Unfit (keys ++ aggregations.map fun a => a.aggregate.attr))
      ((groups positions r.tuples).mapM (groupRow r.heading aggregations)) := by
    refine Meets.mapM_forall fun group hgroup => ?_
    refine (groupRow_meets (groups_from positions r.tuples group hgroup)).imp_error fun e he => ?_
    exact he.mono (List.subset_append_right _ _)
  refine hrows.bind fun rows hlengths => over_ofList fun row hrow => ?_
  rw [hlengths row hrow, List.length_append, List.length_map, hpositions.length_eq]

end RelationalAlgebra.Relation
