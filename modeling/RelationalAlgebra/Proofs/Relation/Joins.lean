import RelationalAlgebra.Proofs.Relation.WellFormed

/-!
# Joins keep relations well formed

The joins are put together from elementary operations.  Each of these is given relations that fit
it, so that only two things can go wrong: the headings of the two relations, which are compared
first, and the columns that the equations of the caller name.
-/

namespace RelationalAlgebra.Relation

variable {r s : Relation} {left right : Heading}

/-! ## The inner join -/

/-- The errors of joining relations with two headings on some equations: the headings share
attributes, or a column of an equation is missing. -/
def JoinError (left right : Heading) (pairs : List JoinPair) (e : Error) : Prop :=
  Heading.Conflict left right e ∨ Heading.Missing (left ++ right) (JoinPair.columns pairs) e

/-- No error of a join is one of length. -/
lemma JoinError.kind_ne_arity {pairs : List JoinPair} {e : Error}
    (h : JoinError left right pairs e) : e.kind ≠ .arity := by
  rcases h with hconflict | hmissing
  · exact hconflict.kind_ne_arity
  · rw [hmissing.kind_eq]
    exact nofun

/-- Selecting by equations fails only if a column is missing. -/
lemma select_equations_meets {heading : Heading} (h : r.Over heading) (pairs : List JoinPair) :
    Meets (Over heading) (heading.Missing (JoinPair.columns pairs))
      (r.select (.equations pairs)) :=
  select_meets h fun t _ =>
    (Predicate.equations_eval_meets ⟨heading, t⟩ pairs).imp_ok fun _ _ => trivial

/-- The inner join has the columns of both relations. -/
theorem innerJoin_meets (hr : r.Over left) (hs : s.Over right) (pairs : List JoinPair) :
    Meets (fun u => Heading.shared left right = [] ∧ Over (left ++ right) u)
      (JoinError left right pairs) (r.innerJoin s pairs) := by
  have hcross := (cross_meets hr hs).imp_error fun e he =>
    (Or.inl he : JoinError left right pairs e)
  refine hcross.bind fun product ⟨hdisjoint, hproduct⟩ => ?_
  exact (select_equations_meets hproduct pairs).mono (fun _ hu => ⟨hdisjoint, hu⟩) fun _ he =>
    Or.inr he

/-! ## The natural join -/

/-- Attributes that are marked with different sides are different. -/
lemma shared_onLeft_onRight (left right : Heading) :
    Heading.shared (left.map Attribute.onLeft) (right.map Attribute.onRight) = [] := by
  refine List.eq_nil_iff_forall_not_mem.2 fun a ha => ?_
  obtain ⟨hleft, hright⟩ := Heading.mem_shared.1 ha
  obtain ⟨b, -, rfl⟩ := List.mem_map.1 hleft
  obtain ⟨c, -, hc⟩ := List.mem_map.1 hright
  exact absurd (Attribute.qualified.inj hc).1 (by decide)

/-- What is not shared with a heading is what the heading does not have. -/
lemma without_shared (left right : Heading) :
    right.without (Heading.shared left right) = right.without left := by
  refine List.filter_congr fun a ha => ?_
  have hiff : a ∈ Heading.shared left right ↔ a ∈ left := by
    rw [Heading.mem_shared, and_iff_left ha]
  simp only [List.contains_eq_mem, hiff]

/-- Without their marks, the columns of a natural join have its heading. -/
lemma map_unqualified_joined (left right : Heading) :
    (left.map Attribute.onLeft ++
        (right.without (Heading.shared left right)).map Attribute.onRight).map
      Attribute.unqualified = naturalHeading left right := by
  have honLeft : Attribute.unqualified ∘ Attribute.onLeft = id := rfl
  have honRight : Attribute.unqualified ∘ Attribute.onRight = id := rfl
  rw [List.map_append, List.map_map, List.map_map, honLeft, honRight, List.map_id, List.map_id,
    without_shared, naturalHeading]

/-- The columns that a natural join equates occur in the product of the marked relations. -/
lemma columns_marked_subset (left right : Heading) :
    JoinPair.columns ((Heading.shared left right).map fun a => (a.onLeft, a.onRight)) ⊆
      left.map Attribute.onLeft ++ right.map Attribute.onRight := by
  intro a ha
  obtain ⟨pair, hpair, ha⟩ := List.mem_flatMap.1 ha
  obtain ⟨b, hb, rfl⟩ := List.mem_map.1 hpair
  obtain ⟨hleft, hright⟩ := Heading.mem_shared.1 hb
  rcases List.mem_pair.1 ha with rfl | rfl
  · exact List.mem_append_left _ (List.mem_map_of_mem hleft)
  · exact List.mem_append_right _ (List.mem_map_of_mem hright)

/-- The columns that a natural join shows occur in the product of the marked relations. -/
lemma joined_subset (left right : Heading) :
    left.map Attribute.onLeft ++
        (right.without (Heading.shared left right)).map Attribute.onRight ⊆
      left.map Attribute.onLeft ++ right.map Attribute.onRight := by
  have hsub : (right.without (Heading.shared left right)).Sublist right := List.filter_sublist
  exact ((hsub.map Attribute.onRight).append_left _).subset

/-- The natural join fails only if the headings share nothing, and then the error shows both. -/
theorem naturalJoin_meets (hr : r.Over left) (hs : s.Over right) :
    Meets (fun u => Heading.shared left right ≠ [] ∧ Over (naturalHeading left right) u)
      (fun e => Heading.shared left right = [] ∧ e = .noCommonAttributes left right)
      (r.naturalJoin s) := by
  obtain ⟨rfl, hr⟩ := hr
  obtain ⟨rfl, hs⟩ := hs
  unfold naturalJoin
  by_cases hshared : Heading.shared r.heading s.heading = []
  · simp only [hshared, if_true]
    exact ⟨trivial, rfl⟩
  · -- No step after the comparison of the headings can fail.
    simp only [hshared, if_false]
    refine (rename_meets hr.over _).bind_of_not (fun _ he => he.1 (List.length_map _)) ?_
    rintro marked ⟨-, hmarked⟩
    refine (rename_meets hs.over _).bind_of_not (fun _ he => he.1 (List.length_map _)) ?_
    rintro other ⟨-, hother⟩
    rw [hmarked.heading_eq, map_unqualified_joined]
    refine (cross_meets hmarked hother).bind_of_not
      (fun _ he => he.1 (shared_onLeft_onRight _ _)) ?_
    rintro product ⟨-, hproduct⟩
    refine (select_equations_meets hproduct _).bind_of_not
      (fun _ => Heading.not_missing (columns_marked_subset _ _)) ?_
    intro matching hmatching
    refine (project_meets hmatching _).bind_of_not
      (fun _ => Heading.not_missing (joined_subset _ _)) ?_
    intro columns hcolumns
    have hlength := congrArg List.length (map_unqualified_joined r.heading s.heading)
    rw [List.length_map] at hlength
    exact (rename_meets hcolumns _).mono (fun _ hu => ⟨hshared, hu.2⟩) fun _ he =>
      absurd hlength.symm he.1

/-! ## The outer join -/

/-- The relation with one tuple of nulls is always made. -/
lemma nulls_meets (heading : Heading) : Meets (Over heading) (fun _ => False) (nulls heading) := by
  have hfits : ∀ t ∈ [List.replicate heading.length Scalar.null], t.length = heading.length := by
    intro t ht
    rw [List.mem_singleton.1 ht, List.length_replicate]
  unfold nulls ofRows
  rw [ensureArity_of_fits hfits]
  exact over_ofList hfits

/-- The outer join has the columns of both relations, and fails as the inner join does. -/
theorem leftOuterJoin_meets (hr : r.Over left) (hs : s.Over right) (pairs : List JoinPair) :
    Meets (fun u => Heading.shared left right = [] ∧ Over (left ++ right) u)
      (JoinError left right pairs) (r.leftOuterJoin s pairs) := by
  unfold leftOuterJoin
  rw [hr.heading_eq, hs.heading_eq]
  refine (innerJoin_meets hr hs pairs).bind fun joined ⟨hdisjoint, hjoined⟩ => ?_
  -- No step after the inner join can fail.
  refine (project_meets hjoined left).bind_of_not
    (fun _ => Heading.not_missing (List.subset_append_left left right)) ?_
  intro matched hmatched
  refine (difference_meets hr hmatched).bind_of_not (fun _ he => he.1 rfl) ?_
  rintro unmatched ⟨-, hunmatched⟩
  refine (nulls_meets right).bind_of_not (fun _ he => he) ?_
  intro padding hpadding
  refine (cross_meets hunmatched hpadding).bind_of_not (fun _ he => he.1 hdisjoint) ?_
  rintro padded ⟨-, hpadded⟩
  exact (union_meets hjoined hpadded).mono (fun _ hu => ⟨hdisjoint, hu.2⟩) fun _ he =>
    absurd rfl he.1

end RelationalAlgebra.Relation
