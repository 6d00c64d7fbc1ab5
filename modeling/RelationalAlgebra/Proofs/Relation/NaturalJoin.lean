import RelationalAlgebra.Proofs.Relation.Tuples

/-!
# The natural join as a set of rows

The natural join marks the attributes of the two sides, takes the product, selects by equations,
projects by name and removes the marks.  The marks only add a qualifier at the outside, so that
every marked name resolves to the position that the plain name has on its own side, whatever
qualifiers are there already.

Main statement: the join has one row for each pair of tuples that agree on all shared attributes,
and no others; it fails only where nothing is shared.
-/

namespace RelationalAlgebra

namespace Attribute

/-- Different attributes stay different when they are marked as those of the left relation. -/
lemma onLeft_injective : Function.Injective onLeft :=
  fun _ _ h => (Attribute.qualified.inj h).2

/-- Different attributes stay different when they are marked as those of the right relation. -/
lemma onRight_injective : Function.Injective onRight :=
  fun _ _ h => (Attribute.qualified.inj h).2

/-- No attribute that is marked as one of the right relation is marked as one of the left. -/
lemma onRight_notMem_map_onLeft (attr : Attribute) (left : Heading) :
    attr.onRight ∉ left.map onLeft := by
  intro h
  obtain ⟨other, -, heq⟩ := List.mem_map.1 h
  exact absurd (Attribute.qualified.inj heq).1 (by decide)

end Attribute

namespace Relation

variable {r s : Relation} {left right : Heading}

/-- The heading of the product of two marked relations. -/
def markedHeading (left right : Heading) : Heading :=
  left.map Attribute.onLeft ++ right.map Attribute.onRight

/-- The columns of the product of two marked relations that the natural join shows. -/
def shownColumns (left right : Heading) : Heading :=
  left.map Attribute.onLeft ++ (right.without left).map Attribute.onRight

/-- The equations between the marked copies of the shared attributes. -/
def sharedEquations (left right : Heading) : List JoinPair :=
  (Heading.shared left right).map fun a => (a.onLeft, a.onRight)

/-- Two tuples agree if they have agreeing values at every attribute that both relations have. -/
def Agreeing (left right : Heading) (t u : Tuple) : Prop :=
  ∀ a ∈ left, a ∈ right → (left.valueAt t a).agrees (right.valueAt u a) = true

/-- The row that shows two tuples: the values of the left one, and those that only the right one
has. -/
def shownRow (left right : Heading) (t u : Tuple) : Tuple :=
  left.map (left.valueAt t) ++
    (right.filter fun a => a ∉ left).map (right.valueAt u)

/-! ## Resolving marked names -/

/-- A name with the mark of the left relation names a value of the left tuple. -/
lemma valueAt_onLeft {t u : Tuple} {a : Attribute} (ht : t.length = left.length) (ha : a ∈ left) :
    (markedHeading left right).valueAt (t ++ u) a.onLeft = left.valueAt t a := by
  have hlength : t.length = (left.map Attribute.onLeft).length := by rw [List.length_map, ht]
  rw [markedHeading, Heading.valueAt_append_of_mem (List.mem_map_of_mem ha) hlength,
    Heading.valueAt_map Attribute.onLeft_injective]

/-- A name with the mark of the right relation names a value of the right tuple. -/
lemma valueAt_onRight {t u : Tuple} (ht : t.length = left.length) (a : Attribute) :
    (markedHeading left right).valueAt (t ++ u) a.onRight = right.valueAt u a := by
  have hlength : t.length = (left.map Attribute.onLeft).length := by rw [List.length_map, ht]
  rw [markedHeading,
    Heading.valueAt_append_of_notMem (Attribute.onRight_notMem_map_onLeft a left) hlength,
    Heading.valueAt_map Attribute.onRight_injective]

/-- The equations of a natural join hold of a concatenation if its two tuples agree. -/
lemma agreeing_sharedEquations {t u : Tuple} (ht : t.length = left.length) :
    agreeing (markedHeading left right) (sharedEquations left right) (t ++ u) = true ↔
      Agreeing left right t u := by
  rw [agreeing, sharedEquations, List.all_map, List.all_eq_true]
  constructor
  · intro h a ha ha'
    have hpair := h a (Heading.mem_shared.2 ⟨ha, ha'⟩)
    rwa [Function.comp_apply, valueAt_onLeft ht ha, valueAt_onRight ht] at hpair
  · intro h a hshared
    obtain ⟨ha, ha'⟩ := Heading.mem_shared.1 hshared
    rw [Function.comp_apply, valueAt_onLeft ht ha, valueAt_onRight ht]
    exact h a ha ha'

/-- The columns that a natural join shows of a concatenation are the row of its two tuples. -/
lemma map_valueAt_shownColumns {t u : Tuple} (ht : t.length = left.length) :
    (shownColumns left right).map ((markedHeading left right).valueAt (t ++ u)) =
      shownRow left right t u := by
  have hright : right.without left = right.filter fun a => a ∉ left := by
    refine List.filter_congr fun a _ => ?_
    simp
  rw [shownColumns, shownRow, List.map_append, List.map_map, List.map_map, hright]
  congr 1
  · exact List.map_congr_left fun a ha => valueAt_onLeft ht ha
  · exact List.map_congr_left fun a _ => valueAt_onRight ht a

/-! ## The pipeline -/

/-- Renaming to a heading of the same length keeps the tuples. -/
lemma rename_eq {new : Heading} (h : new.length = r.heading.length) :
    r.rename new = .ok ⟨new, r.tuples⟩ :=
  if_pos h

/-- The pairs of tuples that agree, as tuples of the product of the marked relations. -/
def agreeingPairs (r s : Relation) : Relation where
  heading := markedHeading r.heading s.heading
  tuples := (pairings r s).filter
    (agreeing (markedHeading r.heading s.heading) (sharedEquations r.heading s.heading))

/-- The pairs that agree are made of a tuple of each relation. -/
lemma mem_agreeingPairs (hr : r.WellFormed) {v : Tuple} :
    v ∈ (agreeingPairs r s).tuples ↔
      ∃ t ∈ r.tuples, ∃ u ∈ s.tuples, Agreeing r.heading s.heading t u ∧ t ++ u = v := by
  rw [agreeingPairs, List.mem_filter, mem_pairings]
  constructor
  · rintro ⟨⟨t, ht, u, hu, rfl⟩, hagree⟩
    exact ⟨t, ht, u, hu, (agreeing_sharedEquations (hr.1 t ht)).1 hagree, rfl⟩
  · rintro ⟨t, ht, u, hu, hagree, rfl⟩
    exact ⟨⟨t, ht, u, hu, rfl⟩, (agreeing_sharedEquations (hr.1 t ht)).2 hagree⟩

/-- Relations that share nothing have no natural join. -/
lemma naturalJoin_of_shared_eq_nil (h : Heading.shared r.heading s.heading = []) :
    r.naturalJoin s = .error (.noCommonAttributes r.heading s.heading) := by
  unfold naturalJoin
  simp only [h, if_true]
  rfl

/-- Where attributes are shared, the natural join is the set of the rows that are read from the
pairs that agree. -/
lemma naturalJoin_eq (hr : r.WellFormed) (hs : s.WellFormed)
    (hshared : Heading.shared r.heading s.heading ≠ []) :
    r.naturalJoin s = .ok ⟨naturalHeading r.heading s.heading, TupleSet.ofList
      ((agreeingPairs r s).tuples.map fun v =>
        (shownColumns r.heading s.heading).map ((agreeingPairs r s).heading.valueAt v))⟩ := by
  have hmarked : ∀ {q : Relation} (mark : Attribute → Attribute), q.WellFormed →
      Over (q.heading.map mark) ⟨q.heading.map mark, q.tuples⟩ := by
    intro q mark hq
    refine ⟨rfl, fun t ht => ?_, hq.2⟩
    exact (hq.1 t ht).trans (List.length_map mark).symm
  have hcross :
      cross ⟨r.heading.map Attribute.onLeft, r.tuples⟩ ⟨s.heading.map Attribute.onRight, s.tuples⟩ =
        .ok ⟨markedHeading r.heading s.heading, pairings r s⟩ :=
    cross_eq (hmarked Attribute.onLeft hr) (hmarked Attribute.onRight hs)
      (shared_onLeft_onRight r.heading s.heading)
  have hselect :
      select ⟨markedHeading r.heading s.heading, pairings r s⟩ (.equations
          ((Heading.shared r.heading s.heading).map fun a => (a.onLeft, a.onRight))) =
        .ok (agreeingPairs r s) :=
    select_equations (columns_marked_subset r.heading s.heading)
  have hsub := joined_subset r.heading s.heading
  have hunmarked := map_unqualified_joined r.heading s.heading
  rw [without_shared] at hsub hunmarked
  have hproject :
      (agreeingPairs r s).project (r.heading.map Attribute.onLeft ++
          (s.heading.without r.heading).map Attribute.onRight) = _ :=
    project_eq hsub
  have hlength := congrArg List.length hunmarked
  rw [List.length_map] at hlength
  unfold naturalJoin
  simp only [hshared, if_false, rename_eq (List.length_map _), ok_bind, without_shared, hunmarked]
  rw [hcross, ok_bind, hselect, ok_bind, hproject, ok_bind, rename_eq hlength.symm]
  rfl

/-- A relation is the natural join of two others if it has the columns of the left one and those
that only the right one has, and contains the rows of the pairs of tuples that agree. -/
structure IsNaturalJoin (r s joined : Relation) : Prop where
  heading_eq : joined.heading = r.heading ++ s.heading.filter fun a => a ∉ r.heading
  contains_iff : ∀ row, joined.contains row = true ↔
    ∃ t ∈ r.tuples, ∃ u ∈ s.tuples, Agreeing r.heading s.heading t u ∧
      List.Forall₂ (fun a b => a.compare b = .eq) row (shownRow r.heading s.heading t u)

/-- What the natural join returns is the natural join. -/
lemma isNaturalJoin_of_ok (hr : r.WellFormed) (hs : s.WellFormed) {joined : Relation}
    (h : r.naturalJoin s = .ok joined) : IsNaturalJoin r s joined := by
  have hshared := ((naturalJoin_meets hr.over hs.over).of_ok h).1
  rw [naturalJoin_eq hr hs hshared] at h
  obtain rfl := Except.ok.inj h
  refine ⟨?_, fun row => ?_⟩
  · have hright : s.heading.without r.heading = s.heading.filter fun a => a ∉ r.heading := by
      refine List.filter_congr fun a _ => ?_
      simp
    rw [naturalHeading, hright]
  · change TupleSet.contains (TupleSet.ofList _) row = true ↔ _
    rw [TupleSet.contains_ofList, TupleSet.contains_iff]
    simp only [← Tuple.equal_iff_forall₂]
    constructor
    · rintro ⟨shown, hshown, hequal⟩
      obtain ⟨v, hv, rfl⟩ := List.mem_map.1 hshown
      obtain ⟨t, ht, u, hu, hagree, rfl⟩ := (mem_agreeingPairs hr).1 hv
      rw [agreeingPairs, map_valueAt_shownColumns (hr.1 t ht)] at hequal
      exact ⟨t, ht, u, hu, hagree, hequal⟩
    · rintro ⟨t, ht, u, hu, hagree, hequal⟩
      refine ⟨_, List.mem_map_of_mem ((mem_agreeingPairs hr).2 ⟨t, ht, u, hu, hagree, rfl⟩), ?_⟩
      rw [agreeingPairs, map_valueAt_shownColumns (hr.1 t ht)]
      exact hequal

/-- The natural join of two relations fails exactly if they share no attribute, with the error
that says so, and otherwise it is the set of the rows that show two tuples with agreeing values
at all shared attributes. -/
theorem naturalJoin_comprehension (hr : r.WellFormed) (hs : s.WellFormed) :
    ((∃ e, r.naturalJoin s = .error e) ↔ ∀ a ∈ r.heading, a ∉ s.heading) ∧
      (∀ e, r.naturalJoin s = .error e → e = .noCommonAttributes r.heading s.heading) ∧
      ∀ joined, r.naturalJoin s = .ok joined → IsNaturalJoin r s joined := by
  have hmeets := naturalJoin_meets hr.over hs.over
  have hnothing : Heading.shared r.heading s.heading = [] ↔ ∀ a ∈ r.heading, a ∉ s.heading := by
    rw [List.eq_nil_iff_forall_not_mem]
    simp only [Heading.mem_shared, not_and]
  refine ⟨⟨?_, ?_⟩, fun e he => (hmeets.of_error he).2, fun joined => isNaturalJoin_of_ok hr hs⟩
  · rintro ⟨e, he⟩
    exact hnothing.1 (hmeets.of_error he).1
  · intro hnone
    cases h : r.naturalJoin s with
    | ok joined => exact absurd (hnothing.2 hnone) (hmeets.of_ok h).1
    | error e => exact ⟨e, rfl⟩

/-- Attributes that carry the marks already, and repeated ones: the join equates the first column
`id` of each side, in which `1` and `1.0` agree, and shows it in both places of the left heading. -/
theorem naturalJoin_comprehension_of_marked_attributes :
    let id : Attribute := .name "id"
    let r : Relation :=
      ⟨[id.onLeft, id, id], [[.int 7, .int 1, .int 2], [.int 8, .int 2, .int 1]]⟩
    let s : Relation :=
      ⟨[id, id.onRight, id], [[.float (Binary64.ofInt 1), .int 9, .int 2]]⟩
    (r.WellFormed ∧ s.WellFormed) ∧
      IsNaturalJoin r s
        ⟨[id.onLeft, id, id, id.onRight], [[.int 7, .int 1, .int 1, .int 9]]⟩ := by
  intro id r s
  have hr : r.WellFormed := by decide +kernel
  have hs : s.WellFormed := by decide +kernel
  have hjoined : r.naturalJoin s =
      .ok ⟨[id.onLeft, id, id, id.onRight], [[.int 7, .int 1, .int 1, .int 9]]⟩ := by
    decide +kernel
  exact ⟨⟨hr, hs⟩, (naturalJoin_comprehension hr hs).2.2 _ hjoined⟩

end Relation

end RelationalAlgebra
