import RelationalAlgebra.Proofs.Relation.Tuples

/-!
# The outer join and the tuples without a partner

The outer join finds the tuples without a partner on a detour: it projects the inner join to the
left heading and takes the difference.  The inner join decides by the agreement of values and the
difference by their order, which are not the same.  What makes the two fit is that every tuple of
the inner join is a concatenation of stored tuples: its left part is a tuple of the left relation,
and in a relation equal tuples are one tuple.  For the same reason a padded tuple never collides
with a joined one, even if the right relation holds tuples of nulls.

Main statement: the outer join holds the inner join and the padded tuples of the left relation
that have no partner, nothing is counted twice, and its left columns are the left relation again.
-/

namespace RelationalAlgebra

namespace Relation

variable {r s joined : Relation} {pairs : List JoinPair}

/-! ## Joined relations -/

/-- Equal concatenations begin with one tuple of a relation if they begin with two. -/
lemma WellFormed.eq_of_equal_append (hr : r.WellFormed) {t t' u u' : Tuple} (ht : t ∈ r.tuples)
    (ht' : t' ∈ r.tuples) (h : Tuple.equal (t ++ u) (t' ++ u') = true) :
    t = t' ∧ Tuple.equal u u' = true := by
  have hlength : t.length = t'.length := (hr.1 t ht).trans (hr.1 t' ht').symm
  obtain ⟨hleft, hright⟩ := (Tuple.equal_append hlength).1 h
  exact ⟨hr.2.eq_of_equal ht ht' hleft, hright⟩

/-- A relation is a join of two others if it holds some of the concatenations of their tuples, in
the order of the pairs. -/
structure IsJoin (r s joined : Relation) : Prop where
  heading_eq : joined.heading = r.heading ++ s.heading
  sublist : joined.tuples.Sublist (pairings r s)

/-- The inner join of relations with disjoint headings is a join, whatever the equations are. -/
lemma isJoin_innerJoin (hr : r.WellFormed) (hs : s.WellFormed)
    (hdisjoint : Heading.shared r.heading s.heading = []) (pairs : List JoinPair) :
    Meets (IsJoin r s) (fun _ => True) (r.innerJoin s pairs) := by
  unfold innerJoin
  rw [cross_eq hr.over hs.over hdisjoint, ok_bind, select]
  refine Meets.bind (satisfying_meets _ _ fun t _ => ?_) fun kept hkept => ⟨rfl, hkept⟩
  exact Meets.of_forall (fun _ => trivial) fun _ => trivial

namespace IsJoin

/-- A join of two well-formed relations is well formed. -/
lemma over_append (h : IsJoin r s joined) (hr : r.WellFormed) (hs : s.WellFormed) :
    joined.Over (r.heading ++ s.heading) where
  heading_eq := h.heading_eq
  wellFormed := by
    refine ⟨fun v hv => ?_, (ascending_pairings hr.over hs.over).sublist h.sublist⟩
    obtain ⟨t, ht, u, hu, rfl⟩ := mem_pairings.1 (h.sublist.subset hv)
    rw [arity, h.heading_eq, List.length_append, List.length_append, hr.1 t ht, hs.1 u hu]
    rfl

/-- A join contains a tuple that begins with one of the left relation only if it holds this very
tuple together with one of the right relation. -/
lemma exists_partner (h : IsJoin r s joined) (hr : r.WellFormed) {t u : Tuple}
    (ht : t ∈ r.tuples) (hcontains : joined.contains (t ++ u) = true) :
    ∃ u' ∈ s.tuples, t ++ u' ∈ joined.tuples := by
  obtain ⟨v, hv, hequal⟩ := TupleSet.contains_iff.1 hcontains
  obtain ⟨t', ht', u', hu', rfl⟩ := mem_pairings.1 (h.sublist.subset hv)
  obtain ⟨rfl, -⟩ := hr.eq_of_equal_append ht ht' hequal
  exact ⟨u', hu', hv⟩

end IsJoin

/-! ## Tuples without a partner -/

/-- No concatenation of a tuple with one of the right relation is in a join. -/
def LacksPartner (joined s : Relation) (t : Tuple) : Prop :=
  ∀ u ∈ s.tuples, joined.contains (t ++ u) = false

instance (joined s : Relation) (t : Tuple) : Decidable (LacksPartner joined s t) :=
  inferInstanceAs (Decidable (∀ u ∈ s.tuples, _))

/-- A tuple of the left relation has a partner if it begins a tuple of the join. -/
lemma not_lacksPartner (h : IsJoin r s joined) (hr : r.WellFormed) {t : Tuple}
    (ht : t ∈ r.tuples) :
    ¬ LacksPartner joined s t ↔ ∃ u ∈ s.tuples, t ++ u ∈ joined.tuples := by
  constructor
  · intro hpartner
    unfold LacksPartner at hpartner
    push Not at hpartner
    obtain ⟨u, -, hcontains⟩ := hpartner
    exact h.exists_partner hr ht (eq_true_of_ne_false hcontains)
  · rintro ⟨u, hu, hmem⟩ hlacks
    have hcontains : joined.contains (t ++ u) = true := TupleSet.contains_of_mem hmem
    rw [hlacks u hu] at hcontains
    cases hcontains

/-- A tuple filled up with nulls for the columns of the right relation. -/
def padded (s : Relation) (t : Tuple) : Tuple :=
  t ++ List.replicate s.arity .null

/-- No padded tuple is equal to one of the join. -/
lemma contains_padded (h : IsJoin r s joined) (hr : r.WellFormed) {t : Tuple} (ht : t ∈ r.tuples)
    (hlacks : LacksPartner joined s t) : joined.contains (padded s t) = false := by
  refine eq_false_of_ne_true fun hcontains => ?_
  exact (not_lacksPartner h hr ht).2 (h.exists_partner hr ht hcontains) hlacks

/-- The tuples of the left relation without a partner, filled up with nulls. -/
def paddedTuples (r s joined : Relation) : List Tuple :=
  (r.tuples.filter fun t => LacksPartner joined s t).map (padded s)

/-- The padded tuples come from tuples without a partner. -/
lemma mem_paddedTuples {v : Tuple} :
    v ∈ paddedTuples r s joined ↔ ∃ t ∈ r.tuples, LacksPartner joined s t ∧ v = padded s t := by
  simp only [paddedTuples, List.mem_map, List.mem_filter, decide_eq_true_eq, and_assoc,
    eq_comm (b := v)]

/-! ## The detour over the left columns -/

/-- The left columns of a join: at each attribute of the left relation the value that it names. -/
def leftColumns (r joined : Relation) : List Tuple :=
  joined.tuples.map fun v => r.heading.map (joined.heading.valueAt v)

/-- The left columns of a join are read from the tuples that have a partner. -/
lemma mem_leftColumns (h : IsJoin r s joined) (hr : r.WellFormed) {row : Tuple} :
    row ∈ leftColumns r joined ↔
      ∃ t ∈ r.tuples, ¬ LacksPartner joined s t ∧ r.heading.map (r.heading.valueAt t) = row := by
  have hleft : ∀ t ∈ r.tuples, ∀ u : Tuple, r.heading.map (joined.heading.valueAt (t ++ u)) =
      r.heading.map (r.heading.valueAt t) := by
    intro t ht u
    rw [h.heading_eq]
    exact List.map_congr_left fun a ha => Heading.valueAt_append_of_mem ha (hr.1 t ht)
  rw [leftColumns, List.mem_map]
  constructor
  · rintro ⟨v, hv, rfl⟩
    obtain ⟨t, ht, u, hu, rfl⟩ := mem_pairings.1 (h.sublist.subset hv)
    exact ⟨t, ht, (not_lacksPartner h hr ht).2 ⟨u, hu, hv⟩, (hleft t ht u).symm⟩
  · rintro ⟨t, ht, hpartner, rfl⟩
    obtain ⟨u, -, hmem⟩ := (not_lacksPartner h hr ht).1 hpartner
    exact ⟨t ++ u, hmem, hleft t ht u⟩

/-- If no attribute is repeated, the left columns of a join contain a tuple of the left relation
exactly if it has a partner. -/
lemma contains_leftColumns (h : IsJoin r s joined) (hr : r.WellFormed) (hnodup : r.heading.Nodup)
    {t : Tuple} (ht : t ∈ r.tuples) :
    TupleSet.contains (leftColumns r joined) t = true ↔ ¬ LacksPartner joined s t := by
  rw [TupleSet.contains_iff]
  constructor
  · rintro ⟨row, hrow, hequal⟩
    obtain ⟨t', ht', hpartner, rfl⟩ := (mem_leftColumns h hr).1 hrow
    rw [Heading.map_valueAt_self hnodup (hr.1 t' ht')] at hequal
    rwa [hr.2.eq_of_equal ht ht' hequal]
  · intro hpartner
    refine ⟨t, (mem_leftColumns h hr).2 ⟨t, ht, hpartner, ?_⟩, Tuple.equal_refl t⟩
    exact Heading.map_valueAt_self hnodup (hr.1 t ht)

/-- The tuples of the left relation that the left columns of a join do not contain. -/
def unmatched (r joined : Relation) : List Tuple :=
  r.tuples.filter fun t => !TupleSet.contains (leftColumns r joined) t

/-- The relation with one tuple of nulls. -/
lemma nulls_eq (heading : Heading) :
    nulls heading = .ok ⟨heading, [List.replicate heading.length .null]⟩ := by
  unfold nulls ofRows
  rw [ensureArity_of_fits fun t ht => by rw [List.mem_singleton.1 ht, List.length_replicate]]
  rfl

section Padding

variable {kept : List Tuple}

/-- The product of some tuples of the left relation and a tuple of nulls holds these tuples padded.
-/
lemma cross_nulls_eq (hr : r.WellFormed) (hdisjoint : Heading.shared r.heading s.heading = [])
    (hkept : kept.Sublist r.tuples) :
    cross ⟨r.heading, kept⟩ ⟨s.heading, [List.replicate s.heading.length .null]⟩ =
      .ok ⟨r.heading ++ s.heading, kept.map (padded s)⟩ := by
  have hunmatched : WellFormed ⟨r.heading, kept⟩ :=
    ⟨fun t ht => hr.1 t (hkept.subset ht), hr.2.sublist hkept⟩
  have hnulls := (nulls_meets s.heading).of_ok (nulls_eq s.heading)
  rw [cross_eq hunmatched.over hnulls hdisjoint, pairings, List.map_eq_flatMap]
  rfl

/-- Some padded tuples of the left relation are a relation over the heading of the join. -/
lemma over_padded (hr : r.WellFormed) (hkept : kept.Sublist r.tuples) :
    Over (r.heading ++ s.heading) ⟨r.heading ++ s.heading, kept.map (padded s)⟩ where
  heading_eq := rfl
  wellFormed := by
    constructor
    · intro v hv
      obtain ⟨t, ht, rfl⟩ := List.mem_map.1 hv
      change _ = (r.heading ++ s.heading).length
      rw [padded, List.length_append, List.length_append, hr.1 t (hkept.subset ht),
        List.length_replicate]
      rfl
    · refine List.pairwise_map.2 ((hr.2.sublist hkept).imp_of_mem ?_)
      intro t t' ht ht' hlt
      have hlength : t.length = t'.length :=
        (hr.1 t (hkept.subset ht)).trans (hr.1 t' (hkept.subset ht')).symm
      rw [padded, padded, Tuple.compare_append hlength, hlt]
      rfl

end Padding

/-- After the inner join nothing can fail, and the outer join adds to it, padded, the tuples that
its left columns do not contain. -/
theorem leftOuterJoin_eq_unmatched (hr : r.WellFormed) (hs : s.WellFormed)
    (hdisjoint : Heading.shared r.heading s.heading = [])
    (hjoined : r.innerJoin s pairs = .ok joined) :
    r.leftOuterJoin s pairs = .ok ⟨r.heading ++ s.heading,
      TupleSet.ofList (joined.tuples ++ (unmatched r joined).map (padded s))⟩ := by
  have h : IsJoin r s joined := (isJoin_innerJoin hr hs hdisjoint pairs).of_ok hjoined
  have hsub : r.heading ⊆ r.heading ++ s.heading := List.subset_append_left _ _
  obtain ⟨matched, hmatched, hover⟩ :=
    (project_meets (h.over_append hr hs) r.heading).exists_ok fun _ => Heading.not_missing hsub
  have hfilter : r.tuples.filter (fun t => !matched.contains t) = unmatched r joined := by
    rw [project_eq (h.heading_eq ▸ hsub)] at hmatched
    obtain rfl := Except.ok.inj hmatched
    refine List.filter_congr fun t _ => ?_
    rw [contains, TupleSet.contains_ofList]
    rfl
  have hkept : (unmatched r joined).Sublist r.tuples := List.filter_sublist
  unfold leftOuterJoin
  rw [hjoined, ok_bind, hmatched, ok_bind, difference_eq hr.over hover, hfilter, ok_bind,
    nulls_eq, ok_bind, cross_nulls_eq hr hdisjoint hkept, ok_bind,
    union_eq (h.over_append hr hs) (over_padded hr hkept)]

/-- If no attribute of the left relation is repeated, the outer join adds the tuples without a
partner, padded. -/
theorem leftOuterJoin_eq (hr : r.WellFormed) (hs : s.WellFormed)
    (hdisjoint : Heading.shared r.heading s.heading = []) (hnodup : r.heading.Nodup)
    (hjoined : r.innerJoin s pairs = .ok joined) :
    r.leftOuterJoin s pairs = .ok ⟨r.heading ++ s.heading,
      TupleSet.ofList (joined.tuples ++ paddedTuples r s joined)⟩ := by
  have h : IsJoin r s joined := (isJoin_innerJoin hr hs hdisjoint pairs).of_ok hjoined
  have hfilter : unmatched r joined = r.tuples.filter fun t => LacksPartner joined s t := by
    refine List.filter_congr fun t ht => ?_
    rw [Bool.eq_iff_iff, decide_eq_true_eq, Bool.not_eq_true', ← Bool.not_eq_true,
      contains_leftColumns h hr hnodup ht, not_not]
  rw [leftOuterJoin_eq_unmatched hr hs hdisjoint hjoined, hfilter, paddedTuples]

/-! ## The outer join -/

/-- A relation is the outer join that completes a join of two others if it holds the join and the
padded tuples of the left relation that have no partner, if these are different tuples, and if its
left columns are the left relation. -/
structure IsLeftOuterJoin (r s joined outer : Relation) : Prop where
  heading_eq : outer.heading = r.heading ++ s.heading
  mem_iff : ∀ v, v ∈ outer.tuples ↔
    v ∈ joined.tuples ∨ ∃ t ∈ r.tuples, LacksPartner joined s t ∧ v = padded s t
  contains_padded : ∀ t ∈ r.tuples, LacksPartner joined s t →
    joined.contains (padded s t) = false
  size_eq : outer.size = joined.size + r.tuples.countP fun t => LacksPartner joined s t
  project_eq : outer.project r.heading = .ok r

/-- No tuple of the join is equal to a padded one, and so no tuple is lost in their union. -/
lemma union_paddedTuples_perm (h : IsJoin r s joined) (hr : r.WellFormed) (hs : s.WellFormed) :
    (TupleSet.ofList (joined.tuples ++ paddedTuples r s joined)).Perm
      (joined.tuples ++ paddedTuples r s joined) := by
  refine TupleSet.ofList_perm (List.pairwise_append.2 ⟨?_, ?_, ?_⟩)
  · exact (h.over_append hr hs).wellFormed.2.pairwise_not_equal
  · exact (over_padded hr List.filter_sublist).wellFormed.2.pairwise_not_equal
  · intro v hv w hw
    obtain ⟨t, ht, hlacks, rfl⟩ := mem_paddedTuples.1 hw
    have hfalse := List.any_eq_false.1 (contains_padded h hr ht hlacks) v hv
    rw [Tuple.equal_comm]
    exact eq_false_of_ne_true hfalse

/-- The left columns of the outer join are the left relation: a tuple with a partner is shown by
the join, and the others are padded. -/
lemma project_union_paddedTuples (h : IsJoin r s joined) (hr : r.WellFormed) (hs : s.WellFormed)
    (hnodup : r.heading.Nodup) :
    project ⟨r.heading ++ s.heading,
        TupleSet.ofList (joined.tuples ++ paddedTuples r s joined)⟩ r.heading = .ok r := by
  rw [project_eq (List.subset_append_left _ _)]
  congr 1
  refine congrArg (Relation.mk r.heading) (TupleSet.ofList_eq_of_mem_iff hr.2 fun t => ?_)
  simp only [List.mem_map, (union_paddedTuples_perm h hr hs).mem_iff, List.mem_append]
  constructor
  · rintro ⟨v, hjoined | hpadded, rfl⟩
    · obtain ⟨t, ht, u, -, rfl⟩ := mem_pairings.1 (h.sublist.subset hjoined)
      rwa [Heading.map_valueAt_append hnodup (hr.1 t ht)]
    · obtain ⟨t, ht, -, rfl⟩ := mem_paddedTuples.1 hpadded
      rwa [padded, Heading.map_valueAt_append hnodup (hr.1 t ht)]
  · intro ht
    by_cases hlacks : LacksPartner joined s t
    · exact ⟨padded s t, .inr (mem_paddedTuples.2 ⟨t, ht, hlacks, rfl⟩),
        Heading.map_valueAt_append hnodup (hr.1 t ht)⟩
    · obtain ⟨u, -, hmem⟩ := (not_lacksPartner h hr ht).1 hlacks
      exact ⟨t ++ u, .inl hmem, Heading.map_valueAt_append hnodup (hr.1 t ht)⟩

/-- What the outer join returns completes the inner join. -/
lemma isLeftOuterJoin_of_ok (hr : r.WellFormed) (hs : s.WellFormed)
    (hdisjoint : Heading.shared r.heading s.heading = []) (hnodup : r.heading.Nodup)
    (hjoined : r.innerJoin s pairs = .ok joined) {outer : Relation}
    (houter : r.leftOuterJoin s pairs = .ok outer) : IsLeftOuterJoin r s joined outer := by
  have h : IsJoin r s joined := (isJoin_innerJoin hr hs hdisjoint pairs).of_ok hjoined
  have hperm := union_paddedTuples_perm h hr hs
  rw [leftOuterJoin_eq hr hs hdisjoint hnodup hjoined] at houter
  obtain rfl := Except.ok.inj houter
  refine ⟨rfl, fun v => ?_, fun t => contains_padded h hr, ?_,
    project_union_paddedTuples h hr hs hnodup⟩
  · rw [hperm.mem_iff, List.mem_append, mem_paddedTuples]
  · rw [size, hperm.length_eq, List.length_append, paddedTuples, List.length_map,
      List.countP_eq_length_filter]
    rfl

/-- If the headings are disjoint and the left one has no repeated attribute, the outer join fails
exactly as the inner join does, and otherwise it is the inner join completed by the left tuples
without a partner. -/
theorem leftOuterJoin_completes_innerJoin (hr : r.WellFormed) (hs : s.WellFormed)
    (hdisjoint : ∀ a ∈ r.heading, a ∉ s.heading) (hnodup : r.heading.Nodup)
    (pairs : List JoinPair) :
    (∀ e, r.leftOuterJoin s pairs = .error e ↔ r.innerJoin s pairs = .error e) ∧
      ∀ outer, r.leftOuterJoin s pairs = .ok outer →
        ∃ joined, r.innerJoin s pairs = .ok joined ∧ IsLeftOuterJoin r s joined outer := by
  have hshared : Heading.shared r.heading s.heading = [] := by
    refine List.eq_nil_iff_forall_not_mem.2 fun a ha => ?_
    obtain ⟨hleft, hright⟩ := Heading.mem_shared.1 ha
    exact hdisjoint a hleft hright
  cases hjoined : r.innerJoin s pairs with
  | error e =>
    have houter : r.leftOuterJoin s pairs = .error e := by
      unfold leftOuterJoin
      rw [hjoined]
      rfl
    rw [houter]
    exact ⟨fun _ => Iff.rfl, nofun⟩
  | ok joined =>
    refine ⟨fun e => ?_, fun outer houter =>
      ⟨joined, rfl, isLeftOuterJoin_of_ok hr hs hshared hnodup hjoined houter⟩⟩
    rw [leftOuterJoin_eq hr hs hshared hnodup hjoined]
    exact ⟨nofun, nofun⟩

/-- A tuple of nulls on the right that is joined to a null on the left, an integer with an equal
float for its partner, and two tuples without one. -/
theorem leftOuterJoin_completes_innerJoin_of_nulls :
    let r : Relation := ⟨[.name "key"], [[.null], [.int 1], [.int 2], [.text "x"]]⟩
    let s : Relation :=
      ⟨[.name "id", .name "note"], [[.null, .null], [.float (Binary64.ofInt 1), .null]]⟩
    let joined : Relation :=
      ⟨[.name "key", .name "id", .name "note"],
        [[.null, .null, .null], [.int 1, .float (Binary64.ofInt 1), .null]]⟩
    let outer : Relation :=
      ⟨[.name "key", .name "id", .name "note"],
        [[.null, .null, .null], [.int 1, .float (Binary64.ofInt 1), .null],
          [.int 2, .null, .null], [.text "x", .null, .null]]⟩
    (r.WellFormed ∧ s.WellFormed ∧ (∀ a ∈ r.heading, a ∉ s.heading) ∧ r.heading.Nodup) ∧
      r.innerJoin s [(.name "key", .name "id")] = .ok joined ∧
      r.leftOuterJoin s [(.name "key", .name "id")] = .ok outer ∧
      IsLeftOuterJoin r s joined outer := by
  intro r s joined outer
  have hr : r.WellFormed := by decide +kernel
  have hs : s.WellFormed := by decide +kernel
  have hdisjoint : ∀ a ∈ r.heading, a ∉ s.heading := by decide +kernel
  have hnodup : r.heading.Nodup := by decide +kernel
  have hjoined : r.innerJoin s [(.name "key", .name "id")] = .ok joined := by decide +kernel
  have houter : r.leftOuterJoin s [(.name "key", .name "id")] = .ok outer := by decide +kernel
  obtain ⟨other, hother, hcompletes⟩ :=
    (leftOuterJoin_completes_innerJoin hr hs hdisjoint hnodup [(.name "key", .name "id")]).2
      outer houter
  obtain rfl := Except.ok.inj (hjoined.symm.trans hother)
  exact ⟨⟨hr, hs, hdisjoint, hnodup⟩, hjoined, houter, hcompletes⟩

end Relation

end RelationalAlgebra
