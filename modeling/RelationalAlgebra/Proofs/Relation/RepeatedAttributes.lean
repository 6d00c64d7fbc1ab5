import RelationalAlgebra.Proofs.Relation.OuterJoin

/-!
# The outer join of a heading with repeated attributes

A name stands for the first column that carries it.  The outer join finds the tuples that have a
partner by projecting the inner join to the names of the left heading, so what it finds are not
these tuples themselves but what their names stand for: in a heading `(a, a)` the tuple `(1, 2)` is
found as `(1, 1)`.  Such a tuple counts as one without a partner even if it has one.

`Record.Unambiguous` says that the columns of one attribute have equal values, so that it does not
matter which of them a name stands for.  Main statement: of the tuples with a partner the outer
join pads exactly those that are ambiguous.
-/

namespace RelationalAlgebra

namespace Record

/-- All columns of one attribute have equal values. -/
def Unambiguous (record : Record) : Prop :=
  ∀ p ∈ record.pairs, ∀ q ∈ record.pairs, p.1 = q.1 → p.2.compare q.2 = .eq

instance (record : Record) : Decidable record.Unambiguous :=
  inferInstanceAs (Decidable (∀ p ∈ record.pairs, ∀ q ∈ record.pairs, _))

variable {heading : Heading} {t : Tuple}

/-- The value that a name stands for is a value of its attribute. -/
lemma mem_pairs_valueAt (ht : t.length = heading.length) {a : Attribute} (ha : a ∈ heading) :
    (a, heading.valueAt t a) ∈ (Record.mk heading t).pairs := by
  have hheading : heading.idxOf a < heading.length := List.idxOf_lt_length_of_mem ha
  have htuple : heading.idxOf a < t.length := by rwa [ht]
  have hzip : heading.idxOf a < (heading.zip t).length := by
    rw [List.length_zip, ht, Nat.min_self]
    exact hheading
  refine List.mem_iff_getElem.2 ⟨heading.idxOf a, hzip, ?_⟩
  change (heading.zip t)[heading.idxOf a] = _
  rw [List.getElem_zip, List.getElem_idxOf hheading, Heading.valueAt,
    List.getD_eq_getElem _ _ htuple]

/-- A tuple whose values are equal to values given by the names is unambiguous. -/
lemma unambiguous_of_equal {value : Attribute → Scalar}
    (h : Tuple.equal t (heading.map value) = true) : (Record.mk heading t).Unambiguous := by
  rw [Tuple.equal_comm, Tuple.equal_iff_forall₂, List.forall₂_map_left_iff] at h
  obtain ⟨-, hvalues⟩ := List.forall₂_iff_zip.1 h
  intro p hp q hq hsame
  have hpvalue : (value p.1).compare p.2 = .eq := hvalues hp
  have hqvalue : (value q.1).compare q.2 = .eq := hvalues hq
  rw [← hsame] at hqvalue
  exact Std.TransCmp.eq_trans (Std.OrientedCmp.eq_symm hpvalue) hqvalue

/-- An unambiguous tuple is equal to what the names of its columns stand for. -/
lemma Unambiguous.equal_valueAt (h : (Record.mk heading t).Unambiguous)
    (ht : t.length = heading.length) :
    Tuple.equal t (heading.map (heading.valueAt t)) = true := by
  rw [Tuple.equal_comm, Tuple.equal_iff_forall₂, List.forall₂_map_left_iff,
    List.forall₂_iff_zip]
  refine ⟨ht.symm, fun {a v} hpair => ?_⟩
  exact h _ (mem_pairs_valueAt ht (List.of_mem_zip hpair).1) _ hpair rfl

/-- No tuple of a heading without repeated attributes is ambiguous. -/
lemma unambiguous_of_nodup (hnodup : heading.Nodup) (ht : t.length = heading.length) :
    (Record.mk heading t).Unambiguous := by
  have hequal : Tuple.equal t (heading.map (heading.valueAt t)) = true := by
    rw [Heading.map_valueAt_self hnodup ht]
    exact Tuple.equal_refl t
  exact unambiguous_of_equal hequal

end Record

namespace Relation

variable {r s joined : Relation} {pairs : List JoinPair}

/-- The left columns of a join contain a tuple that has a partner exactly if it is unambiguous. -/
lemma contains_leftColumns_of_partner (h : IsJoin r s joined) (hr : r.WellFormed) {t : Tuple}
    (ht : t ∈ r.tuples) (hpartner : ¬ LacksPartner joined s t) :
    TupleSet.contains (leftColumns r joined) t = true ↔ (r.record t).Unambiguous := by
  rw [TupleSet.contains_iff]
  constructor
  · -- Some tuple is found as `t`, so the names give the values of `t`.
    rintro ⟨row, hrow, hequal⟩
    obtain ⟨t', -, -, rfl⟩ := (mem_leftColumns h hr).1 hrow
    exact Record.unambiguous_of_equal hequal
  · intro hunambiguous
    exact ⟨_, (mem_leftColumns h hr).2 ⟨t, ht, hpartner, rfl⟩,
      hunambiguous.equal_valueAt (hr.1 t ht)⟩

/-- If no tuple of the right relation holds nulls only, no padded tuple is one of a join. -/
lemma contains_padded_eq_false (h : IsJoin r s joined) (hr : r.WellFormed)
    (hnulls : ∀ u ∈ s.tuples, ∃ v ∈ u, v ≠ .null) {t : Tuple} (ht : t ∈ r.tuples) :
    joined.contains (padded s t) = false := by
  refine eq_false_of_ne_true fun hcontains => ?_
  obtain ⟨w, hw, hequal⟩ := TupleSet.contains_iff.1 hcontains
  obtain ⟨t', ht', u, hu, rfl⟩ := mem_pairings.1 (h.sublist.subset hw)
  have hnull := (hr.eq_of_equal_append ht ht' hequal).2
  obtain ⟨v, hv, hne⟩ := hnulls u hu
  obtain ⟨n, hn, hnv⟩ := exists_of_forall₂ (Tuple.equal_iff_forall₂.1 hnull) hv
  rw [List.eq_of_mem_replicate hn] at hnv
  -- Only a null is equal to a null.
  cases v <;> first | exact hne rfl | cases hnv

/-- Among padded tuples, equal ones are padded from one tuple of the left relation. -/
lemma contains_map_padded (hr : r.WellFormed) {kept : List Tuple} (hkept : kept.Sublist r.tuples)
    {t : Tuple} (ht : t ∈ r.tuples) :
    TupleSet.contains (kept.map (padded s)) (padded s t) = true ↔ t ∈ kept := by
  rw [TupleSet.contains_iff]
  constructor
  · rintro ⟨w, hw, hequal⟩
    obtain ⟨t', ht', rfl⟩ := List.mem_map.1 hw
    obtain ⟨rfl, -⟩ := hr.eq_of_equal_append ht (hkept.subset ht') hequal
    exact ht'
  · exact fun hmem => ⟨_, List.mem_map_of_mem hmem, Tuple.equal_refl _⟩

/-- A tuple of the left relation that has a partner is padded as well exactly if it is ambiguous:
if two columns of one attribute have unequal values.  So no tuple with a partner is padded if the
left heading has no repeated attribute. -/
theorem padded_of_partner_iff_ambiguous (hr : r.WellFormed) (hs : s.WellFormed)
    (hnulls : ∀ u ∈ s.tuples, ∃ v ∈ u, v ≠ .null) {outer : Relation}
    (houter : r.leftOuterJoin s pairs = .ok outer) :
    ∃ joined, r.innerJoin s pairs = .ok joined ∧
      ∀ t ∈ r.tuples, ∀ u ∈ s.tuples, joined.contains (t ++ u) = true →
        (outer.contains (t ++ List.replicate s.arity .null) = true ↔
          ¬ (r.record t).Unambiguous) ∧
        (r.heading.Nodup → outer.contains (t ++ List.replicate s.arity .null) = false) := by
  have hdisjoint : Heading.shared r.heading s.heading = [] :=
    ((leftOuterJoin_meets hr.over hs.over pairs).of_ok houter).1
  cases hjoined : r.innerJoin s pairs with
  | error e =>
    unfold leftOuterJoin at houter
    rw [hjoined] at houter
    cases houter
  | ok joined =>
    have h : IsJoin r s joined := (isJoin_innerJoin hr hs hdisjoint pairs).of_ok hjoined
    rw [leftOuterJoin_eq_unmatched hr hs hdisjoint hjoined] at houter
    obtain rfl := Except.ok.inj houter
    refine ⟨joined, rfl, fun t ht u hu hcontains => ?_⟩
    have hpartner : ¬ LacksPartner joined s t := by
      intro hlacks
      rw [hlacks u hu] at hcontains
      cases hcontains
    have hiff : TupleSet.contains
        (TupleSet.ofList (joined.tuples ++ (unmatched r joined).map (padded s))) (padded s t) =
          true ↔ ¬ (r.record t).Unambiguous := by
      rw [TupleSet.contains_ofList, TupleSet.contains_append, Bool.or_eq_true,
        ← contains_leftColumns_of_partner h hr ht hpartner]
      have hfalse : TupleSet.contains joined.tuples (padded s t) = false :=
        contains_padded_eq_false h hr hnulls ht
      have hkept : (unmatched r joined).Sublist r.tuples := List.filter_sublist
      rw [hfalse, contains_map_padded hr hkept ht, unmatched, List.mem_filter]
      simp [ht]
    refine ⟨hiff, fun hnodup => eq_false_of_ne_true fun htrue => ?_⟩
    exact hiff.1 htrue (Record.unambiguous_of_nodup hnodup (hr.1 t ht))

/-- Two tuples that have a partner, with one attribute for both columns: the one with unequal
values is padded as well, the other one is not. -/
theorem padded_of_partner_iff_ambiguous_of_two_columns :
    let r : Relation := ⟨[.name "a", .name "a"], [[.int 1, .int 1], [.int 1, .int 2]]⟩
    let s : Relation := ⟨[.name "b"], [[.float (Binary64.ofInt 1)]]⟩
    let joined : Relation := ⟨[.name "a", .name "a", .name "b"],
      [[.int 1, .int 1, .float (Binary64.ofInt 1)], [.int 1, .int 2, .float (Binary64.ofInt 1)]]⟩
    let outer : Relation := ⟨[.name "a", .name "a", .name "b"],
      [[.int 1, .int 1, .float (Binary64.ofInt 1)], [.int 1, .int 2, .null],
        [.int 1, .int 2, .float (Binary64.ofInt 1)]]⟩
    (r.WellFormed ∧ s.WellFormed ∧ ∀ u ∈ s.tuples, ∃ v ∈ u, v ≠ .null) ∧
      (r.innerJoin s [(.name "a", .name "b")] = .ok joined ∧
        r.leftOuterJoin s [(.name "a", .name "b")] = .ok outer) ∧
      ∀ t ∈ r.tuples, outer.contains (t ++ List.replicate s.arity .null) = true ↔
        ¬ (r.record t).Unambiguous := by
  intro r s joined outer
  have hr : r.WellFormed := by decide +kernel
  have hs : s.WellFormed := by decide +kernel
  have hnulls : ∀ u ∈ s.tuples, ∃ v ∈ u, v ≠ .null := by decide +kernel
  have hjoined : r.innerJoin s [(.name "a", .name "b")] = .ok joined := by decide +kernel
  have houter : r.leftOuterJoin s [(.name "a", .name "b")] = .ok outer := by decide +kernel
  obtain ⟨other, hother, hpadded⟩ := padded_of_partner_iff_ambiguous hr hs hnulls houter
  obtain rfl := Except.ok.inj (hjoined.symm.trans hother)
  have hpartner : ∀ t ∈ r.tuples, joined.contains (t ++ [.float (Binary64.ofInt 1)]) = true := by
    decide +kernel
  exact ⟨⟨hr, hs, hnulls⟩, ⟨hjoined, houter⟩, fun t ht =>
    (hpadded t ht _ (List.mem_singleton_self _) (hpartner t ht)).1⟩

/-- A tuple that has a partner is padded as well: the names of its two columns stand for the first
one. -/
theorem padded_with_partner_at_repeated_attribute :
    let r : Relation := ⟨[.name "a", .name "a"], [[.int 1, .int 2]]⟩
    let s : Relation := ⟨[.name "b"], [[.int 1]]⟩
    let joined : Relation :=
      ⟨[.name "a", .name "a", .name "b"], [[.int 1, .int 2, .int 1]]⟩
    let outer : Relation :=
      ⟨[.name "a", .name "a", .name "b"], [[.int 1, .int 2, .null], [.int 1, .int 2, .int 1]]⟩
    (r.WellFormed ∧ s.WellFormed ∧ (∀ a ∈ r.heading, a ∉ s.heading) ∧ s.heading ≠ [] ∧
        ∀ u ∈ s.tuples, ∃ v ∈ u, v ≠ .null) ∧
      (r.innerJoin s [(.name "a", .name "b")] = .ok joined ∧
        r.leftOuterJoin s [(.name "a", .name "b")] = .ok outer) ∧
      ([.int 1, .int 2] ∈ r.tuples ∧ [.int 1] ∈ s.tuples ∧
        joined.contains ([.int 1, .int 2] ++ [.int 1]) = true) ∧
      outer.contains ([.int 1, .int 2] ++ List.replicate s.arity .null) = true := by
  decide +kernel

end Relation

end RelationalAlgebra
