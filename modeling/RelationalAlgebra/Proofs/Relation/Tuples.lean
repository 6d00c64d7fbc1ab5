import RelationalAlgebra.Proofs.Heading.Values
import RelationalAlgebra.Proofs.Relation.Joins
import RelationalAlgebra.Proofs.TupleSet.Membership

/-!
# Operations tuple by tuple

Which tuples an operation returns, once nothing can go wrong with the headings.  The product of
two well-formed relations holds one tuple for each pair of their tuples: since the tuples of a
relation have one length, different pairs make different tuples, and they come out in ascending
order (`cross_eq`).  So a selection from the product tests every pair once, with the very scalars
that the two relations hold.

Projections and selections by equations are stated by the names of the columns; what is read at a
name is `Heading.valueAt`.
-/

namespace RelationalAlgebra

namespace Relation

variable {r s : Relation} {left right : Heading}

/-! ## Products -/

/-- The concatenations of the tuples of two relations, in the order of the pairs. -/
def pairings (r s : Relation) : List Tuple :=
  r.tuples.flatMap fun t => s.tuples.map fun u => t ++ u

/-- A concatenation is one of a tuple of the left and a tuple of the right relation. -/
lemma mem_pairings {v : Tuple} :
    v ∈ pairings r s ↔ ∃ t ∈ r.tuples, ∃ u ∈ s.tuples, t ++ u = v := by
  simp only [pairings, List.mem_flatMap, List.mem_map]

/-- Two relations that have tuples have concatenations. -/
lemma pairings_ne_nil (hr : r.tuples ≠ []) (hs : s.tuples ≠ []) : pairings r s ≠ [] := by
  obtain ⟨t, ht⟩ := List.exists_mem_of_ne_nil _ hr
  obtain ⟨u, hu⟩ := List.exists_mem_of_ne_nil _ hs
  exact List.ne_nil_of_mem (mem_pairings.2 ⟨t, ht, u, hu, rfl⟩)

/-- The concatenations of the tuples of two well-formed relations are ascending. -/
lemma ascending_pairings (hr : r.Over left) (hs : s.Over right) :
    TupleSet.Ascending (pairings r s) := by
  refine List.pairwise_flatMap.2 ⟨fun t _ => ?_, ?_⟩
  · refine List.pairwise_map.2 (hs.wellFormed.2.imp fun {u v} huv => ?_)
    have hself : Tuple.compare t t = .eq := Std.ReflCmp.compare_self
    rw [Tuple.compare_append rfl, hself, huv]
    rfl
  · refine hr.wellFormed.2.imp_of_mem fun {t t'} ht ht' hlt v hv v' hv' => ?_
    obtain ⟨u, -, rfl⟩ := List.mem_map.1 hv
    obtain ⟨u', -, rfl⟩ := List.mem_map.1 hv'
    have hlength : t.length = t'.length := (hr.length_eq ht).trans (hr.length_eq ht').symm
    rw [Tuple.compare_append hlength, hlt]
    rfl

/-- The product of relations with disjoint headings holds all concatenations of their tuples. -/
theorem cross_eq (hr : r.Over left) (hs : s.Over right)
    (disjoint : Heading.shared left right = []) :
    r.cross s = .ok ⟨left ++ right, pairings r s⟩ := by
  have hfits : ∀ v ∈ pairings r s, v.length = (left ++ right).length := by
    intro v hv
    obtain ⟨t, ht, u, hu, rfl⟩ := mem_pairings.1 hv
    rw [List.length_append, List.length_append, hr.length_eq ht, hs.length_eq hu]
  unfold cross
  rw [hr.heading_eq, hs.heading_eq, Heading.ensureDisjoint, if_pos disjoint, ok_bind]
  change ofSet _ (TupleSet.ofList (pairings r s)) = _
  rw [ofSet_of_fits hfits, TupleSet.ofList_of_ascending (ascending_pairings hr hs)]

/-! ## Boolean operations -/

/-- The union of relations with one heading is the set of the tuples of both. -/
lemma union_eq (hr : r.Over left) (hs : s.Over left) :
    r.union s = .ok ⟨left, TupleSet.ofList (r.tuples ++ s.tuples)⟩ := by
  have hfits : ∀ t ∈ r.tuples ++ s.tuples, t.length = left.length := by
    intro t ht
    exact (List.mem_append.1 ht).elim hr.length_eq hs.length_eq
  unfold union
  rw [hr.heading_eq, hs.heading_eq, Heading.ensureSame, if_pos rfl, ok_bind, ofSet_of_fits hfits]

/-- Some tuples of a relation are a set that fits its heading. -/
lemma ofSet_filter (hr : r.Over left) (keep : Tuple → Bool) :
    ofSet left (TupleSet.ofList (r.tuples.filter keep)) = .ok ⟨left, r.tuples.filter keep⟩ := by
  have hfits : ∀ t ∈ r.tuples.filter keep, t.length = left.length := fun t ht =>
    hr.length_eq (List.mem_of_mem_filter ht)
  have hascending : TupleSet.Ascending (r.tuples.filter keep) :=
    hr.wellFormed.2.sublist List.filter_sublist
  rw [ofSet_of_fits hfits, TupleSet.ofList_of_ascending hascending]

/-- The intersection of relations with one heading holds the tuples of the left one that the right
one contains. -/
lemma intersection_eq (hr : r.Over left) (hs : s.Over left) :
    r.intersection s = .ok ⟨left, r.tuples.filter fun t => s.contains t⟩ := by
  unfold intersection
  rw [hr.heading_eq, hs.heading_eq, Heading.ensureSame, if_pos rfl, ok_bind, ofSet_filter hr]

/-- The difference of relations with one heading holds the tuples of the left one that the right
one does not contain. -/
lemma difference_eq (hr : r.Over left) (hs : s.Over left) :
    r.difference s = .ok ⟨left, r.tuples.filter fun t => !s.contains t⟩ := by
  unfold difference
  rw [hr.heading_eq, hs.heading_eq, Heading.ensureSame, if_pos rfl, ok_bind, ofSet_filter hr]

/-! ## Projections -/

/-- A projection on columns that are there reads the values of these columns in every tuple. -/
lemma project_eq {attrs : List Attribute} (h : attrs ⊆ r.heading) :
    r.project attrs =
      .ok ⟨attrs, TupleSet.ofList (r.tuples.map fun t => attrs.map (r.heading.valueAt t))⟩ := by
  have hpick : Tuple.pick (attrs.map r.heading.idxOf) =
      fun t => attrs.map (r.heading.valueAt t) :=
    funext fun t => Heading.pick_idxOf r.heading attrs t
  rw [project, Heading.positions_of_subset h, ← hpick]
  rfl

/-! ## Selections by equations -/

/-- Whether a tuple has agreeing values in both columns of every equation. -/
def agreeing (heading : Heading) (pairs : List JoinPair) (t : Tuple) : Bool :=
  pairs.all fun pair => (heading.valueAt t pair.1).agrees (heading.valueAt t pair.2)

/-- An equation between two columns that are there compares their values. -/
lemma equalFields_eval {heading : Heading} {a b : Attribute} (t : Tuple) (ha : a ∈ heading)
    (hb : b ∈ heading) :
    (Predicate.equalFields a b).eval ⟨heading, t⟩ =
      .ok ((heading.valueAt t a).agrees (heading.valueAt t b)) := by
  have hget : ∀ c ∈ heading, Record.get ⟨heading, t⟩ c = .ok (heading.valueAt t c) :=
    fun c hc => Record.get_of_mem hc
  simp only [Predicate.equalFields, Predicate.eval, Operand.resolve, hget a ha, hget b hb]
  rfl

/-- Equations between columns that are there hold of a tuple if its values agree. -/
lemma equations_eval {heading : Heading} {pairs : List JoinPair} (t : Tuple)
    (h : JoinPair.columns pairs ⊆ heading) :
    (Predicate.equations pairs).eval ⟨heading, t⟩ = .ok (agreeing heading pairs t) := by
  have hlist : Predicate.evalList ⟨heading, t⟩
      (pairs.map fun pair => Predicate.equalFields pair.1 pair.2) =
        .ok (pairs.map fun pair =>
          (heading.valueAt t pair.1).agrees (heading.valueAt t pair.2)) := by
    induction pairs with
    | nil => rfl
    | cons pair pairs ih =>
      have hcolumns : JoinPair.columns (pair :: pairs) =
          pair.1 :: pair.2 :: JoinPair.columns pairs := rfl
      rw [hcolumns, List.cons_subset, List.cons_subset] at h
      obtain ⟨hfst, hsnd, hrest⟩ := h
      rw [List.map_cons, Predicate.evalList, equalFields_eval t hfst hsnd, ih hrest]
      rfl
  rw [Predicate.equations, Predicate.eval, hlist]
  change Except.ok (List.all (pairs.map _) id) = _
  rw [List.all_map]
  rfl

/-- Selecting by equations between columns that are there keeps the tuples whose values agree. -/
lemma select_equations {pairs : List JoinPair} (h : JoinPair.columns pairs ⊆ r.heading) :
    r.select (.equations pairs) =
      .ok ⟨r.heading, r.tuples.filter (agreeing r.heading pairs)⟩ := by
  have htests : Meets (fun values => values.length = r.tuples.length) (fun _ => False)
      (r.tuples.mapM fun t => (Predicate.equations pairs).eval ⟨r.heading, t⟩) := by
    refine Meets.mapM_length fun t _ => ?_
    rw [equations_eval t h]
    trivial
  obtain ⟨values, hvalues, -⟩ := htests.exists_ok fun _ => not_false
  have hholds : (Predicate.equations pairs).holds r.heading = agreeing r.heading pairs := by
    funext t
    rw [Predicate.holds, equations_eval t h]
    simp
  rw [select, satisfying_eq, hvalues, hholds]
  rfl

end Relation

end RelationalAlgebra
