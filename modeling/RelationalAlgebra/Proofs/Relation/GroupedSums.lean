import RelationalAlgebra.Proofs.Aggregate.Totals
import RelationalAlgebra.Proofs.Relation.Grouping
import RelationalAlgebra.Proofs.Relation.Interchange

/-!
# Grouping equal relations

Equal relations have the same classes, up to equality of their tuples, so their groupings have rows
with equal keys, one by one.  What differs is the arithmetic of sums: it follows the forms in which
the values are stored, and equal relations may store them in different forms.

Main statement: groupings of equal relations fail together, and otherwise agree in their keys, in
all columns of counts, least and greatest values, and in those columns of sums and averages whose
running totals stay equal in every class.  Nothing more is true: in the form `1` a value adds to
`2 ^ 53` exactly, and in the form `1.0` it does not.
-/

namespace RelationalAlgebra.Relation

open TupleSet (Matching)
open Scalar (Steady)

variable {r r' u v : Relation} {keys : List Attribute} {aggregations : List Aggregation}
  {t t' row row' : Tuple}

/-! ## Classes of equal tuples -/

/-- The values of an attribute in the class of a tuple, in order. -/
def classValues (r : Relation) (keys : List Attribute) (t : Tuple) (a : Attribute) :
    List Scalar :=
  (r.classOf keys t).map fun u => r.heading.valueAt u a

/-- In every class the running totals of an attribute stay equal, in whichever of two equal
relations they are taken. -/
def SumsSteady (r r' : Relation) (keys : List Attribute) (a : Attribute) : Prop :=
  ∀ t ∈ r.tuples, ∀ t' ∈ r'.tuples, Tuple.equal t t' = true →
    Steady true true 0 (r.classValues keys t a) (r'.classValues keys t' a)

/-- Equal tuples have equal values at the attributes of one heading. -/
lemma equal_keyOf (hheading : r.heading = r'.heading) (keys : List Attribute)
    (ht : Tuple.equal t t' = true) : Tuple.equal (r.keyOf keys t) (r'.keyOf keys t') = true := by
  rw [keyOf, keyOf, ← Heading.pick_idxOf, ← Heading.pick_idxOf, hheading]
  exact Tuple.equal_pick _ ht

/-- The classes of equal tuples in equal relations match. -/
lemma matching_classOf (hr : r.equal r' = true) (keys : List Attribute)
    (ht : Tuple.equal t t' = true) : Matching (r.classOf keys t) (r'.classOf keys t') := by
  obtain ⟨hheading, hrows⟩ := equal_iff_matching.1 hr
  refine hrows.filter fun u u' hu => ?_
  exact Tuple.equal_congr (equal_keyOf hheading keys hu) (equal_keyOf hheading keys ht)

/-- The values of an attribute are equal one by one in matching classes. -/
lemma equalValues_classValues (hr : r.equal r' = true) (keys : List Attribute) (a : Attribute)
    (ht : Tuple.equal t t' = true) :
    EqualValues (r.classValues keys t a) (r'.classValues keys t' a) := by
  have hheading := (equal_iff_matching.1 hr).1
  unfold classValues
  rw [hheading, EqualValues, List.forall₂_map_left_iff, List.forall₂_map_right_iff]
  exact (matching_classOf hr keys ht).imp fun u u' hu => Tuple.compare_getD_eq hu _

/-- If equal tuples store an attribute in the same forms, its running totals stay equal. -/
lemma sumsSteady_of_kind_eq (hr : r.equal r' = true) {a : Attribute}
    (hkinds : ∀ t ∈ r.tuples, ∀ t' ∈ r'.tuples, Tuple.equal t t' = true →
      (r.heading.valueAt t a).kind = (r'.heading.valueAt t' a).kind) :
    SumsSteady r r' keys a := by
  intro t _ t' _ htt
  apply Scalar.steady_of_kind_eq
  unfold classValues
  rw [List.forall₂_map_left_iff, List.forall₂_map_right_iff]
  refine (forall₂_with_mem (matching_classOf hr keys htt)).imp ?_
  rintro u u' ⟨hu, hu', huu⟩
  exact hkinds u (List.mem_of_mem_filter hu) u' (List.mem_of_mem_filter hu') huu

/-- The outcome of an aggregate over a class, by the values of its source. -/
lemma reduceClass_eq (a : Aggregation) :
    r.reduceClass keys t a = if a.aggregate.attr ∈ r.heading then
      a.aggregate.kind.reduce (r.classValues keys t a.aggregate.attr)
    else .error (.missingAttribute a.aggregate.attr) := rfl

/-- Aggregates over the classes of equal tuples have equal outcomes, except for sums and averages
whose running totals do not stay equal. -/
lemma reduceClass_corresponds (hr : r.equal r' = true) (ht : Tuple.equal t t' = true)
    (a : Aggregation) :
    Corresponds
      (fun x y => (a.aggregate.kind ∈ [.sum, .avg] →
        Steady true true 0 (r.classValues keys t a.aggregate.attr)
          (r'.classValues keys t' a.aggregate.attr)) → x.compare y = .eq)
      Error.SameKind (r.reduceClass keys t a) (r'.reduceClass keys t' a) := by
  have hvalues := equalValues_classValues hr keys a.aggregate.attr ht
  rw [reduceClass_eq, reduceClass_eq, (equal_iff_matching.1 hr).1]
  by_cases hattr : a.aggregate.attr ∈ r'.heading
  · rw [if_pos hattr, if_pos hattr]
    exact AggregateKind.reduce_interchange a.aggregate.kind hvalues
  · rw [if_neg hattr, if_neg hattr]
    exact .error rfl

/-! ## Rows of equal tuples -/

/-- Two rows for the classes of two equal tuples. -/
def RowsOfEqual (r r' : Relation) (keys : List Attribute) (aggregations : List Aggregation)
    (row row' : Tuple) : Prop :=
  ∃ t ∈ r.tuples, ∃ t' ∈ r'.tuples, Tuple.equal t t' = true ∧
    r.IsRowOf keys aggregations t row ∧ r'.IsRowOf keys aggregations t' row'

/-- The rows for equal tuples have equal keys. -/
lemma RowsOfEqual.key_equal (hr : r.equal r' = true)
    (h : RowsOfEqual r r' keys aggregations row row') :
    Tuple.equal (row.take keys.length) (row'.take keys.length) = true := by
  obtain ⟨t, -, t', -, htt, hrow, hrow'⟩ := h
  rw [Tuple.equal_congr hrow.key_equal hrow'.key_equal]
  exact equal_keyOf (equal_iff_matching.1 hr).1 keys htt

/-- The rows for equal tuples have equal results of an aggregate, if it is not a sum or an average
or its running totals stay equal. -/
lemma RowsOfEqual.result_equal (hr : r.equal r' = true)
    (h : RowsOfEqual r r' keys aggregations row row') {i : Nat} {a : Aggregation}
    (ha : aggregations[i]? = some a)
    (hsteady : a.aggregate.kind ∈ [.sum, .avg] → SumsSteady r r' keys a.aggregate.attr) :
    ∃ x y, row[keys.length + i]? = some x ∧ row'[keys.length + i]? = some y ∧
      x.compare y = .eq := by
  obtain ⟨t, ht, t', ht', htt, hrow, hrow'⟩ := h
  obtain ⟨x, hx, hresult⟩ := getElem?_of_forall₂ hrow.results ha
  obtain ⟨y, hy, hresult'⟩ := getElem?_of_forall₂ hrow'.results ha
  rw [List.getElem?_drop] at hx hy
  have hcorresponds := @reduceClass_corresponds r r' keys t t' hr htt a
  rw [hresult, hresult'] at hcorresponds
  cases hcorresponds with
  | ok hequal => exact ⟨x, y, hx, hy, hequal fun hkind => hsteady hkind t ht t' ht' htt⟩

/-- The rows for equal tuples are equal if the running totals of all sums and averages stay
equal. -/
lemma RowsOfEqual.equal (hr : r.equal r' = true)
    (h : RowsOfEqual r r' keys aggregations row row')
    (hsteady : ∀ a ∈ aggregations, a.aggregate.kind ∈ [.sum, .avg] →
      SumsSteady r r' keys a.aggregate.attr) : Tuple.equal row row' = true := by
  have hkey := h.key_equal hr
  obtain ⟨t, ht, t', ht', htt, hrow, hrow'⟩ := h
  have hresults : EqualValues (row.drop keys.length) (row'.drop keys.length) := by
    refine (forall₂_of_common hrow.results hrow'.results).imp ?_
    rintro x y ⟨a, ha, hx, hy⟩
    have hcorresponds := @reduceClass_corresponds r r' keys t t' hr htt a
    rw [hx, hy] at hcorresponds
    cases hcorresponds with
    | ok hequal => exact hequal fun hkind => hsteady a ha hkind t ht t' ht' htt
  rw [← List.take_append_drop keys.length row, ← List.take_append_drop keys.length row']
  exact Tuple.equal_append_of_equal hkey (Tuple.equal_iff_forall₂.2 hresults)

/-! ## Groupings of equal relations -/

/-- Groups that are alike have rows for equal tuples, or none for reasons of one sort. -/
lemma groupRow_corresponds (hr : r.equal r' = true) {group group' : Group}
    (hgroup : group ∈ r.groupsBy keys) (hgroup' : group' ∈ r'.groupsBy keys)
    (h : group.Alike group') :
    Corresponds (RowsOfEqual r r' keys aggregations) Error.SameKind
      (groupRow r.heading aggregations group) (groupRow r'.heading aggregations group') := by
  obtain ⟨hheading, hrows⟩ := equal_iff_matching.1 hr
  obtain ⟨t, ht, hkey⟩ := exists_keyOf_eq hgroup
  obtain ⟨t', ht', htt⟩ := exists_of_forall₂ hrows.flip ht
  have hequal : Tuple.equal (r.keyOf keys t) group.key = true := Tuple.equal_of_eq hkey
  have hequal' : Tuple.equal (r'.keyOf keys t') group'.key = true := by
    rw [← Tuple.equal_congr (equal_keyOf hheading keys htt) h.key_equal]
    exact hequal
  have hfail : Corresponds (fun _ _ => True) Error.SameKind
      (groupRow r.heading aggregations group) (groupRow r'.heading aggregations group') := by
    rw [groupRow_eq hgroup hequal, groupRow_eq hgroup' hequal']
    have hresults : Corresponds (List.Forall₂ fun _ _ => True) Error.SameKind
        (aggregations.mapM (r.reduceClass keys t)) (aggregations.mapM (r'.reduceClass keys t')) :=
      Corresponds.mapM (List.forall₂_same.2 fun a _ =>
        (reduceClass_corresponds hr htt a).mono (fun _ _ _ => trivial) fun _ _ he => he)
    exact hresults.map fun _ _ _ => trivial
  cases hrow : groupRow r.heading aggregations group with
  | error e =>
    rw [hrow] at hfail
    obtain ⟨e', hrow', hsame⟩ := hfail.exists_error
    rw [hrow']
    exact .error hsame
  | ok row =>
    rw [hrow] at hfail
    obtain ⟨row', hrow', -⟩ := hfail.exists_ok
    rw [hrow']
    exact .ok ⟨t, ht, t', ht', htt, isRowOf_groupRow hgroup hrow hequal,
      isRowOf_groupRow hgroup' hrow' hequal'⟩

/-- What the groupings of two equal relations have in common. -/
structure GroupedAlike (r r' : Relation) (keys : List Attribute)
    (aggregations : List Aggregation) (u v : Relation) : Prop where
  /-- The headings are the same. -/
  heading_eq : u.heading = v.heading
  /-- The keys are equal row by row. -/
  keys_equal : List.Forall₂
    (fun row row' => Tuple.equal (row.take keys.length) (row'.take keys.length) = true)
    u.tuples v.tuples
  /-- The results of an aggregate are equal row by row, unless they are sums or averages whose
  running totals do not stay equal. -/
  results_equal : ∀ i a, aggregations[i]? = some a →
    (a.aggregate.kind ∈ [.sum, .avg] → SumsSteady r r' keys a.aggregate.attr) →
      List.Forall₂
        (fun row row' => ∃ x y, row[keys.length + i]? = some x ∧
          row'[keys.length + i]? = some y ∧ x.compare y = .eq)
        u.tuples v.tuples
  /-- The groupings are equal if the running totals of all sums and averages stay equal. -/
  equal : (∀ a ∈ aggregations, a.aggregate.kind ∈ [.sum, .avg] →
    SumsSteady r r' keys a.aggregate.attr) → u.equal v = true

/-- Relations with one heading and rows for equal tuples are such groupings. -/
lemma groupedAlike_of_rows (hr : r.equal r' = true) (heading : Heading) {rows rows' : List Tuple}
    (hrows : List.Forall₂ (RowsOfEqual r r' keys aggregations) rows rows') :
    GroupedAlike r r' keys aggregations ⟨heading, rows⟩ ⟨heading, rows'⟩ where
  heading_eq := rfl
  keys_equal := hrows.imp fun _ _ h => h.key_equal hr
  results_equal := fun _ _ ha hsteady => hrows.imp fun _ _ h => h.result_equal hr ha hsteady
  equal := fun hsteady =>
    equal_iff_matching.2 ⟨rfl, hrows.imp fun _ _ h => h.equal hr hsteady⟩

/-- Groupings of equal relations fail together, for reasons of one sort.  Otherwise they have equal
keys, equal counts, least and greatest values, and equal sums and averages if the running totals
stay equal; if all do, the groupings are equal. -/
theorem groupBy_alike_of_equal (hr : r.equal r' = true) (keys : List Attribute)
    (aggregations : List Aggregation) :
    Corresponds (GroupedAlike r r' keys aggregations) Error.SameKind
      (r.groupBy keys aggregations) (r'.groupBy keys aggregations) := by
  obtain ⟨hheading, hrows⟩ := equal_iff_matching.1 hr
  by_cases hkeys : keys ⊆ r.heading
  · have hkeys' : keys ⊆ r'.heading := hheading ▸ hkeys
    have hgroups : List.Forall₂ Group.Alike (r.groupsBy keys) (r'.groupsBy keys) := by
      rw [groupsBy, groupsBy, hheading]
      exact groups_alike _ hrows
    have hrun : Corresponds (List.Forall₂ (RowsOfEqual r r' keys aggregations)) Error.SameKind
        ((r.groupsBy keys).mapM (groupRow r.heading aggregations))
        ((r'.groupsBy keys).mapM (groupRow r'.heading aggregations)) := by
      refine Corresponds.mapM ((forall₂_with_mem hgroups).imp ?_)
      rintro group group' ⟨hgroup, hgroup', halike⟩
      exact groupRow_corresponds hr hgroup hgroup' halike
    rw [groupBy_eq hkeys, groupBy_eq hkeys']
    cases hleft : (r.groupsBy keys).mapM (groupRow r.heading aggregations) with
    | error e =>
      rw [hleft] at hrun
      obtain ⟨e', hright, hsame⟩ := hrun.exists_error
      rw [hright]
      exact .error hsame
    | ok rows =>
      rw [hleft] at hrun
      obtain ⟨rows', hright, hpairs⟩ := hrun.exists_ok
      rw [hright]
      have hset := TupleSet.ofList_of_ascending (ascending_rows (mapM_eq_ok_iff.1 hleft))
      have hset' := TupleSet.ofList_of_ascending (ascending_rows (mapM_eq_ok_iff.1 hright))
      refine .ok ?_
      beta_reduce
      rw [hset, hset']
      exact groupedAlike_of_rows hr _ hpairs
  · have hkeys' : ¬ keys ⊆ r'.heading := hheading ▸ hkeys
    obtain ⟨-, a, -, -, -, -, hleft⟩ := @groupBy_eq_missing r keys aggregations hkeys
    obtain ⟨-, b, -, -, -, -, hright⟩ := @groupBy_eq_missing r' keys aggregations hkeys'
    rw [hleft, hright]
    exact .error rfl

/-- Two equal relations that store a key and a value in different forms, and large values in the
same form: the sums `3` and `3.0` are equal, and so are the averages of the large values. -/
theorem groupBy_alike_of_equal_of_mixed_forms :
    let k : Attribute := .name "k"
    let b : Attribute := .name "b"
    let c : Attribute := .name "c"
    let total : Aggregation := ⟨⟨.sum, b⟩, .name "total"⟩
    let mean : Aggregation := ⟨⟨.avg, c⟩, .name "mean"⟩
    let large : Scalar := .int 9007199254740993
    let middle : Scalar := .float (Binary64.ofInt 4503599627370497)
    let one : Scalar := .float (Binary64.ofInt 1)
    let zero : Scalar := .float (Binary64.zero true)
    let r : Relation :=
      ⟨[k, b, c], [[.int 0, .int 1, large], [.int 0, .int 2, .int 1], [.int 5, .int 7, .int 1]]⟩
    let s : Relation :=
      ⟨[k, b, c], [[zero, one, large], [.int 0, .int 2, .int 1], [.int 5, .int 7, .int 1]]⟩
    let u : Relation := ⟨[k, .name "total", .name "mean"],
      [[.int 0, .int 3, middle], [.int 5, .int 7, one]]⟩
    let v : Relation := ⟨[k, .name "total", .name "mean"],
      [[zero, .float (Binary64.ofInt 3), middle], [.int 5, .int 7, one]]⟩
    r.equal s = true ∧ SumsSteady r s [k] b ∧ SumsSteady r s [k] c ∧
      r.groupBy [k] [total, mean] = .ok u ∧ s.groupBy [k] [total, mean] = .ok v ∧
      u.equal v = true := by
  intro k b c total mean large middle one zero r s u v
  have hequal : r.equal s = true := by decide +kernel
  have hclasses : ∀ t ∈ r.tuples, ∃ integers ∈ ([[1, 2], [7]] : List (List Int64)),
      r.classValues [k] t b = integers.map .int := by decide +kernel
  have hsmall : ∀ integers ∈ ([[1, 2], [7]] : List (List Int64)),
      (0 : Int).natAbs + (integers.map fun n => n.toInt.natAbs).sum ≤ 2 ^ 53 := by decide
  have htotal : SumsSteady r s [k] b := by
    intro t ht t' _ htt
    have hvalues := equalValues_classValues hequal [k] b htt
    obtain ⟨integers, hintegers, hclass⟩ := hclasses t ht
    rw [hclass] at hvalues ⊢
    exact Scalar.steady_of_natAbs_le (hsmall integers hintegers)
      (List.forall₂_map_left_iff.1 hvalues)
  have hmean : SumsSteady r s [k] c := sumsSteady_of_kind_eq hequal (by decide +kernel)
  have hleft : r.groupBy [k] [total, mean] = .ok u := by decide +kernel
  have hright : s.groupBy [k] [total, mean] = .ok v := by decide +kernel
  have halike := groupBy_alike_of_equal hequal [k] [total, mean]
  rw [hleft, hright] at halike
  refine ⟨hequal, htotal, hmean, hleft, hright, ?_⟩
  cases halike with
  | ok halike =>
    refine halike.equal fun a ha _ => ?_
    rcases List.mem_pair.1 ha with rfl | rfl
    · exact htotal
    · exact hmean

/-- Stored as `1`, a value is added to `2 ^ 53` exactly; stored as `1.0`, it is lost.  So the sums
of two equal relations are different numbers. -/
theorem groupBy_unequal_at_two_pow_53_add_one :
    let a : Attribute := .name "a"
    let total : Aggregation := ⟨⟨.sum, a⟩, .name "t"⟩
    let r : Relation := ⟨[a], [[.int 1], [.int 9007199254740992]]⟩
    let s : Relation := ⟨[a], [[.float (Binary64.ofInt 1)], [.int 9007199254740992]]⟩
    let u : Relation := ⟨[.name "t"], [[.int 9007199254740993]]⟩
    let v : Relation := ⟨[.name "t"], [[.float (Binary64.ofInt 9007199254740992)]]⟩
    r.WellFormed ∧ s.WellFormed ∧ r.equal s = true ∧ r.groupBy [] [total] = .ok u ∧
      s.groupBy [] [total] = .ok v ∧ u.equal v = false := by
  decide +kernel

end RelationalAlgebra.Relation
