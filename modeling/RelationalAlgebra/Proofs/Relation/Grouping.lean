import RelationalAlgebra.Proofs.Aggregate.Sums
import RelationalAlgebra.Proofs.Relation.Classes
import RelationalAlgebra.Proofs.Relation.Equality

/-!
# Grouping by attributes

What grouping returns is said by the classes of tuples with equal values at the grouping
attributes: it fails if an aggregate fails on some class, namely with the first error of the class
with the least key (`FailsFirst`), and otherwise it has one row for each class (`IsGrouping`).

Main statement: this is so for all relations, grouping attributes and aggregates.  In particular the
rows are as many as the tuples of the projection on the grouping attributes, which gives the same
keys, and the sizes of the classes add up to the size of the relation.
-/

namespace RelationalAlgebra.Relation

open TupleSet (Matching Ascending)

variable {r u : Relation} {keys : List Attribute} {aggregations : List Aggregation}
  {rows : List Tuple}

/-! ## The outcome of grouping -/

/-- Grouping by attributes that are there makes a row for every group. -/
lemma groupBy_eq (h : keys ⊆ r.heading) :
    r.groupBy keys aggregations =
      ((r.groupsBy keys).mapM (groupRow r.heading aggregations)).map fun rows =>
        ⟨keys ++ aggregations.map Aggregation.output, TupleSet.ofList rows⟩ := by
  rw [groupBy, Heading.positions_of_subset h]
  rfl

/-- Grouping succeeds if every group has a row, and then it returns these rows in order. -/
lemma groupBy_eq_ok_iff (h : keys ⊆ r.heading) :
    r.groupBy keys aggregations = .ok u ↔
      ∃ rows, List.Forall₂ (fun group row => groupRow r.heading aggregations group = .ok row)
          (r.groupsBy keys) rows ∧
        u = ⟨keys ++ aggregations.map Aggregation.output, rows⟩ := by
  rw [groupBy_eq h]
  constructor
  · intro hok
    cases hrows : (r.groupsBy keys).mapM (groupRow r.heading aggregations) with
    | error e =>
      rw [hrows] at hok
      cases hok
    | ok rows =>
      rw [hrows] at hok
      have hforall := mapM_eq_ok_iff.1 hrows
      refine ⟨rows, hforall, ?_⟩
      rw [← TupleSet.ofList_of_ascending (ascending_rows hforall)]
      exact (Except.ok.inj hok).symm
  · rintro ⟨rows, hrows, rfl⟩
    rw [mapM_eq_ok_iff.2 hrows]
    change Except.ok (Relation.mk _ (TupleSet.ofList rows)) = _
    rw [TupleSet.ofList_of_ascending (ascending_rows hrows)]

/-- The error of grouping: the one of the first aggregate that fails on the class with the least
key on which any does. -/
def FailsFirst (r : Relation) (keys : List Attribute) (aggregations : List Aggregation)
    (e : Error) : Prop :=
  ∃ t ∈ r.tuples,
    (∃ before a after, aggregations = before ++ a :: after ∧
      (∀ b ∈ before, ∃ value, r.reduceClass keys t b = .ok value) ∧
      r.reduceClass keys t a = .error e) ∧
    ∀ s ∈ r.tuples, Tuple.compare (r.keyOf keys s) (r.keyOf keys t) = .lt →
      ∀ b ∈ aggregations, ∃ value, r.reduceClass keys s b = .ok value

/-- The row of a group fails as the first of its aggregates that does. -/
lemma groupRow_eq_error_iff {group : Group} (hgroup : group ∈ r.groupsBy keys) {t : Tuple}
    (h : Tuple.equal (r.keyOf keys t) group.key = true) {e : Error} :
    groupRow r.heading aggregations group = .error e ↔
      ∃ before a after, aggregations = before ++ a :: after ∧
        (∀ b ∈ before, ∃ value, r.reduceClass keys t b = .ok value) ∧
        r.reduceClass keys t a = .error e := by
  rw [groupRow_eq hgroup h, map_eq_error_iff, mapM_eq_error_iff]

/-- Grouping fails with the error of the class with the least key on which an aggregate fails. -/
lemma groupBy_eq_error_iff (h : keys ⊆ r.heading) {e : Error} :
    r.groupBy keys aggregations = .error e ↔ r.FailsFirst keys aggregations e := by
  have hascending := ascending_groupsBy r keys
  rw [groupBy_eq h, map_eq_error_iff, mapM_eq_error_iff]
  constructor
  · rintro ⟨before, group, after, hsplit, hbefore, hgroup⟩
    have hmem : group ∈ r.groupsBy keys := by
      rw [hsplit]
      exact List.mem_append_right _ List.mem_cons_self
    obtain ⟨t, ht, hkey⟩ := exists_keyOf_eq hmem
    refine ⟨t, ht, (groupRow_eq_error_iff hmem (Tuple.equal_of_eq hkey)).1 hgroup, ?_⟩
    intro s hs hlt
    obtain ⟨other, hother, hequal⟩ := exists_groupBy keys hs
    -- The group of a smaller key comes before the one that fails.
    have hearlier : other ∈ before := by
      rw [hsplit] at hother
      rcases List.mem_append.1 hother with hother | hother
      · exact hother
      · have hle : Tuple.compare group.key other.key ≠ .gt := by
          rcases List.mem_cons.1 hother with rfl | hlater
          · rw [Tuple.equal_iff.1 (Tuple.equal_refl _)]
            exact nofun
          · rw [hsplit, List.map_append, List.map_cons] at hascending
            have hpairs := (List.pairwise_append.1 hascending).2.1
            rw [(List.pairwise_cons.1 hpairs).1 _ (List.mem_map_of_mem hlater)]
            exact nofun
        rw [hkey, Tuple.compare_congr hequal (Tuple.equal_refl _)] at hlt
        exact absurd (Std.OrientedCmp.gt_of_lt hlt) hle
    exact (exists_groupRow_iff (by rw [hsplit]; exact List.mem_append_left _ hearlier) hequal).1
      (hbefore other hearlier)
  · rintro ⟨t, ht, hfails, hsmaller⟩
    obtain ⟨group, hmem, hequal⟩ := exists_groupBy keys ht
    obtain ⟨before, after, hsplit⟩ := List.append_of_mem hmem
    refine ⟨before, group, after, hsplit, fun other hearlier => ?_,
      (groupRow_eq_error_iff hmem hequal).2 hfails⟩
    have hother : other ∈ r.groupsBy keys := by
      rw [hsplit]
      exact List.mem_append_left _ hearlier
    obtain ⟨s, hs, hkey⟩ := exists_keyOf_eq hother
    refine (exists_groupRow_iff hother (Tuple.equal_of_eq hkey)).2 (hsmaller s hs ?_)
    rw [hsplit, List.map_append] at hascending
    have hlt := (List.pairwise_append.1 hascending).2.2 _ (List.mem_map_of_mem hearlier)
      group.key (List.mem_map_of_mem List.mem_cons_self)
    rwa [hkey, Tuple.compare_congr (Tuple.equal_refl _) hequal]

/-- Grouping by attributes of which some are missing fails with the first one that is. -/
lemma groupBy_eq_missing (h : ¬ keys ⊆ r.heading) :
    ∃ before a after, keys = before ++ a :: after ∧ before ⊆ r.heading ∧ a ∉ r.heading ∧
      r.groupBy keys aggregations = .error (.missingAttribute a) := by
  cases hpositions : r.heading.positions keys with
  | ok positions => exact absurd (Heading.subset_of_positions hpositions) h
  | error e =>
    obtain ⟨before, a, after, rfl, hbefore, ha⟩ := mapM_eq_error_iff.1 hpositions
    obtain ⟨b, hb, hmissing, rfl⟩ := (Heading.indexOf_meets r.heading a).of_error ha
    obtain rfl := List.mem_singleton.1 hb
    refine ⟨before, b, after, rfl, fun c hc => ?_, hmissing, ?_⟩
    · obtain ⟨i, hi⟩ := hbefore c hc
      exact Heading.mem_of_idxOf? ((Heading.indexOf_meets r.heading c).of_ok hi)
    · rw [groupBy, hpositions]
      rfl

/-- Grouping fails if an aggregate fails on some class. -/
lemma exists_groupBy_error_iff (h : keys ⊆ r.heading) :
    (∃ e, r.groupBy keys aggregations = .error e) ↔
      ∃ t ∈ r.tuples, ∃ a ∈ aggregations, ∃ e, r.reduceClass keys t a = .error e := by
  constructor
  · rintro ⟨e, he⟩
    obtain ⟨t, ht, ⟨before, a, after, rfl, -, ha⟩, -⟩ := (groupBy_eq_error_iff h).1 he
    exact ⟨t, ht, a, List.mem_append_right _ List.mem_cons_self, e, ha⟩
  · rintro ⟨t, ht, a, ha, e, he⟩
    cases hu : r.groupBy keys aggregations with
    | error d => exact ⟨d, rfl⟩
    | ok u =>
      obtain ⟨rows, hrows, -⟩ := (groupBy_eq_ok_iff h).1 hu
      obtain ⟨group, hgroup, hequal⟩ := exists_groupBy keys ht
      obtain ⟨row, -, hrow⟩ := exists_of_forall₂ hrows.flip hgroup
      obtain ⟨value, hvalue⟩ := (exists_groupRow_iff hgroup hequal).1 ⟨row, hrow⟩ a ha
      rw [he] at hvalue
      cases hvalue

/-! ## The result of grouping -/

/-- A relation holds one row for each class of tuples with equal values at some attributes. -/
structure IsGrouping (r : Relation) (keys : List Attribute) (aggregations : List Aggregation)
    (u : Relation) : Prop where
  /-- The columns are the grouping attributes and the outputs of the aggregates. -/
  heading_eq : u.heading = keys ++ aggregations.map Aggregation.output
  /-- Every class has exactly one row. -/
  row_of_class : ∀ t ∈ r.tuples, ∃! row, row ∈ u.tuples ∧ r.IsRowOf keys aggregations t row
  /-- Every row is one of a class. -/
  class_of_row : ∀ row ∈ u.tuples, ∃ t ∈ r.tuples, r.IsRowOf keys aggregations t row
  /-- The keys are the tuples of the projection, and there are as many rows. -/
  projection : ∃ p q, r.project keys = .ok p ∧ u.project keys = .ok q ∧ q.equal p = true ∧
    u.size = p.size
  /-- Each tuple belongs to the class of one row. -/
  class_sizes : ∃ ts, ts ⊆ r.tuples ∧ List.Forall₂ (r.IsRowOf keys aggregations) ts u.tuples ∧
    (ts.map fun t => (r.classOf keys t).length).sum = r.size
  /-- The counts of all rows add up to the size. -/
  counts : ∀ i a, aggregations[i]? = some a → a.aggregate.kind = .count → r.size < 2 ^ 63 →
    ∃ counts : List Int64,
      List.Forall₂ (fun row n => row[keys.length + i]? = some (.int n)) u.tuples counts ∧
        Scalar.exactTotal counts = r.size

/-- Each class has the row of its group and no other one. -/
lemma existsUnique_row
    (hrows : List.Forall₂ (fun group row => groupRow r.heading aggregations group = .ok row)
      (r.groupsBy keys) rows) {t : Tuple} (ht : t ∈ r.tuples) :
    ∃! row, row ∈ rows ∧ r.IsRowOf keys aggregations t row := by
  obtain ⟨group, hgroup, hequal⟩ := exists_groupBy keys ht
  obtain ⟨row, hrow, hgroupRow⟩ := exists_of_forall₂ hrows.flip hgroup
  have hisRow : r.IsRowOf keys aggregations t row := isRowOf_groupRow hgroup hgroupRow hequal
  refine ⟨row, ⟨hrow, hisRow⟩, ?_⟩
  rintro row' ⟨hrow', hisRow'⟩
  -- The two rows have equal keys and the same results, so they are equal tuples of one set.
  have hkeys : Tuple.equal (row'.take keys.length) (row.take keys.length) = true := by
    rw [Tuple.equal_congr hisRow'.key_equal hisRow.key_equal]
    exact Tuple.equal_refl _
  have hresults : row'.drop keys.length = row.drop keys.length := by
    have hmapM := mapM_eq_ok_iff.2 hisRow.results
    rw [mapM_eq_ok_iff.2 hisRow'.results] at hmapM
    exact Except.ok.inj hmapM
  refine (ascending_rows hrows).eq_of_equal hrow' hrow ?_
  rw [← List.take_append_drop keys.length row', ← List.take_append_drop keys.length row, hresults]
  exact Tuple.equal_append_of_equal hkeys (Tuple.equal_refl _)

/-- The grouping attributes name the key of a row. -/
lemma map_valueAt_groupRow {group : Group} (hgroup : group ∈ r.groupsBy keys) {row : Tuple}
    (hrow : groupRow r.heading aggregations group = .ok row) (outputs : List Attribute) :
    keys.map (Heading.valueAt (keys ++ outputs) row) = group.key := by
  have htake := take_groupRow hgroup hrow
  have hlength : (row.take keys.length).length = keys.length := by
    rw [htake, length_group_key hgroup]
  have hnames : ∀ a ∈ keys, Heading.valueAt (keys ++ outputs) row a =
      Heading.valueAt keys (row.take keys.length) a := by
    intro a ha
    conv_lhs => rw [← List.take_append_drop keys.length row]
    exact Heading.valueAt_append_of_mem ha hlength
  obtain ⟨t, -, hkey⟩ := exists_keyOf_eq hgroup
  rw [List.map_congr_left hnames, htake, ← hkey, keyOf, Heading.map_valueAt_map]

/-- The keys of the rows are the tuples of the projection on the grouping attributes. -/
lemma project_rows (h : keys ⊆ r.heading)
    (hrows : List.Forall₂ (fun group row => groupRow r.heading aggregations group = .ok row)
      (r.groupsBy keys) rows) (outputs : List Attribute) :
    ∃ p q, r.project keys = .ok p ∧ project ⟨keys ++ outputs, rows⟩ keys = .ok q ∧
      q.equal p = true ∧ rows.length = p.size := by
  have hkeys : rows.map (fun row => keys.map (Heading.valueAt (keys ++ outputs) row)) =
      (r.groupsBy keys).map Group.key := by
    rw [← List.forall₂_eq_eq_eq, List.forall₂_map_left_iff, List.forall₂_map_right_iff]
    have hnamed := forall₂_imp_of_mem hrows fun _ hgroup _ hrow =>
      map_valueAt_groupRow hgroup hrow outputs
    exact hnamed.flip
  have hmatching : Matching (TupleSet.ofList (r.tuples.map (r.keyOf keys)))
      ((r.groupsBy keys).map Group.key) := by
    have hpick : Tuple.pick (keys.map r.heading.idxOf) = r.keyOf keys :=
      funext fun t => Heading.pick_idxOf r.heading keys t
    rw [← hpick]
    exact groups_keys_matching _ _
  refine ⟨⟨keys, TupleSet.ofList (r.tuples.map (r.keyOf keys))⟩,
    ⟨keys, (r.groupsBy keys).map Group.key⟩, project_eq h, ?_, ?_, ?_⟩
  · rw [project_eq (List.subset_append_left keys outputs)]
    change Except.ok (Relation.mk keys (TupleSet.ofList (rows.map _))) = _
    rw [hkeys, TupleSet.ofList_of_ascending (ascending_groupsBy r keys)]
  · rw [equal_iff_forall₂]
    refine ⟨rfl, hmatching.flip.imp fun s t hst => ?_⟩
    rw [← Tuple.equal_iff_forall₂, Tuple.equal_comm]
    exact hst
  · rw [size, hmatching.length_eq, List.length_map, hrows.length_eq]

/-- Each tuple of the relation belongs to the class of one row. -/
lemma exists_representatives
    (hrows : List.Forall₂ (fun group row => groupRow r.heading aggregations group = .ok row)
      (r.groupsBy keys) rows) :
    ∃ ts, ts ⊆ r.tuples ∧ List.Forall₂ (r.IsRowOf keys aggregations) ts rows ∧
      (ts.map fun t => (r.classOf keys t).length).sum = r.size := by
  choose! representative hmem hkey using
    fun group (hgroup : group ∈ r.groupsBy keys) => exists_keyOf_eq hgroup
  refine ⟨(r.groupsBy keys).map representative, fun t ht => ?_, ?_, ?_⟩
  · obtain ⟨group, hgroup, rfl⟩ := List.mem_map.1 ht
    exact hmem group hgroup
  · rw [List.forall₂_map_left_iff]
    exact forall₂_imp_of_mem hrows fun group hgroup row hrow =>
      isRowOf_groupRow hgroup hrow (Tuple.equal_of_eq (hkey group hgroup))
  · have hlengths : ∀ group ∈ r.groupsBy keys,
        (r.classOf keys (representative group)).length = group.members.length := by
      intro group hgroup
      rw [members_eq_classOf hgroup (Tuple.equal_of_eq (hkey group hgroup))]
    rw [List.map_map, size, ← sum_length_members (keys.map r.heading.idxOf) r.tuples]
    exact congrArg List.sum (List.map_congr_left hlengths)

/-- The counts of all rows add up to the size of the relation. -/
lemma exists_counts {ts : List Tuple} (hts : List.Forall₂ (r.IsRowOf keys aggregations) ts rows)
    (hsizes : (ts.map fun t => (r.classOf keys t).length).sum = r.size)
    {i : Nat} {a : Aggregation} (ha : aggregations[i]? = some a)
    (hkind : a.aggregate.kind = .count) (hsize : r.size < 2 ^ 63) :
    ∃ counts : List Int64,
      List.Forall₂ (fun row n => row[keys.length + i]? = some (.int n)) rows counts ∧
        Scalar.exactTotal counts = r.size := by
  have htotal : Scalar.exactTotal (ts.map fun t => Int64.ofInt (r.classOf keys t).length) =
      r.size := by
    have hsum : (ts.map fun t => (r.classOf keys t).length).sum < 2 ^ 63 := by rwa [hsizes]
    rw [← hsizes, ← Scalar.exactTotal_sizes hsum, List.map_map]
    rfl
  refine ⟨ts.map fun t => Int64.ofInt (r.classOf keys t).length, ?_, ?_⟩
  · have hcolumn : List.Forall₂ (fun t row =>
        row[keys.length + i]? = some (.int (Int64.ofInt (r.classOf keys t).length))) ts rows := by
      refine hts.imp fun t row hrow => ?_
      obtain ⟨value, hvalue, hreduce⟩ := getElem?_of_forall₂ hrow.results ha
      rw [List.getElem?_drop] at hvalue
      rw [hvalue]
      unfold reduceClass at hreduce
      by_cases hattr : a.aggregate.attr ∈ r.heading
      · rw [if_pos hattr, hkind, AggregateKind.reduce, List.length_map] at hreduce
        rw [← Except.ok.inj hreduce]
      · rw [if_neg hattr] at hreduce
        cases hreduce
    rw [List.forall₂_map_right_iff]
    exact hcolumn.flip
  · exact htotal

/-- What grouping returns is a grouping. -/
lemma isGrouping_of_ok (h : keys ⊆ r.heading) (hu : r.groupBy keys aggregations = .ok u) :
    r.IsGrouping keys aggregations u := by
  obtain ⟨rows, hrows, rfl⟩ := (groupBy_eq_ok_iff h).1 hu
  obtain ⟨ts, hsubset, hts, hsizes⟩ := exists_representatives hrows
  exact {
    heading_eq := rfl
    row_of_class := fun t ht => existsUnique_row hrows ht
    class_of_row := fun row hrow => by
      obtain ⟨t, ht, hisRow⟩ := exists_of_forall₂ hts hrow
      exact ⟨t, hsubset ht, hisRow⟩
    projection := project_rows h hrows _
    class_sizes := ⟨ts, hsubset, hts, hsizes⟩
    counts := fun i a ha hkind hsize => exists_counts hts hsizes ha hkind hsize }

/-- Grouping partitions a relation.  If a grouping attribute is missing, the error names the first
one that is.  Otherwise grouping fails exactly if some aggregate fails on some class of tuples with
equal keys, with the first error of the class with the least key, and what it returns has one row
for each class. -/
theorem groupBy_partitions (r : Relation) (keys : List Attribute)
    (aggregations : List Aggregation) :
    (¬ keys ⊆ r.heading → ∃ before a after, keys = before ++ a :: after ∧
      before ⊆ r.heading ∧ a ∉ r.heading ∧
      r.groupBy keys aggregations = .error (.missingAttribute a)) ∧
    (keys ⊆ r.heading →
      ((∃ e, r.groupBy keys aggregations = .error e) ↔
        ∃ t ∈ r.tuples, ∃ a ∈ aggregations, ∃ e, r.reduceClass keys t a = .error e) ∧
      (∀ e, r.groupBy keys aggregations = .error e ↔ r.FailsFirst keys aggregations e) ∧
      ∀ u, r.groupBy keys aggregations = .ok u → r.IsGrouping keys aggregations u) :=
  ⟨groupBy_eq_missing, fun h =>
    ⟨exists_groupBy_error_iff h, fun _ => groupBy_eq_error_iff h, fun _ => isGrouping_of_ok h⟩⟩

/-- The keys `1` and `1.0` belong to one class, here asked for twice; the sum fails on the other
class, and a missing attribute is named before one that is there. -/
theorem groupBy_partitions_of_mixed_keys :
    let a : Attribute := .name "a"
    let b : Attribute := .name "b"
    let c : Attribute := .name "c"
    let count : Aggregation := ⟨⟨.count, b⟩, .name "n"⟩
    let total : Aggregation := ⟨⟨.sum, b⟩, .name "total"⟩
    let r : Relation :=
      ⟨[a, b], [[.int 1, .int 10], [.float (Binary64.ofInt 1), .int 20], [.int 2, .null]]⟩
    let u : Relation :=
      ⟨[a, a, .name "n"], [[.int 1, .int 1, .int 2], [.int 2, .int 2, .int 1]]⟩
    r.WellFormed ∧
      (r.groupBy [a, a] [count] = .ok u ∧ r.IsGrouping [a, a] [count] u) ∧
      (r.groupBy [a] [count, total] = .error (.typeMismatch "sum" .int .null) ∧
        r.FailsFirst [a] [count, total] (.typeMismatch "sum" .int .null)) ∧
      ∃ before missing after, [c, a] = before ++ missing :: after ∧ before ⊆ r.heading ∧
        missing ∉ r.heading ∧
        r.groupBy [c, a] [count] = .error (.missingAttribute missing) := by
  intro a b c count total r u
  have hresult : r.groupBy [a, a] [count] = .ok u := by decide +kernel
  have herror : r.groupBy [a] [count, total] = .error (.typeMismatch "sum" .int .null) := by
    decide +kernel
  obtain ⟨-, -, hgrouping⟩ := (groupBy_partitions r [a, a] [count]).2 (by decide)
  obtain ⟨-, hfails, -⟩ := (groupBy_partitions r [a] [count, total]).2 (by decide)
  exact ⟨by decide +kernel, ⟨hresult, hgrouping u hresult⟩, ⟨herror, (hfails _).1 herror⟩,
    (groupBy_partitions r [c, a] [count]).1 (by decide)⟩

end RelationalAlgebra.Relation
