import RelationalAlgebra.Proofs.Relation.Partition
import RelationalAlgebra.Proofs.Relation.Tuples

/-!
# Classes of tuples

The tuples of a relation fall into classes with equal values at the grouping attributes.
`reduceClass` is the outcome of one aggregate over a class, and the row of a group is read off these
outcomes: its key, followed by the results of the aggregates over its class.  The rows come in the
order of their keys, so that the set of the rows is their list.
-/

namespace RelationalAlgebra

open TupleSet (Matching Ascending)

/-! ## An aggregate over some tuples -/

/-- An aggregate over tuples with one heading reduces their values, if the heading has its
attribute. -/
lemma Aggregate.apply_eq (aggregate : Aggregate) (heading : Heading) {members : List Tuple}
    (h : members ≠ []) :
    aggregate.apply (members.map (Record.mk heading)) =
      if aggregate.attr ∈ heading then
        aggregate.kind.reduce (members.map fun t => heading.valueAt t aggregate.attr)
      else .error (.missingAttribute aggregate.attr) := by
  unfold Aggregate.apply
  by_cases hattr : aggregate.attr ∈ heading
  · have hvalues : (members.map (Record.mk heading)).mapM
        (fun record => record.get aggregate.attr) =
          .ok (members.map fun t => heading.valueAt t aggregate.attr) := by
      rw [mapM_eq_ok_iff, List.forall₂_map_left_iff, List.forall₂_map_right_iff,
        List.forall₂_same]
      exact fun t _ => Record.get_of_mem hattr
    rw [hvalues, if_pos hattr]
    rfl
  · obtain ⟨t, rest, rfl⟩ := List.exists_cons_of_ne_nil h
    have hmissing : (Record.mk heading t).get aggregate.attr =
        .error (.missingAttribute aggregate.attr) := by
      rw [Record.get, Heading.indexOf, List.idxOf?_eq_none_iff.2 hattr]
      rfl
    rw [if_neg hattr, List.map_cons, List.mapM_cons, hmissing]
    rfl

namespace Relation

variable {r : Relation} {keys : List Attribute} {aggregations : List Aggregation}

/-! ## Classes -/

/-- The values of a tuple at the grouping attributes. -/
def keyOf (r : Relation) (keys : List Attribute) (t : Tuple) : Tuple :=
  keys.map (r.heading.valueAt t)

/-- The tuples with the same values as a tuple at the grouping attributes, in order. -/
def classOf (r : Relation) (keys : List Attribute) (t : Tuple) : List Tuple :=
  r.tuples.filter fun u => Tuple.equal (r.keyOf keys u) (r.keyOf keys t)

/-- The outcome of an aggregate over the class of a tuple: the values of its source are reduced, if
there is such an attribute. -/
def reduceClass (r : Relation) (keys : List Attribute) (t : Tuple) (a : Aggregation) :
    Except Error Scalar :=
  if a.aggregate.attr ∈ r.heading then
    a.aggregate.kind.reduce ((r.classOf keys t).map fun u => r.heading.valueAt u a.aggregate.attr)
  else .error (.missingAttribute a.aggregate.attr)

/-- The groups by some attributes. -/
def groupsBy (r : Relation) (keys : List Attribute) : List Group :=
  groups (keys.map r.heading.idxOf) r.tuples

/-- The groups come in the order of their keys. -/
lemma ascending_groupsBy (r : Relation) (keys : List Attribute) :
    Ascending ((r.groupsBy keys).map Group.key) :=
  groups_keys_ascending _ _

/-- The members of a group are the tuples with its key. -/
lemma members_eq_filter {group : Group} (hgroup : group ∈ r.groupsBy keys) :
    group.members = r.tuples.filter fun t => Tuple.equal (r.keyOf keys t) group.key := by
  rw [members_eq_withKey _ _ group hgroup]
  refine List.filter_congr fun t _ => ?_
  rw [Heading.pick_idxOf, ← keyOf]

/-- A group is the class of each tuple that has its key. -/
lemma members_eq_classOf {group : Group} (hgroup : group ∈ r.groupsBy keys) {t : Tuple}
    (h : Tuple.equal (r.keyOf keys t) group.key = true) :
    group.members = r.classOf keys t := by
  rw [members_eq_filter hgroup]
  rw [Tuple.equal_comm] at h
  exact List.filter_congr fun u _ => Tuple.equal_congr (Tuple.equal_refl _) h

/-- Every group has the key of one of the tuples. -/
lemma exists_keyOf_eq {group : Group} (hgroup : group ∈ r.groupsBy keys) :
    ∃ t ∈ r.tuples, r.keyOf keys t = group.key := by
  have hfrom := groups_from _ _ group hgroup
  obtain ⟨t, ht, hkey⟩ := hfrom.exists_key
  refine ⟨t, hfrom.members_subset ht, ?_⟩
  rw [hkey, Heading.pick_idxOf, keyOf]

/-- Every tuple has the key of one of the groups. -/
lemma exists_groupBy (keys : List Attribute) {t : Tuple} (ht : t ∈ r.tuples) :
    ∃ group ∈ r.groupsBy keys, Tuple.equal (r.keyOf keys t) group.key = true := by
  obtain ⟨group, hgroup, hkey⟩ := exists_group (keys.map r.heading.idxOf) ht
  rw [Heading.pick_idxOf] at hkey
  exact ⟨group, hgroup, hkey⟩

/-- The keys of the groups are those of the tuples, up to equality. -/
lemma contains_keys_iff {key : Tuple} :
    TupleSet.contains ((r.groupsBy keys).map Group.key) key = true ↔
      ∃ t ∈ r.tuples, Tuple.equal key (r.keyOf keys t) = true := by
  rw [TupleSet.contains_iff]
  constructor
  · rintro ⟨_, hmem, hequal⟩
    obtain ⟨group, hgroup, rfl⟩ := List.mem_map.1 hmem
    obtain ⟨t, ht, hkey⟩ := exists_keyOf_eq hgroup
    exact ⟨t, ht, hkey ▸ hequal⟩
  · rintro ⟨t, ht, hequal⟩
    obtain ⟨group, hgroup, hkey⟩ := exists_groupBy keys ht
    refine ⟨group.key, List.mem_map_of_mem hgroup, ?_⟩
    rwa [Tuple.equal_congr_left hequal]

/-- The row of a group is its key with the outcomes of the aggregates over its class. -/
lemma groupRow_eq {group : Group} (hgroup : group ∈ r.groupsBy keys) {t : Tuple}
    (h : Tuple.equal (r.keyOf keys t) group.key = true) :
    groupRow r.heading aggregations group =
      (aggregations.mapM (r.reduceClass keys t)).map (group.key ++ ·) := by
  have happly : ∀ a : Aggregation,
      a.aggregate.apply (group.members.map (Record.mk r.heading)) = r.reduceClass keys t a := by
    intro a
    rw [a.aggregate.apply_eq r.heading (groups_from _ _ group hgroup).members_ne_nil,
      members_eq_classOf hgroup h, reduceClass]
  unfold groupRow
  simp only [happly]
  rfl

/-! ## Rows -/

/-- A row for the class of a tuple: a key that is equal to that of the tuple, and the results of
the aggregates. -/
structure IsRowOf (r : Relation) (keys : List Attribute) (aggregations : List Aggregation)
    (t row : Tuple) : Prop where
  key_equal : Tuple.equal (row.take keys.length) (r.keyOf keys t) = true
  results : List.Forall₂ (fun a value => r.reduceClass keys t a = .ok value) aggregations
    (row.drop keys.length)

/-- The key of a group has a value for each grouping attribute. -/
lemma length_group_key {group : Group} (hgroup : group ∈ r.groupsBy keys) :
    group.key.length = keys.length := by
  rw [(groups_from _ _ group hgroup).length_key, List.length_map]

/-- The row of a group has the key of the group. -/
lemma take_groupRow {group : Group} (hgroup : group ∈ r.groupsBy keys) {row : Tuple}
    (hrow : groupRow r.heading aggregations group = .ok row) :
    row.take keys.length = group.key := by
  obtain ⟨t, -, hkey⟩ := exists_keyOf_eq hgroup
  rw [groupRow_eq hgroup (Tuple.equal_of_eq hkey)] at hrow
  cases hresults : aggregations.mapM (r.reduceClass keys t) with
  | error e =>
    rw [hresults] at hrow
    cases hrow
  | ok results =>
    rw [hresults] at hrow
    obtain rfl : group.key ++ results = row := Except.ok.inj hrow
    rw [← length_group_key hgroup, List.take_left]

/-- The row of a group is a row for the class of every tuple with the key of the group. -/
lemma isRowOf_groupRow {group : Group} (hgroup : group ∈ r.groupsBy keys) {row t : Tuple}
    (hrow : groupRow r.heading aggregations group = .ok row)
    (h : Tuple.equal (r.keyOf keys t) group.key = true) :
    r.IsRowOf keys aggregations t row := by
  have htake := take_groupRow hgroup hrow
  rw [groupRow_eq hgroup h] at hrow
  cases hresults : aggregations.mapM (r.reduceClass keys t) with
  | error e =>
    rw [hresults] at hrow
    cases hrow
  | ok results =>
    rw [hresults] at hrow
    obtain rfl : group.key ++ results = row := Except.ok.inj hrow
    refine ⟨?_, ?_⟩
    · rw [htake, Tuple.equal_comm]
      exact h
    · rw [← length_group_key hgroup, List.drop_left]
      exact mapM_eq_ok_iff.1 hresults

/-- A group has a row if every aggregate has a result on its class. -/
lemma exists_groupRow_iff {group : Group} (hgroup : group ∈ r.groupsBy keys) {t : Tuple}
    (h : Tuple.equal (r.keyOf keys t) group.key = true) :
    (∃ row, groupRow r.heading aggregations group = .ok row) ↔
      ∀ a ∈ aggregations, ∃ value, r.reduceClass keys t a = .ok value := by
  rw [groupRow_eq hgroup h]
  cases hresults : aggregations.mapM (r.reduceClass keys t) with
  | ok results =>
    refine iff_of_true ⟨_, rfl⟩ fun a ha => ?_
    obtain ⟨value, -, hvalue⟩ := exists_of_forall₂ (mapM_eq_ok_iff.1 hresults).flip ha
    exact ⟨value, hvalue⟩
  | error e =>
    refine iff_of_false (fun ⟨_, hrow⟩ => by cases hrow) fun hall => ?_
    obtain ⟨before, a, after, rfl, -, ha⟩ := mapM_eq_error_iff.1 hresults
    obtain ⟨value, hvalue⟩ := hall a (List.mem_append_right _ List.mem_cons_self)
    rw [ha] at hvalue
    cases hvalue

/-- The rows of the groups are in order. -/
lemma ascending_rows {rows : List Tuple}
    (hrows : List.Forall₂ (fun group row => groupRow r.heading aggregations group = .ok row)
      (r.groupsBy keys) rows) : Ascending rows := by
  have hkeys : (rows.map (List.take keys.length)) = (r.groupsBy keys).map Group.key := by
    have htake : List.Forall₂ (fun group row => row.take keys.length = group.key)
        (r.groupsBy keys) rows :=
      forall₂_imp_of_mem hrows fun _ hgroup _ hrow => take_groupRow hgroup hrow
    rw [← List.forall₂_eq_eq_eq, List.forall₂_map_left_iff, List.forall₂_map_right_iff]
    exact htake.flip
  have hascending : Ascending (rows.map (List.take keys.length)) := by
    rw [hkeys]
    exact ascending_groupsBy r keys
  have hlength : ∀ row ∈ rows, (row.take keys.length).length = keys.length := by
    intro row hrow
    have hkey : row.take keys.length ∈ (r.groupsBy keys).map Group.key := by
      rw [← hkeys]
      exact List.mem_map_of_mem hrow
    obtain ⟨group, hgroup, hkey⟩ := List.mem_map.1 hkey
    rw [← hkey, length_group_key hgroup]
  refine (List.pairwise_map.1 hascending).imp_of_mem fun {s t} hs ht hlt => ?_
  rw [← List.take_append_drop keys.length s, ← List.take_append_drop keys.length t,
    Tuple.compare_append ((hlength s hs).trans (hlength t ht).symm), hlt]
  rfl

end Relation

end RelationalAlgebra
