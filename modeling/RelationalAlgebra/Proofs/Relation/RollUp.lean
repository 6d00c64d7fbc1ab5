import RelationalAlgebra.Proofs.Aggregate.Parts
import RelationalAlgebra.Proofs.Relation.Grouping
import RelationalAlgebra.Proofs.Relation.Interchange

/-!
# Grouping in two steps

A relation can be grouped by some attributes in two steps: first by more attributes than asked for,
and then the rows of that grouping by the attributes that are.  Each group of the second step
consists of rows whose groups of the first step make up one group of the relation, since the key of
a row starts with the values at the attributes asked for (`members_perm`).  So an aggregate that can
be taken in two steps has the outcome that it has in one, and this extends to failures: it does not
matter in which of the two steps values turn out not to fit.

Main statement: least values, greatest values and counts roll up in this way.
-/

namespace RelationalAlgebra.Relation

open AggregateKind (RollsUp)
open TupleSet (Matching Ascending)

variable {r : Relation} {keys more : List Attribute} {inner outer : AggregateKind}
  {source output : Attribute} {fine : Relation}

/-- Grouping in two steps: by some attributes and more, and then the rows by the first ones, with an
aggregate over the results of another one. -/
def rollUp (r : Relation) (keys more : List Attribute) (inner outer : AggregateKind)
    (source output : Attribute) : Except Error Relation := do
  let fine ← r.groupBy (keys ++ more) [⟨⟨inner, source⟩, output⟩]
  fine.groupBy keys [⟨⟨outer, output⟩, output⟩]

/-! ## Groups of groups -/

/-- The values of an attribute in a group. -/
def Group.values (group : Group) (heading : Heading) (attr : Attribute) : List Scalar :=
  group.members.map fun t => heading.valueAt t attr

/-- The row of a group with one aggregate is its key and the reduced values. -/
lemma groupRow_singleton {kind : AggregateKind} {group : Group}
    (hgroup : group ∈ r.groupsBy keys) (hsource : source ∈ r.heading) :
    groupRow r.heading [⟨⟨kind, source⟩, output⟩] group =
      (kind.reduce (group.values r.heading source)).map fun x => group.key ++ [x] := by
  have happly := Aggregate.apply_eq ⟨kind, source⟩ r.heading
    (groups_from _ _ group hgroup).members_ne_nil
  rw [if_pos hsource] at happly
  rw [groupRow, List.mapM_cons, happly, Group.values]
  cases kind.reduce (group.members.map fun t => r.heading.valueAt t source) <;> rfl

/-- The key by some attributes and more starts with the key by these attributes. -/
lemma take_keyOf (r : Relation) (keys more : List Attribute) (t : Tuple) :
    (r.keyOf (keys ++ more) t).take keys.length = r.keyOf keys t := by
  rw [keyOf, List.map_append, List.take_left' (List.length_map _), ← keyOf]

/-- The key of a member starts as the key of its group. -/
lemma equal_take_key {group : Group} (hgroup : group ∈ r.groupsBy (keys ++ more)) {t : Tuple}
    (ht : t ∈ group.members) :
    Tuple.equal (r.keyOf keys t) (group.key.take keys.length) = true := by
  rw [members_eq_filter hgroup] at ht
  rw [← take_keyOf r keys more t]
  exact Tuple.equal_take _ (List.mem_filter.1 ht).2

/-- A test that does not tell the members of a group apart keeps all members of the groups that
pass it. -/
lemma filter_flatMap_members {found : List Group} {test : Tuple → Bool} {passes : Group → Bool}
    (h : ∀ group ∈ found, ∀ t ∈ group.members, test t = passes group) :
    (found.flatMap Group.members).filter test = (found.filter passes).flatMap Group.members := by
  induction found with
  | nil => rfl
  | cons group rest ih =>
    obtain ⟨hgroup, hrest⟩ := List.forall_mem_cons.1 h
    rw [List.flatMap_cons, List.filter_append, ih hrest, List.filter_congr hgroup]
    cases hpasses : passes group with
    | true => rw [List.filter_true, List.filter_cons_of_pos hpasses, List.flatMap_cons]
    | false =>
      rw [List.filter_false, List.nil_append,
        List.filter_cons_of_neg (by rw [hpasses]; exact Bool.false_ne_true)]

/-- The tuples with a key are the members of all groups whose keys start with it. -/
lemma members_perm (r : Relation) (keys more : List Attribute) (key : Tuple) :
    (r.tuples.filter fun t => Tuple.equal (r.keyOf keys t) key).Perm
      (((r.groupsBy (keys ++ more)).filter fun group =>
        Tuple.equal (group.key.take keys.length) key).flatMap Group.members) := by
  have hmembers : (((r.groupsBy (keys ++ more)).flatMap Group.members).filter fun t =>
      Tuple.equal (r.keyOf keys t) key).Perm
        (r.tuples.filter fun t => Tuple.equal (r.keyOf keys t) key) :=
    (flatMap_members_perm _ r.tuples).filter _
  rw [filter_flatMap_members fun group hgroup t ht =>
    Tuple.equal_congr_left (equal_take_key hgroup ht) key] at hmembers
  exact hmembers.symm

/-! ## The rows of the first step -/

/-- What a row of the first step says about its group: the values at the first attributes are the
start of the key, and that of the output is the result. -/
structure RowOfPart (r : Relation) (keys : List Attribute) (inner : AggregateKind)
    (source output : Attribute) (fine : Relation) (group : Group) (row : Tuple) : Prop where
  key_eq : fine.keyOf keys row = group.key.take keys.length
  reduce_eq : inner.reduce (group.values r.heading source) =
    .ok (fine.heading.valueAt row output)

/-- The groups of the first step have rows that belong to them. -/
lemma rowsOfParts (hall : keys ++ more ⊆ r.heading) (hsource : source ∈ r.heading)
    (houtput : output ∉ keys ++ more)
    (hfine : r.groupBy (keys ++ more) [⟨⟨inner, source⟩, output⟩] = .ok fine) :
    fine.heading = keys ++ more ++ [output] ∧
      List.Forall₂ (RowOfPart r keys inner source output fine) (r.groupsBy (keys ++ more))
        fine.tuples := by
  obtain ⟨rows, hrows, rfl⟩ := (groupBy_eq_ok_iff hall).1 hfine
  refine ⟨rfl, forall₂_imp_of_mem hrows fun group hgroup row hrow => ⟨?_, ?_⟩⟩
  · rw [← map_valueAt_groupRow hgroup hrow [output], List.map_append,
      List.take_left' (List.length_map _)]
    rfl
  · rw [groupRow_singleton hgroup hsource] at hrow
    cases hreduce : inner.reduce (group.values r.heading source) with
    | error e =>
      rw [hreduce] at hrow
      cases hrow
    | ok x =>
      rw [hreduce] at hrow
      obtain rfl : group.key ++ [x] = row := Except.ok.inj hrow
      rw [Heading.valueAt_append_of_notMem houtput (length_group_key hgroup)]
      simp [Heading.valueAt]

/-- The keys of the second step are those of the relation. -/
lemma matching_keys
    (h : List.Forall₂ (RowOfPart r keys inner source output fine) (r.groupsBy (keys ++ more))
      fine.tuples) :
    Matching ((fine.groupsBy keys).map Group.key) ((r.groupsBy keys).map Group.key) := by
  refine TupleSet.matching_of_contains (ascending_groupsBy _ _) (ascending_groupsBy _ _)
    fun key => Bool.eq_iff_iff.2 ?_
  rw [contains_keys_iff, contains_keys_iff]
  constructor
  · rintro ⟨row, hrow, hequal⟩
    obtain ⟨group, hgroup, hpart⟩ := exists_of_forall₂ h hrow
    obtain ⟨t, ht, hkey⟩ := exists_keyOf_eq hgroup
    refine ⟨t, ht, ?_⟩
    rwa [← take_keyOf r keys more, hkey, ← hpart.key_eq]
  · rintro ⟨t, ht, hequal⟩
    obtain ⟨group, hgroup, hkey⟩ := exists_groupBy (keys ++ more) ht
    obtain ⟨row, hrow, hpart⟩ := exists_of_forall₂ h.flip hgroup
    refine ⟨row, hrow, ?_⟩
    have htake := Tuple.equal_take keys.length hkey
    rw [take_keyOf] at htake
    rwa [hpart.key_eq, ← Tuple.equal_congr (Tuple.equal_refl key) htake]

/-- Groups of the two ways with equal keys have equal rows, or their values do not fit in either
way. -/
lemma groupRow_corresponds_of_parts (hrollsUp : RollsUp inner outer r.size)
    (hsource : source ∈ r.heading) (houtput : output ∈ fine.heading)
    (h : List.Forall₂ (RowOfPart r keys inner source output fine) (r.groupsBy (keys ++ more))
      fine.tuples)
    {coarse group : Group} (hcoarse : coarse ∈ fine.groupsBy keys)
    (hgroup : group ∈ r.groupsBy keys) (hkey : Tuple.equal coarse.key group.key = true) :
    Corresponds (fun t u => Tuple.equal t u = true) (fun _ _ => True)
      (groupRow fine.heading [⟨⟨outer, output⟩, output⟩] coarse)
      (groupRow r.heading [⟨⟨inner, source⟩, output⟩] group) := by
  -- The groups of the first step whose rows are the members of the group of the second step.
  let parts : List Group := (r.groupsBy (keys ++ more)).filter fun part =>
    Tuple.equal (part.key.take keys.length) coarse.key
  have hparts : List.Forall₂ (RowOfPart r keys inner source output fine) parts
      coarse.members := by
    rw [members_eq_filter hcoarse]
    refine List.rel_filter (fun part row hpart => ?_) h
    change Tuple.equal _ coarse.key = true ↔ Tuple.equal _ coarse.key = true
    rw [hpart.key_eq]
  have hperm : (group.values r.heading source).Perm
      (parts.map fun part => part.values r.heading source).flatten := by
    have hmembers : group.members.Perm (parts.flatMap Group.members) := by
      rw [members_eq_filter hgroup, List.filter_congr fun t _ =>
        (Tuple.equal_congr (Tuple.equal_refl (r.keyOf keys t)) hkey).symm]
      exact members_perm r keys more coarse.key
    have hvalues := hmembers.map fun t => r.heading.valueAt t source
    rwa [List.map_flatMap, List.flatMap_def] at hvalues
  have hlength : (group.values r.heading source).length ≤ r.size := by
    rw [Group.values, List.length_map, members_eq_filter hgroup]
    exact List.length_filter_le _ _
  rw [groupRow_singleton hcoarse houtput, groupRow_singleton hgroup hsource]
  refine (hrollsUp.whole ?_ hperm hlength).map fun x y hxy => ?_
  · exact List.forall₂_map_left_iff.2 (List.forall₂_map_right_iff.2
      (hparts.imp fun _ _ hpart => hpart.reduce_eq))
  · exact Tuple.equal_append_of_equal hkey (Tuple.equal_iff_forall₂.2 (.cons hxy .nil))

/-! ## Both steps -/

/-- If the first step fails on a class, grouping in one step fails on the class that it is part
of. -/
lemma reduceClass_error_of_part (hrollsUp : RollsUp inner outer r.size)
    (hsource : source ∈ r.heading) {t : Tuple} (ht : t ∈ r.tuples) {e : Error}
    (he : r.reduceClass (keys ++ more) t ⟨⟨inner, source⟩, output⟩ = .error e) :
    ∃ d, r.reduceClass keys t ⟨⟨inner, source⟩, output⟩ = .error d := by
  rw [reduceClass, if_pos hsource] at he ⊢
  have hsublist : (r.classOf (keys ++ more) t).Sublist (r.classOf keys t) := by
    refine List.monotone_filter_right r.tuples fun u hu => ?_
    rw [← take_keyOf r keys more, ← take_keyOf r keys more]
    exact Tuple.equal_take _ hu
  have hne : r.classOf (keys ++ more) t ≠ [] :=
    List.ne_nil_of_mem (List.mem_filter.2 ⟨ht, Tuple.equal_refl _⟩)
  cases hreduce : inner.reduce ((r.classOf keys t).map fun u => r.heading.valueAt u source) with
  | error d => exact ⟨d, rfl⟩
  | ok x =>
    obtain ⟨y, hy⟩ := hrollsUp.part (hsublist.map _) (by simpa using hne) ⟨x, hreduce⟩
    rw [hy] at he
    cases he

/-- An aggregate that can be taken in two steps has the outcome that it has in one. -/
lemma rollUp_corresponds (hrollsUp : RollsUp inner outer r.size) (hkeys : keys ⊆ r.heading)
    (hmore : more ⊆ r.heading) (hsource : source ∈ r.heading) (houtput : output ∉ keys ++ more) :
    EqualOrFail (r.rollUp keys more inner outer source output)
      (r.groupBy keys [⟨⟨inner, source⟩, output⟩]) := by
  have hall : keys ++ more ⊆ r.heading := List.append_subset.2 ⟨hkeys, hmore⟩
  unfold rollUp
  cases hfine : r.groupBy (keys ++ more) [⟨⟨inner, source⟩, output⟩] with
  | error e =>
    obtain ⟨t, ht, a, ha, d, hd⟩ := (exists_groupBy_error_iff hall).1 ⟨e, hfine⟩
    obtain rfl := List.mem_singleton.1 ha
    obtain ⟨d', hd'⟩ := reduceClass_error_of_part hrollsUp hsource ht hd
    obtain ⟨e', he'⟩ := (exists_groupBy_error_iff hkeys).2 ⟨t, ht, _, ha, d', hd'⟩
    rw [he']
    exact .error trivial
  | ok fine =>
    obtain ⟨hheading, hrows⟩ := rowsOfParts hall hsource houtput hfine
    have hfineKeys : keys ⊆ fine.heading := by
      rw [hheading, List.append_assoc]
      exact List.subset_append_left _ _
    have hfineOutput : output ∈ fine.heading := by
      rw [hheading]
      exact List.mem_append_right _ (List.mem_singleton_self output)
    have hgroups := List.forall₂_map_right_iff.1 (List.forall₂_map_left_iff.1
      (matching_keys hrows))
    have hmatching : Corresponds Matching (fun _ _ => True)
        ((fine.groupsBy keys).mapM (groupRow fine.heading [⟨⟨outer, output⟩, output⟩]))
        ((r.groupsBy keys).mapM (groupRow r.heading [⟨⟨inner, source⟩, output⟩])) := by
      refine Corresponds.mapM ((forall₂_with_mem hgroups).imp ?_)
      rintro coarse group ⟨hcoarse, hgroup, hkey⟩
      exact groupRow_corresponds_of_parts hrollsUp hsource hfineOutput hrows hcoarse hgroup hkey
    rw [ok_bind, groupBy_eq hfineKeys, groupBy_eq hkeys]
    exact hmatching.map fun coarse direct hmatch =>
      equal_iff_matching.2 ⟨rfl, Matching.ofList hmatch⟩

/-- Grouping rolls up: least values, greatest values and counts can be taken over the groups by some
attributes and more, and then over the results, with the outcome that they have over the groups by
the first attributes. -/
theorem groupBy_rollUp (hkeys : keys ⊆ r.heading) (hmore : more ⊆ r.heading)
    (hsource : source ∈ r.heading) (houtput : output ∉ keys ++ more) :
    EqualOrFail (r.rollUp keys more .min .min source output)
        (r.groupBy keys [⟨⟨.min, source⟩, output⟩]) ∧
      EqualOrFail (r.rollUp keys more .max .max source output)
        (r.groupBy keys [⟨⟨.max, source⟩, output⟩]) ∧
      (r.size < 2 ^ 63 →
        EqualOrFail (r.rollUp keys more .count .sum source output)
          (r.groupBy keys [⟨⟨.count, source⟩, output⟩])) :=
  ⟨rollUp_corresponds (AggregateKind.rollsUp_min _) hkeys hmore hsource houtput,
    rollUp_corresponds (AggregateKind.rollsUp_max _) hkeys hmore hsource houtput,
    fun hsize => rollUp_corresponds (AggregateKind.rollsUp_count hsize) hkeys hmore hsource houtput⟩

/-- The least of `3.0` and `3` is the one that comes first, which in two steps is `3` and in one is
`3.0`; a single null is the least value of its group.  If a null and a number come from different
groups of the first step, the second one fails, and so does grouping in one step. -/
theorem groupBy_rollUp_of_two_forms :
    let a : Attribute := .name "a"
    let b : Attribute := .name "b"
    let c : Attribute := .name "c"
    let v : Attribute := .name "v"
    let m : Attribute := .name "m"
    let three : Scalar := .float (Binary64.ofInt 3)
    let r : Relation := ⟨[a, c, b, v],
      [[.int 1, .int 1, .text "y", three], [.int 1, .int 2, .text "x", .int 3],
       [.int 2, .int 1, .text "x", .null]]⟩
    let s : Relation := ⟨[a, b, v], [[.int 1, .text "x", .null], [.int 1, .text "y", .int 5]]⟩
    let least : Relation := ⟨[a, m], [[.int 1, .int 3], [.int 2, .null]]⟩
    let counts : Relation := ⟨[a, m], [[.int 1, .int 2], [.int 2, .int 1]]⟩
    (r.WellFormed ∧ [a] ⊆ r.heading ∧ [b] ⊆ r.heading ∧ v ∈ r.heading ∧ m ∉ [a] ++ [b] ∧
      r.size < 2 ^ 63) ∧
      (r.rollUp [a] [b] .min .min v m = .ok least ∧
        ∃ u, r.groupBy [a] [⟨⟨.min, v⟩, m⟩] = .ok u ∧ least.equal u = true ∧ least ≠ u) ∧
      (r.rollUp [a] [b] .count .sum v m = .ok counts ∧
        ∃ u, r.groupBy [a] [⟨⟨.count, v⟩, m⟩] = .ok u ∧ counts.equal u = true) ∧
      (s.WellFormed ∧ (∃ fine, s.groupBy [a, b] [⟨⟨.max, v⟩, m⟩] = .ok fine) ∧
        s.rollUp [a] [b] .max .max v m = .error (.typeMismatch "max" .int .null) ∧
        ∃ e, s.groupBy [a] [⟨⟨.max, v⟩, m⟩] = .error e) := by
  intro a b c v m three r s least counts
  have hleast : r.rollUp [a] [b] .min .min v m = .ok least := by decide +kernel
  have hcounts : r.rollUp [a] [b] .count .sum v m = .ok counts := by decide +kernel
  have hfails : s.rollUp [a] [b] .max .max v m = .error (.typeMismatch "max" .int .null) := by
    decide +kernel
  have hdirect : r.groupBy [a] [⟨⟨.min, v⟩, m⟩] ≠ .ok least := by decide +kernel
  have hfine : s.groupBy [a, b] [⟨⟨.max, v⟩, m⟩] =
      .ok ⟨[a, b, m], [[.int 1, .text "x", .null], [.int 1, .text "y", .int 5]]⟩ := by
    decide +kernel
  have hr : [a] ⊆ r.heading ∧ [b] ⊆ r.heading ∧ v ∈ r.heading ∧ m ∉ [a] ++ [b] := by decide
  have hs : [a] ⊆ s.heading ∧ [b] ⊆ s.heading ∧ v ∈ s.heading := by decide
  have hsize : r.size < 2 ^ 63 := by decide
  obtain ⟨hmin, -, hcount⟩ := groupBy_rollUp hr.1 hr.2.1 hr.2.2.1 hr.2.2.2
  obtain ⟨-, hmax, -⟩ := groupBy_rollUp hs.1 hs.2.1 hs.2.2 hr.2.2.2
  have hcount := hcount hsize
  rw [hleast] at hmin
  rw [hcounts] at hcount
  rw [hfails] at hmax
  obtain ⟨u, hu, hequal⟩ := hmin.exists_ok
  obtain ⟨e, he, -⟩ := hmax.exists_error
  refine ⟨⟨by decide +kernel, hr.1, hr.2.1, hr.2.2.1, hr.2.2.2, hsize⟩, ⟨hleast, u, hu, hequal, ?_⟩,
    ⟨hcounts, hcount.exists_ok⟩, by decide +kernel, ⟨_, hfine⟩, hfails, e, he⟩
  rintro rfl
  exact hdirect hu

end RelationalAlgebra.Relation
