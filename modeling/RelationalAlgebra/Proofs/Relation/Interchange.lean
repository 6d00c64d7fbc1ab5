import RelationalAlgebra.Proofs.Aggregate.Matching
import RelationalAlgebra.Proofs.Fingerprint.Relations
import RelationalAlgebra.Relation.Join

/-!
# Equal relations are interchangeable

Which of two equal scalars a relation holds depends on how it was made: a set keeps the last of
equal rows, and a group shows the values of its first tuple.  So equal relations really hold
different data.  The operations that are given no condition look at their tuples only through the
order, and none of them can tell equal relations apart: they fail together, and their results are
equal again.

Each operation makes its set from rows, and the rows made from equal relations match.  For groups,
the invariant is that their keys are equal and that their members match, which the addition of
one more pair of equal tuples keeps.  An aggregate over a group may fail with an error that names
the kinds of the values, so the errors of grouping are only of one sort.
-/

namespace RelationalAlgebra.Relation

open TupleSet (Matching)

/-- Two outcomes are equal relations, or the same error. -/
abbrev SameOutcome : Except Error Relation → Except Error Relation → Prop :=
  Corresponds (fun u v => u.equal v = true) (· = ·)

/-- Two outcomes are equal relations, or both are errors. -/
abbrev EqualOrFail : Except Error Relation → Except Error Relation → Prop :=
  Corresponds (fun u v => u.equal v = true) fun _ _ => True

variable {r r' s s' : Relation}

/-- Two relations are equal if they have one heading and their tuples match. -/
lemma equal_iff_matching :
    r.equal s = true ↔ r.heading = s.heading ∧ Matching r.tuples s.tuples := by
  simp only [equal_iff_forall₂, Matching, Tuple.equal_iff_forall₂]

/-! ## Sets of rows -/

/-- Rows that match are checked against a heading with one outcome. -/
lemma ensureArity_eq_of_matching (heading : Heading) {rows rows' : List Tuple}
    (h : Matching rows rows') : ensureArity heading rows = ensureArity heading rows' := by
  unfold ensureArity
  induction h with
  | nil => rfl
  | @cons t u rows rows' htu _ ih =>
    rw [List.find?_cons, List.find?_cons, Tuple.length_eq_of_equal htu]
    cases u.length != heading.length with
    | true => simp only [Tuple.length_eq_of_equal htu]
    | false => exact ih

/-- The relations of the sets of rows that match are equal. -/
lemma ofSet_interchange (heading : Heading) {rows rows' : List Tuple} (h : Matching rows rows') :
    SameOutcome (ofSet heading (TupleSet.ofList rows)) (ofSet heading (TupleSet.ofList rows')) := by
  unfold ofSet
  rw [ensureArity_eq_of_matching heading h.ofList]
  cases ensureArity heading (TupleSet.ofList rows') with
  | ok _ => exact .ok (equal_iff_matching.2 ⟨rfl, h.ofList⟩)
  | error _ => exact .error rfl

/-! ## Columns -/

/-- Renaming the columns of equal relations gives equal relations. -/
lemma rename_interchange (hr : r.equal r' = true) (heading : Heading) :
    SameOutcome (r.rename heading) (r'.rename heading) := by
  obtain ⟨hheading, hrows⟩ := equal_iff_matching.1 hr
  unfold rename
  rw [arity, arity, hheading]
  by_cases hlength : heading.length = r'.heading.length
  · rw [if_pos hlength, if_pos hlength]
    exact .ok (equal_iff_matching.2 ⟨rfl, hrows⟩)
  · rw [if_neg hlength, if_neg hlength]
    exact .error rfl

/-- Projections of equal relations are equal, whatever tuples have become one in them. -/
lemma project_interchange (hr : r.equal r' = true) (attrs : List Attribute) :
    SameOutcome (r.project attrs) (r'.project attrs) := by
  obtain ⟨hheading, hrows⟩ := equal_iff_matching.1 hr
  unfold project
  rw [hheading]
  cases r'.heading.positions attrs with
  | ok positions =>
    have hpicked : Matching (r.tuples.map (Tuple.pick positions))
        (r'.tuples.map (Tuple.pick positions)) :=
      hrows.map fun _ _ htu => Tuple.equal_pick positions htu
    exact .ok (equal_iff_matching.2 ⟨rfl, hpicked.ofList⟩)
  | error _ => exact .error rfl

/-! ## Products and Boolean operations -/

/-- Products of equal relations are equal. -/
lemma cross_interchange (hr : r.equal r' = true) (hs : s.equal s' = true) :
    SameOutcome (r.cross s) (r'.cross s') := by
  obtain ⟨hleft, hrows⟩ := equal_iff_matching.1 hr
  obtain ⟨hright, hothers⟩ := equal_iff_matching.1 hs
  have hpairs : Matching (r.tuples.flatMap fun t => s.tuples.map fun u => t ++ u)
      (r'.tuples.flatMap fun t => s'.tuples.map fun u => t ++ u) :=
    List.rel_flatMap hrows fun t t' ht =>
      hothers.map fun u u' hu => Tuple.equal_append_of_equal ht hu
  unfold cross
  rw [hleft, hright]
  cases Heading.ensureDisjoint r'.heading s'.heading with
  | ok _ => exact ofSet_interchange _ hpairs
  | error _ => exact .error rfl

/-- An operation that makes a set of rows after it has compared the headings does not tell equal
relations apart if the rows match. -/
lemma ensureSame_ofSet_interchange (hr : r.equal r' = true) (hs : s.equal s' = true)
    {rows rows' : List Tuple} (h : Matching rows rows') :
    SameOutcome
      (Heading.ensureSame r.heading s.heading >>= fun _ =>
        ofSet r.heading (TupleSet.ofList rows))
      (Heading.ensureSame r'.heading s'.heading >>= fun _ =>
        ofSet r'.heading (TupleSet.ofList rows')) := by
  rw [(equal_iff_matching.1 hr).1, (equal_iff_matching.1 hs).1]
  cases Heading.ensureSame r'.heading s'.heading with
  | ok _ => exact ofSet_interchange _ h
  | error _ => exact .error rfl

/-- Equal relations contain equal tuples together. -/
lemma contains_interchange (hr : r.equal r' = true) {t t' : Tuple}
    (ht : Tuple.equal t t' = true) : r.contains t = r'.contains t' :=
  (equal_iff_matching.1 hr).2.contains_eq ht

/-- Unions of equal relations are equal. -/
lemma union_interchange (hr : r.equal r' = true) (hs : s.equal s' = true) :
    SameOutcome (r.union s) (r'.union s') :=
  ensureSame_ofSet_interchange hr hs
    (List.rel_append (equal_iff_matching.1 hr).2 (equal_iff_matching.1 hs).2)

/-- Intersections of equal relations are equal. -/
lemma intersection_interchange (hr : r.equal r' = true) (hs : s.equal s' = true) :
    SameOutcome (r.intersection s) (r'.intersection s') :=
  ensureSame_ofSet_interchange hr hs
    ((equal_iff_matching.1 hr).2.filter fun _ _ ht => contains_interchange hs ht)

/-- Differences of equal relations are equal. -/
lemma difference_interchange (hr : r.equal r' = true) (hs : s.equal s' = true) :
    SameOutcome (r.difference s) (r'.difference s') :=
  ensureSame_ofSet_interchange hr hs
    ((equal_iff_matching.1 hr).2.filter fun _ _ ht => congrArg not (contains_interchange hs ht))

/-! ## Groups -/

/-- Two groups match if their keys are equal and their members match. -/
structure Group.Alike (group group' : Group) : Prop where
  key_equal : Tuple.equal group.key group'.key = true
  members_matching : Matching group.members group'.members

/-- Adding equal tuples to groups that are alike keeps them so. -/
lemma addToGroup_alike {key key' t t' : Tuple} (hkey : Tuple.equal key key' = true)
    (ht : Tuple.equal t t' = true) {found found' : List Group}
    (h : List.Forall₂ Group.Alike found found') :
    List.Forall₂ Group.Alike (addToGroup key t found) (addToGroup key' t' found') := by
  have hnew : Group.Alike ⟨key, [t]⟩ ⟨key', [t']⟩ := ⟨hkey, .cons ht .nil⟩
  induction h with
  | nil => exact .cons hnew .nil
  | @cons old old' rest rest' hold hrest ih =>
    unfold addToGroup
    rw [Tuple.compare_congr hkey hold.key_equal]
    cases Tuple.compare key' old'.key with
    | lt => exact .cons hnew (.cons hold hrest)
    | eq => exact .cons ⟨hkey, .cons ht hold.members_matching⟩ hrest
    | gt => exact .cons hold ih

/-- The groups of tuples that match are alike. -/
theorem groups_alike (positions : List Nat) {rows rows' : List Tuple} (h : Matching rows rows') :
    List.Forall₂ Group.Alike (groups positions rows) (groups positions rows') := by
  induction h with
  | nil => exact .nil
  | cons htu _ ih => exact addToGroup_alike (Tuple.equal_pick positions htu) htu ih

/-- Groups that are alike have equal rows, or none for reasons of one sort. -/
lemma groupRow_interchange (heading : Heading) {aggregations : List Aggregation}
    (hkinds : ∀ a ∈ aggregations, a.aggregate.kind ∈ [.count, .min, .max])
    {group group' : Group} (h : group.Alike group') :
    Corresponds (fun t u => Tuple.equal t u = true) Error.SameKind
      (groupRow heading aggregations group) (groupRow heading aggregations group') := by
  have hresults : Corresponds EqualValues Error.SameKind
      (aggregations.mapM fun a => a.aggregate.apply (group.members.map (Record.mk heading)))
      (aggregations.mapM fun a => a.aggregate.apply (group'.members.map (Record.mk heading))) :=
    Corresponds.mapM (List.forall₂_same.2 fun a ha =>
      a.aggregate.apply_corresponds (hkinds a ha) heading h.members_matching)
  refine hresults.bind fun results results' hequal => ?_
  exact .ok (Tuple.equal_append_of_equal h.key_equal (Tuple.equal_iff_forall₂.2 hequal))

/-- Equal relations are grouped into equal relations, or cannot be grouped for reasons of one
sort, as long as the aggregates only count and compare. -/
theorem groupBy_interchange (hr : r.equal r' = true) (keys : List Attribute)
    {aggregations : List Aggregation}
    (hkinds : ∀ a ∈ aggregations, a.aggregate.kind ∈ [.count, .min, .max]) :
    Corresponds (fun u v => u.equal v = true) Error.SameKind (r.groupBy keys aggregations)
      (r'.groupBy keys aggregations) := by
  obtain ⟨hheading, hrows⟩ := equal_iff_matching.1 hr
  unfold groupBy
  rw [hheading]
  cases r'.heading.positions keys with
  | error _ => exact .error rfl
  | ok positions =>
    have hgroups : Corresponds Matching Error.SameKind
        ((groups positions r.tuples).mapM (groupRow r'.heading aggregations))
        ((groups positions r'.tuples).mapM (groupRow r'.heading aggregations)) :=
      Corresponds.mapM ((groups_alike positions hrows).imp fun _ _ halike =>
        groupRow_interchange r'.heading hkinds halike)
    exact hgroups.bind fun _ _ hmatching =>
      .ok (equal_iff_matching.2 ⟨rfl, hmatching.ofList⟩)

/-! ## All operations -/

/-- Equal relations are interchangeable in all operations that look at values through the order
alone: on them, these fail together and return equal results. -/
theorem equal_interchangeable (hr : r.equal r' = true) (hs : s.equal s' = true) :
    (∀ heading, SameOutcome (r.rename heading) (r'.rename heading)) ∧
      (∀ attrs, SameOutcome (r.project attrs) (r'.project attrs)) ∧
      SameOutcome (r.cross s) (r'.cross s') ∧ SameOutcome (r.union s) (r'.union s') ∧
      SameOutcome (r.intersection s) (r'.intersection s') ∧
      SameOutcome (r.difference s) (r'.difference s') ∧
      (∀ t t', Tuple.equal t t' = true → r.contains t = r'.contains t') ∧ r.size = r'.size ∧
      r.fingerprint = r'.fingerprint ∧
      ∀ keys aggregations,
        (∀ a ∈ aggregations, a.aggregate.kind ∈ [.count, .min, .max]) →
          Corresponds (fun u v => u.equal v = true) Error.SameKind (r.groupBy keys aggregations)
            (r'.groupBy keys aggregations) := by
  refine ⟨rename_interchange hr, project_interchange hr, cross_interchange hr hs,
    union_interchange hr hs, intersection_interchange hr hs, difference_interchange hr hs,
    fun _ _ => contains_interchange hr, (equal_iff_matching.1 hr).2.length_eq, ?_, ?_⟩
  · rw [fingerprint, fingerprint, relationBytes_eq_of_equal hr]
  · exact fun keys _ hkinds => groupBy_interchange hr keys hkinds

/-- Two relations that are equal and not the same: their projections show different scalars, and
the errors of a search for the least value name different kinds. -/
theorem equal_interchangeable_of_integers_and_floats :
    let a : Attribute := .name "a"
    let b : Attribute := .name "b"
    let least : Aggregation := ⟨⟨.min, b⟩, .name "least"⟩
    let r : Relation := ⟨[a, b], [[.int 0, .int 1], [.int 0, .text "x"]]⟩
    let s : Relation :=
      ⟨[a, b], [[.int 0, .float (Binary64.ofInt 1)], [.float (Binary64.zero true), .text "x"]]⟩
    r.equal s = true ∧
      (r.project [a] ≠ s.project [a] ∧ SameOutcome (r.project [a]) (s.project [a])) ∧
      r.groupBy [a] [least] ≠ s.groupBy [a] [least] ∧
        Corresponds (fun u v => u.equal v = true) Error.SameKind (r.groupBy [a] [least])
          (s.groupBy [a] [least]) := by
  intro a b least r s
  have hequal : r.equal s = true := by decide +kernel
  obtain ⟨-, hproject, -, -, -, -, -, -, -, hgroupBy⟩ := equal_interchangeable hequal hequal
  have hkinds : ∀ a ∈ [least], a.aggregate.kind ∈ [.count, .min, .max] := by decide
  have hgrouped := hgroupBy [a] [least] hkinds
  exact ⟨hequal, ⟨by decide +kernel, hproject [a]⟩, by decide +kernel, hgrouped⟩

end RelationalAlgebra.Relation
