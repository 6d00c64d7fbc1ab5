import RelationalAlgebra.Proofs.Relabel.Conditions
import RelationalAlgebra.Proofs.Relation.NaturalJoin
import RelationalAlgebra.Relation.Operations

/-!
# Operations on relations under other names

Each operation treats relations under other names as it treats them under their own: it makes the
same tuples, under the heading with the other names.  What it makes of the tuples depends on the
positions of the attributes alone, and these stay as they are.

The natural join marks attributes of its own accord, and a map on attributes may well take a
qualifier `left` for something else.  But the marks are the outermost qualifiers, and below them
the map acts as it does without them (`Attribute.underMark`).  So the marked relations correspond,
too, and no marked name is captured by another one.
-/

namespace RelationalAlgebra

namespace Attribute

/-- A map on attributes, applied below the outermost qualifier. -/
def underMark (f : Attribute → Attribute) : Attribute → Attribute
  | .name text => .name text
  | .qualified qualifier inner => .qualified qualifier (f inner)

/-- Different attributes stay different if different ones do below the outermost qualifier. -/
lemma underMark_injective {f : Attribute → Attribute} (hf : Function.Injective f) :
    Function.Injective (underMark f) := by
  intro a b h
  cases a with
  | name text =>
    cases b with
    | name other => exact h
    | qualified qualifier inner => cases h
  | qualified qualifier inner =>
    cases b with
    | name other => cases h
    | qualified other inner' =>
      obtain ⟨rfl, hinner⟩ := Attribute.qualified.inj h
      rw [hf hinner]

end Attribute

namespace Relation

/-- A relation whose columns have other names. -/
def relabel (f : Attribute → Attribute) (r : Relation) : Relation :=
  ⟨r.heading.map f, r.tuples⟩

/-- Other names do not change whether the tuples of a relation are a set that fits its heading. -/
lemma WellFormed.relabel {r : Relation} (h : r.WellFormed) (f : Attribute → Attribute) :
    (r.relabel f).WellFormed :=
  ⟨fun t ht => (h.1 t ht).trans (List.length_map f).symm, h.2⟩

/-- Two outcomes are one relation under two sets of names, or one error. -/
abbrev SameTuples (f : Attribute → Attribute) :
    Except Error Relation → Except Error Relation → Prop :=
  Relabelled f fun u v => v = u.relabel f

variable {f : Attribute → Attribute}

/-! ## Renaming and sets of rows -/

/-- Renaming checks the length of the new heading alone. -/
lemma rename_relabelled (r : Relation) (heading : Heading) :
    SameTuples f (r.rename heading) ((r.relabel f).rename (heading.map f)) := by
  unfold rename
  rw [arity, arity, relabel, List.length_map, List.length_map]
  by_cases hlength : heading.length = r.heading.length
  · rw [if_pos hlength, if_pos hlength]
    exact .ok rfl
  · rw [if_neg hlength, if_neg hlength]
    exact .error rfl

/-- Rows are checked against a heading by their lengths alone. -/
lemma ensureArity_relabelled (heading : Heading) (rows : List Tuple) :
    Relabelled f (fun _ _ => True) (ensureArity heading rows)
      (ensureArity (heading.map f) rows) := by
  unfold ensureArity
  rw [List.length_map]
  cases rows.find? fun t => t.length != heading.length with
  | some t => exact .error rfl
  | none => exact .ok trivial

/-- A set of tuples fits a heading under other names if it did before. -/
lemma ofSet_relabelled (heading : Heading) (set : List Tuple) :
    SameTuples f (ofSet heading set) (ofSet (heading.map f) set) :=
  (ensureArity_relabelled heading set).bind fun _ _ _ => .ok rfl

/-- The relation with one tuple of nulls holds it under all names. -/
lemma nulls_relabelled (heading : Heading) :
    SameTuples f (nulls heading) (nulls (heading.map f)) := by
  unfold nulls
  rw [List.length_map]
  exact (ensureArity_relabelled heading _).bind fun _ _ _ => .ok rfl

/-! ## Operations on one relation -/

section

variable (hf : Function.Injective f)
include hf

/-- A projection reads the same positions under other names. -/
lemma project_relabelled (r : Relation) (attrs : List Attribute) :
    SameTuples f (r.project attrs) ((r.relabel f).project (attrs.map f)) :=
  (Heading.positions_relabelled hf r.heading attrs).bind fun positions positions' h =>
    .ok (by rw [h]; rfl)

/-- A selection keeps the same tuples under other names. -/
lemma satisfying_relabelled (heading : Heading) (predicate : Predicate) (tuples : List Tuple) :
    Relabelled f (· = ·) (satisfying heading predicate tuples)
      (satisfying (heading.map f) (predicate.relabel f) tuples) := by
  induction tuples with
  | nil => exact .ok rfl
  | cons t rest ih =>
    unfold satisfying
    refine (predicate.eval_relabelled hf ⟨heading, t⟩).bind fun keep keep' hkeep => ?_
    exact ih.bind fun kept kept' hkept => .ok (by rw [hkeep, hkept])

/-- Selecting by a predicate that refers to other names. -/
lemma select_relabelled (r : Relation) (predicate : Predicate) :
    SameTuples f (r.select predicate) ((r.relabel f).select (predicate.relabel f)) :=
  (satisfying_relabelled hf r.heading predicate r.tuples).bind fun kept kept' h =>
    .ok (by rw [h]; rfl)

/-- A group has one row under all names. -/
lemma groupRow_relabelled (heading : Heading) (aggregations : List Aggregation) (group : Group) :
    Relabelled f (· = ·) (groupRow heading aggregations group)
      (groupRow (heading.map f) (aggregations.map (Aggregation.relabel f)) group) := by
  have hrecords : group.members.map (Record.mk (heading.map f)) =
      (group.members.map (Record.mk heading)).map (Record.relabel f) := by
    rw [List.map_map]
    rfl
  unfold groupRow
  rw [hrecords]
  have hresults : Relabelled f (· = ·)
      (aggregations.mapM fun a => a.aggregate.apply (group.members.map (Record.mk heading)))
      ((aggregations.map (Aggregation.relabel f)).mapM fun a =>
        a.aggregate.apply ((group.members.map (Record.mk heading)).map (Record.relabel f))) :=
    Corresponds.mapM_map fun a _ => a.aggregate.apply_relabelled hf _
  exact hresults.bind fun results results' h => .ok (by rw [h])

/-- Grouping by attributes of other names. -/
lemma groupBy_relabelled (r : Relation) (keys : List Attribute) (aggregations : List Aggregation) :
    SameTuples f (r.groupBy keys aggregations)
      ((r.relabel f).groupBy (keys.map f) (aggregations.map (Aggregation.relabel f))) := by
  refine (Heading.positions_relabelled hf r.heading keys).bind fun positions positions' h => ?_
  have hrows : Relabelled f (· = ·)
      ((groups positions r.tuples).mapM (groupRow r.heading aggregations))
      (((groups positions r.tuples).map id).mapM
        (groupRow (r.heading.map f) (aggregations.map (Aggregation.relabel f)))) :=
    Corresponds.mapM_map fun group _ => groupRow_relabelled hf r.heading aggregations group
  rw [List.map_id] at hrows
  rw [← h]
  refine hrows.bind fun rows rows' hequal => .ok ?_
  rw [relabel, List.map_append, List.map_map, List.map_map, hequal]
  rfl

/-! ## Operations on two relations -/

/-- A product under other names. -/
lemma cross_relabelled (r s : Relation) :
    SameTuples f (r.cross s) ((r.relabel f).cross (s.relabel f)) := by
  refine (Heading.ensureDisjoint_relabelled hf r.heading s.heading).bind fun _ _ _ => ?_
  rw [relabel, relabel, ← List.map_append]
  exact ofSet_relabelled _ _

/-- An operation that makes a set of tuples after it has compared the headings does the same under
other names. -/
lemma ensureSame_ofSet_relabelled (r s : Relation) (set : List Tuple) :
    SameTuples f
      (Heading.ensureSame r.heading s.heading >>= fun _ => ofSet r.heading set)
      (Heading.ensureSame (r.heading.map f) (s.heading.map f) >>= fun _ =>
        ofSet (r.heading.map f) set) :=
  (Heading.ensureSame_relabelled hf r.heading s.heading).bind fun _ _ _ => ofSet_relabelled _ _

/-- A union under other names. -/
lemma union_relabelled (r s : Relation) :
    SameTuples f (r.union s) ((r.relabel f).union (s.relabel f)) :=
  ensureSame_ofSet_relabelled hf r s _

/-- An intersection under other names. -/
lemma intersection_relabelled (r s : Relation) :
    SameTuples f (r.intersection s) ((r.relabel f).intersection (s.relabel f)) :=
  ensureSame_ofSet_relabelled hf r s _

/-- A difference under other names. -/
lemma difference_relabelled (r s : Relation) :
    SameTuples f (r.difference s) ((r.relabel f).difference (s.relabel f)) :=
  ensureSame_ofSet_relabelled hf r s _

/-- An inner join on columns of other names. -/
lemma innerJoin_relabelled (r s : Relation) (pairs : List JoinPair) :
    SameTuples f (r.innerJoin s pairs)
      ((r.relabel f).innerJoin (s.relabel f) (pairs.map (Prod.map f f))) := by
  refine (cross_relabelled hf r s).bind fun product product' h => ?_
  rw [h, ← Predicate.relabel_equations]
  exact select_relabelled hf product _

/-- An outer join on columns of other names: so is each of the operations that it is made of. -/
lemma leftOuterJoin_relabelled (r s : Relation) (pairs : List JoinPair) :
    SameTuples f (r.leftOuterJoin s pairs)
      ((r.relabel f).leftOuterJoin (s.relabel f) (pairs.map (Prod.map f f))) := by
  refine (innerJoin_relabelled hf r s pairs).bind fun joined joined' hjoined => ?_
  rw [hjoined]
  refine (project_relabelled hf joined r.heading).bind fun matched matched' hmatched => ?_
  rw [hmatched]
  refine (difference_relabelled hf r matched).bind fun unmatched unmatched' hunmatched => ?_
  rw [hunmatched]
  refine (nulls_relabelled s.heading).bind fun padding padding' hpadding => ?_
  rw [hpadding]
  refine (cross_relabelled hf unmatched padding).bind fun padded padded' hpadded => ?_
  rw [hpadded]
  exact union_relabelled hf joined padded

/-! ## The natural join -/

omit hf in
/-- The marked heading under other names. -/
lemma markedHeading_map (left right : Heading) :
    markedHeading (left.map f) (right.map f) =
      (markedHeading left right).map (Attribute.underMark f) := by
  simp only [markedHeading, List.map_append, List.map_map]
  rfl

/-- The columns that are shown, under other names. -/
lemma shownColumns_map (left right : Heading) :
    shownColumns (left.map f) (right.map f) =
      (shownColumns left right).map (Attribute.underMark f) := by
  simp only [shownColumns, Heading.without_map hf, List.map_append, List.map_map]
  rfl

/-- The equations between the shared columns, under other names. -/
lemma sharedEquations_map (left right : Heading) :
    sharedEquations (left.map f) (right.map f) =
      (sharedEquations left right).map
        (Prod.map (Attribute.underMark f) (Attribute.underMark f)) := by
  simp only [sharedEquations, Heading.shared_map hf, List.map_map]
  rfl

/-- A tuple has agreeing values in the columns of other names. -/
lemma agreeing_map (heading : Heading) (pairs : List JoinPair) (t : Tuple) :
    agreeing (heading.map f) (pairs.map (Prod.map f f)) t = agreeing heading pairs t := by
  simp only [agreeing, List.all_map, Function.comp_def, Prod.map_fst, Prod.map_snd,
    Heading.valueAt_map hf]

/-- The pairs of tuples that agree are the same under other names. -/
lemma agreeingPairs_relabel (r s : Relation) :
    agreeingPairs (r.relabel f) (s.relabel f) =
      (agreeingPairs r s).relabel (Attribute.underMark f) := by
  have hmark := Attribute.underMark_injective hf
  simp only [agreeingPairs, relabel, markedHeading_map, sharedEquations_map hf]
  refine congrArg (Relation.mk _) (List.filter_congr fun v _ => ?_)
  exact agreeing_map hmark (markedHeading r.heading s.heading) _ v

/-- A natural join under other names, whatever these have to do with the marks. -/
theorem naturalJoin_relabelled {r s : Relation} (hr : r.WellFormed) (hs : s.WellFormed) :
    SameTuples f (r.naturalJoin s) ((r.relabel f).naturalJoin (s.relabel f)) := by
  have hmark := Attribute.underMark_injective hf
  have hshared : Heading.shared (r.relabel f).heading (s.relabel f).heading =
      (Heading.shared r.heading s.heading).map f := Heading.shared_map hf r.heading s.heading
  by_cases hnone : Heading.shared r.heading s.heading = []
  · have hnone' : Heading.shared (r.relabel f).heading (s.relabel f).heading = [] := by
      rw [hshared]
      exact List.map_eq_nil_iff.2 hnone
    rw [naturalJoin_of_shared_eq_nil hnone, naturalJoin_of_shared_eq_nil hnone']
    exact .error rfl
  · have hsome : Heading.shared (r.relabel f).heading (s.relabel f).heading ≠ [] := by
      rw [hshared]
      exact mt List.map_eq_nil_iff.1 hnone
    rw [naturalJoin_eq hr hs hnone, naturalJoin_eq (hr.relabel f) (hs.relabel f) hsome,
      agreeingPairs_relabel hf]
    refine .ok ?_
    simp only [relabel, naturalHeading, shownColumns_map hf, Heading.without_map hf,
      List.map_append, List.map_map, Function.comp_def, Heading.valueAt_map hmark]

end

end Relation

end RelationalAlgebra
