import Mathlib.Data.Sym.Sym2
import RelationalAlgebra.Proofs.Aggregate.Matching
import RelationalAlgebra.Proofs.Operator.Deferred
import RelationalAlgebra.Proofs.Scalar.Agreement

/-!
# Joins with their operands exchanged

The equations of a join are a list of ordered pairs, but only the set of the unordered pairs
matters: values agree in either order, and a conjunction does not depend on the order of its parts
or on how often they occur.  To exchange the operands puts every concatenation the other way round,
under a heading in which every name stands for the value that it stood for before.

A join looks up the columns of its equations only if there is a pair of tuples to test
(`Relation.Testable`), and this does not depend on the order of the operands either.  Main
statement: a join and the join with exchanged operands and rearranged equations have results
together, and these are the same up to the order of the columns.
-/

namespace RelationalAlgebra

/-! ## Unordered equations -/

/-- The equations of a list, as a set of pairs without an order of their sides. -/
def JoinPair.unordered (pairs : List JoinPair) : Finset (Sym2 Attribute) :=
  (pairs.map fun pair => s(pair.1, pair.2)).toFinset

namespace JoinPair

variable {pairs pairs' : List JoinPair}

/-- Two columns are equated if one of the equations has them as its sides. -/
lemma mk_mem_unordered {a b : Attribute} :
    s(a, b) ∈ unordered pairs ↔ (a, b) ∈ pairs ∨ (b, a) ∈ pairs := by
  rw [unordered, List.mem_toFinset, List.mem_map]
  constructor
  · rintro ⟨pair, hpair, hsides⟩
    rcases Sym2.eq_iff.1 hsides with ⟨rfl, rfl⟩ | ⟨rfl, rfl⟩
    · exact .inl hpair
    · exact .inr hpair
  · rintro (hpair | hpair)
    · exact ⟨(a, b), hpair, rfl⟩
    · exact ⟨(b, a), hpair, Sym2.eq_swap⟩

/-- The columns of equations are those that are equated with some column. -/
lemma mem_columns_iff {a : Attribute} :
    a ∈ columns pairs ↔ ∃ b, s(a, b) ∈ unordered pairs := by
  simp only [columns, List.mem_flatMap, List.mem_cons, List.not_mem_nil, or_false,
    mk_mem_unordered]
  constructor
  · rintro ⟨pair, hpair, rfl | rfl⟩
    · exact ⟨pair.2, .inl hpair⟩
    · exact ⟨pair.1, .inr hpair⟩
  · rintro ⟨b, hpair | hpair⟩
    · exact ⟨(a, b), hpair, .inl rfl⟩
    · exact ⟨(b, a), hpair, .inr rfl⟩

/-- The same unordered equations are about the same columns. -/
lemma columns_subset_iff {heading : Heading} (h : unordered pairs = unordered pairs') :
    columns pairs ⊆ heading ↔ columns pairs' ⊆ heading := by
  simp only [List.subset_def, mem_columns_iff, h]

end JoinPair

namespace Relation

variable {r s : Relation} {left right heading : Heading} {pairs pairs' : List JoinPair}

/-- Equations hold of a tuple if the values agree in any two columns that are equated. -/
lemma agreeing_iff {t : Tuple} :
    agreeing heading pairs t = true ↔ ∀ a b, s(a, b) ∈ JoinPair.unordered pairs →
      (heading.valueAt t a).agrees (heading.valueAt t b) = true := by
  rw [agreeing, List.all_eq_true]
  constructor
  · intro h a b hab
    rcases JoinPair.mk_mem_unordered.1 hab with hpair | hpair
    · exact h (a, b) hpair
    · rw [Scalar.agrees_comm]
      exact h (b, a) hpair
  · intro h pair hpair
    exact h pair.1 pair.2 (JoinPair.mk_mem_unordered.2 (.inl hpair))

/-- The same unordered equations hold of the same tuples. -/
lemma agreeing_eq_of_unordered (h : JoinPair.unordered pairs = JoinPair.unordered pairs')
    (t : Tuple) : agreeing heading pairs t = agreeing heading pairs' t := by
  rw [Bool.eq_iff_iff, agreeing_iff, agreeing_iff, h]

/-! ## Concatenations the other way round -/

/-- A name stands for the same value in a concatenation and in the concatenation the other way
round. -/
lemma valueAt_append_comm (hdisjoint : ∀ a ∈ left, a ∉ right) {t u : Tuple}
    (ht : t.length = left.length) (hu : u.length = right.length) (a : Attribute) :
    Heading.valueAt (right ++ left) (u ++ t) a = Heading.valueAt (left ++ right) (t ++ u) a := by
  by_cases hleft : a ∈ left
  · rw [Heading.valueAt_append_of_notMem (hdisjoint a hleft) hu,
      Heading.valueAt_append_of_mem hleft ht]
  · rw [Heading.valueAt_append_of_notMem hleft ht]
    by_cases hright : a ∈ right
    · rw [Heading.valueAt_append_of_mem hright hu]
    · -- A name that does not occur stands for nothing on either side.
      have hnone : ∀ {part : Heading} {v : Tuple}, a ∉ part → v.length = part.length →
          part.valueAt v a = .null := by
        intro part v ha hv
        rw [Heading.valueAt, List.idxOf_eq_length ha, ← hv, List.getD_eq_default _ _ le_rfl]
      rw [Heading.valueAt_append_of_notMem hright hu, hnone hleft ht, hnone hright hu]

/-- Equations hold of a concatenation if they hold of it the other way round. -/
lemma agreeing_append_comm (hdisjoint : ∀ a ∈ left, a ∉ right) {t u : Tuple}
    (ht : t.length = left.length) (hu : u.length = right.length) :
    agreeing (right ++ left) pairs (u ++ t) = agreeing (left ++ right) pairs (t ++ u) := by
  simp only [agreeing, valueAt_append_comm hdisjoint ht hu]

/-- The columns of a concatenation are read off it the other way round. -/
lemma map_valueAt_append_comm (hdisjoint : ∀ a ∈ left, a ∉ right) (hleft : left.Nodup)
    (hright : right.Nodup) {t u : Tuple} (ht : t.length = left.length)
    (hu : u.length = right.length) :
    (left ++ right).map (Heading.valueAt (right ++ left) (u ++ t)) = t ++ u := by
  have hnodup : (left ++ right).Nodup := hleft.append hright fun a ha ha' => hdisjoint a ha ha'
  rw [List.map_congr_left fun a _ => valueAt_append_comm hdisjoint ht hu a]
  refine Heading.map_valueAt_self hnodup ?_
  rw [List.length_append, List.length_append, ht, hu]

/-! ## Outcomes of joins -/

/-- The columns of some equations are there, as far as there is a pair of tuples to test. -/
def Testable (r s : Relation) (pairs : List JoinPair) : Prop :=
  r.tuples ≠ [] → s.tuples ≠ [] → JoinPair.columns pairs ⊆ r.heading ++ s.heading

/-- The same unordered equations can be tested on the same relations, in either order. -/
lemma testable_comm (h : JoinPair.unordered pairs = JoinPair.unordered pairs') :
    Testable r s pairs ↔ Testable s r pairs' := by
  have hcolumns : JoinPair.columns pairs ⊆ r.heading ++ s.heading ↔
      JoinPair.columns pairs' ⊆ s.heading ++ r.heading := by
    rw [JoinPair.columns_subset_iff h]
    simp only [List.subset_def, List.mem_append, or_comm]
  unfold Testable
  rw [hcolumns]
  exact ⟨fun htest hs hr => htest hr hs, fun htest hr hs => htest hs hr⟩

/-- The same unordered equations can be tested on the same relations. -/
lemma testable_congr (h : JoinPair.unordered pairs = JoinPair.unordered pairs') :
    Testable r s pairs ↔ Testable r s pairs' :=
  (testable_comm h).trans (testable_comm rfl)

/-- The concatenations of which some equations hold. -/
def joinOf (r s : Relation) (pairs : List JoinPair) : Relation :=
  ⟨r.heading ++ s.heading, (pairings r s).filter (agreeing (r.heading ++ s.heading) pairs)⟩

/-- Equations that can be tested have a join: the concatenations of which they hold. -/
lemma innerJoin_of_testable (hr : r.WellFormed) (hs : s.WellFormed)
    (hshared : Heading.shared r.heading s.heading = []) (h : Testable r s pairs) :
    r.innerJoin s pairs = .ok (joinOf r s pairs) := by
  rw [innerJoin, cross_eq hr.over hs.over hshared, ok_bind]
  by_cases hrows : r.tuples ≠ [] ∧ s.tuples ≠ []
  · exact select_equations (h hrows.1 hrows.2)
  · have hnone : pairings r s = [] := by
      rw [List.eq_nil_iff_forall_not_mem]
      intro v hv
      obtain ⟨t, ht, u, hu, -⟩ := mem_pairings.1 hv
      exact hrows ⟨List.ne_nil_of_mem ht, List.ne_nil_of_mem hu⟩
    rw [joinOf, hnone]
    rfl

/-- Equations that cannot be tested have no join, because a column is missing. -/
lemma innerJoin_of_not_testable (hr : r.WellFormed) (hs : s.WellFormed)
    (hshared : Heading.shared r.heading s.heading = []) (h : ¬ Testable r s pairs) :
    ∃ e, r.innerJoin s pairs = .error e ∧ e.kind = .attributes := by
  cases hjoin : r.innerJoin s pairs with
  | ok joined => exact absurd ((innerJoin_found hr.over hs.over pairs).of_ok hjoin) h
  | error e =>
    refine ⟨e, rfl, ?_⟩
    rcases (innerJoin_meets hr.over hs.over pairs).of_error hjoin with hconflict | hmissing
    · exact absurd hshared hconflict.1
    · exact hmissing.kind_eq

/-- Two joins correspond if their equations can be tested together and if the results do. -/
lemma innerJoin_corresponds {r' s' : Relation} {same : Relation → Relation → Prop}
    (hr : r.WellFormed) (hs : s.WellFormed) (hr' : r'.WellFormed) (hs' : s'.WellFormed)
    (hshared : Heading.shared r.heading s.heading = [])
    (hshared' : Heading.shared r'.heading s'.heading = [])
    (htestable : Testable r s pairs ↔ Testable r' s' pairs')
    (hsame : same (joinOf r s pairs) (joinOf r' s' pairs')) :
    Corresponds same Error.SameKind (r.innerJoin s pairs) (r'.innerJoin s' pairs') := by
  by_cases h : Testable r s pairs
  · rw [innerJoin_of_testable hr hs hshared h,
      innerJoin_of_testable hr' hs' hshared' (htestable.1 h)]
    exact .ok hsame
  · obtain ⟨d, hd, hkind⟩ := innerJoin_of_not_testable hr hs hshared h
    obtain ⟨e, he, hkind'⟩ :=
      innerJoin_of_not_testable hr' hs' hshared' fun h' => h (htestable.2 h')
    rw [hd, he]
    exact .error (hkind.trans hkind'.symm)

/-! ## Exchanged operands -/

/-- The join with exchanged operands, projected to the heading of the join, is the join. -/
lemma project_joinOf (hr : r.WellFormed) (hs : s.WellFormed)
    (hdisjoint : ∀ a ∈ r.heading, a ∉ s.heading) (hleft : r.heading.Nodup)
    (hright : s.heading.Nodup) (hsame : JoinPair.unordered pairs = JoinPair.unordered pairs') :
    (joinOf s r pairs').project (r.heading ++ s.heading) = .ok (joinOf r s pairs) := by
  have hsub : r.heading ++ s.heading ⊆ s.heading ++ r.heading :=
    List.append_subset.2 ⟨List.subset_append_right _ _, List.subset_append_left _ _⟩
  have hascending : TupleSet.Ascending (joinOf r s pairs).tuples :=
    (ascending_pairings hr.over hs.over).sublist List.filter_sublist
  have hrows : TupleSet.ofList ((joinOf s r pairs').tuples.map fun v =>
      (r.heading ++ s.heading).map (Heading.valueAt (s.heading ++ r.heading) v)) =
        (joinOf r s pairs).tuples := by
    refine TupleSet.ofList_eq_of_mem_iff hascending fun v => ?_
    simp only [joinOf, List.mem_map, List.mem_filter, mem_pairings]
    constructor
    · rintro ⟨-, ⟨⟨u, hu, t, ht, rfl⟩, hagree⟩, rfl⟩
      rw [agreeing_append_comm hdisjoint (hr.1 t ht) (hs.1 u hu),
        ← agreeing_eq_of_unordered hsame] at hagree
      rw [map_valueAt_append_comm hdisjoint hleft hright (hr.1 t ht) (hs.1 u hu)]
      exact ⟨⟨t, ht, u, hu, rfl⟩, hagree⟩
    · rintro ⟨⟨t, ht, u, hu, rfl⟩, hagree⟩
      refine ⟨u ++ t, ⟨⟨u, hu, t, ht, rfl⟩, ?_⟩,
        map_valueAt_append_comm hdisjoint hleft hright (hr.1 t ht) (hs.1 u hu)⟩
      rwa [agreeing_append_comm hdisjoint (hr.1 t ht) (hs.1 u hu),
        ← agreeing_eq_of_unordered hsame]
  rw [project_eq hsub]
  exact congrArg (fun rows => Except.ok (Relation.mk (r.heading ++ s.heading) rows)) hrows

/-- The same unordered equations have the same join. -/
lemma joinOf_congr (hsame : JoinPair.unordered pairs = JoinPair.unordered pairs') :
    joinOf r s pairs = joinOf r s pairs' := by
  rw [joinOf, joinOf, funext (agreeing_eq_of_unordered hsame)]

/-- A join reads its equations as a set of unordered pairs, and does not depend on the order of its
operands but for the order of the columns: relations with disjoint headings that repeat no
attribute are joined in either order, on equations that are the same up to their order, their
number and the order of their sides, or in neither, and then the two results are one up to the
order of columns.  For operands in one order the results are the same, those of the outer join
too. -/
theorem innerJoin_unordered (hr : r.WellFormed) (hs : s.WellFormed)
    (hdisjoint : ∀ a ∈ r.heading, a ∉ s.heading) (hleft : r.heading.Nodup)
    (hright : s.heading.Nodup) {pairs pairs' : List JoinPair}
    (hsame : JoinPair.unordered pairs = JoinPair.unordered pairs') :
    Corresponds (fun joined turned => turned.project (r.heading ++ s.heading) = .ok joined)
        Error.SameKind (r.innerJoin s pairs) (s.innerJoin r pairs') ∧
      Corresponds (fun joined joined' => joined = joined') Error.SameKind
        (r.innerJoin s pairs) (r.innerJoin s pairs') ∧
      Corresponds (fun outer outer' => outer = outer') Error.SameKind
        (r.leftOuterJoin s pairs) (r.leftOuterJoin s pairs') := by
  have hshared : Heading.shared r.heading s.heading = [] := Heading.shared_eq_nil_iff.2 hdisjoint
  have hshared' : Heading.shared s.heading r.heading = [] :=
    Heading.shared_eq_nil_iff.2 fun a ha ha' => hdisjoint a ha' ha
  have hinner : Corresponds (fun joined joined' => joined = joined') Error.SameKind
      (r.innerJoin s pairs) (r.innerJoin s pairs') :=
    innerJoin_corresponds hr hs hr hs hshared hshared (testable_congr hsame) (joinOf_congr hsame)
  refine ⟨?_, hinner, ?_⟩
  · exact innerJoin_corresponds hr hs hs hr hshared hshared' (testable_comm hsame)
      (project_joinOf hr hs hdisjoint hleft hright hsame)
  · -- After the inner join both outer joins go on in the same way.
    unfold leftOuterJoin
    refine hinner.bind ?_
    rintro joined _ rfl
    have halike : ∀ e, Error.SameKind e e := fun _ => rfl
    exact Corresponds.refl (fun _ => rfl) halike _

/-- Equations that are given in another order, with their sides exchanged and one of them twice, of
which one compares an integer with the number that it is rounded to. -/
theorem innerJoin_unordered_of_flipped_and_repeated :
    let a : Attribute := .name "a"
    let b : Attribute := .name "b"
    let c : Attribute := .name "c"
    let d : Attribute := .name "d"
    let n : Scalar := .int 9007199254740993
    let x : Scalar := .float ⟨0x4340000000000000⟩
    let r : Relation := ⟨[a, b], [[.int 1, .null], [n, .null], [n, .text "x"]]⟩
    let s : Relation := ⟨[c, d], [[.int 1, .text "x"], [x, .text "x"]]⟩
    let pairs : List JoinPair := [(a, c), (d, b)]
    let pairs' : List JoinPair := [(b, d), (c, a), (a, c)]
    let joined : Relation := ⟨[a, b, c, d], [[n, .text "x", x, .text "x"]]⟩
    ((r.WellFormed ∧ s.WellFormed) ∧ (∀ e ∈ r.heading, e ∉ s.heading) ∧ r.heading.Nodup ∧
        s.heading.Nodup ∧ JoinPair.unordered pairs = JoinPair.unordered pairs') ∧
      r.innerJoin s pairs = .ok joined ∧
      (∃ turned, s.innerJoin r pairs' = .ok turned ∧
        turned.project (r.heading ++ s.heading) = .ok joined) ∧
      r.innerJoin s pairs' = .ok joined ∧
      ∃ outer, r.leftOuterJoin s pairs = .ok outer ∧ r.leftOuterJoin s pairs' = .ok outer := by
  intro a b c d n x r s pairs pairs' joined
  have hr : r.WellFormed := by decide +kernel
  have hs : s.WellFormed := by decide +kernel
  have hdisjoint : ∀ e ∈ r.heading, e ∉ s.heading := by decide +kernel
  have hleft : r.heading.Nodup := by decide +kernel
  have hright : s.heading.Nodup := by decide +kernel
  have hsame : JoinPair.unordered pairs = JoinPair.unordered pairs' := by decide +kernel
  have hjoined : r.innerJoin s pairs = .ok joined := by decide +kernel
  have houter : r.leftOuterJoin s pairs = .ok ⟨[a, b, c, d], [[.int 1, .null, .null, .null],
      [n, .null, .null, .null], [n, .text "x", x, .text "x"]]⟩ := by decide +kernel
  obtain ⟨hturned, hinner, hpadded⟩ := innerJoin_unordered hr hs hdisjoint hleft hright hsame
  rw [hjoined] at hturned hinner
  rw [houter] at hpadded
  obtain ⟨joined', hjoined', rfl⟩ := hinner.exists_ok
  obtain ⟨outer, houter', rfl⟩ := hpadded.exists_ok
  exact ⟨⟨⟨hr, hs⟩, hdisjoint, hleft, hright, hsame⟩, hjoined, hturned.exists_ok, hjoined', _,
    houter, houter'⟩

end Relation

end RelationalAlgebra
