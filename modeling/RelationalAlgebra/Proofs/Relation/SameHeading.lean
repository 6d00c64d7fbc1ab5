import RelationalAlgebra.Proofs.Relation.Equality
import RelationalAlgebra.Proofs.Relation.NaturalJoin
import RelationalAlgebra.Proofs.Scalar.Agreement

/-!
# The natural join of relations with one heading

If two relations have one heading, their natural join equates all columns and adds none, so it is
a selection from the left relation.  So is their intersection.  They ask different questions about
a tuple of the left relation: the join, whether the right one holds a tuple that agrees with it in
every column, and the intersection, whether it holds an equal one.

Main statement: the two are equal exactly if these questions have the same answer for every tuple
of the left relation, as they have where no values of one column are discordant.  The join of a
relation with itself gives the relation back exactly if it holds no not-a-number.
-/

namespace RelationalAlgebra

namespace Scalar

/-- Only a number agrees with anything, among the floating-point values. -/
lemma isNaN_eq_false_of_agrees {x : Binary64} {b : Scalar}
    (h : (Scalar.float x).agrees b = true) : x.isNaN = false := by
  cases b with
  | float y => exact ((Binary64.agrees_iff x y).1 h).1
  | int n => exact ((Binary64.agrees_iff x _).1 h).1
  | null | bool _ | text _ | date _ => cases h

/-- A value agrees with itself unless it is a not-a-number. -/
lemma agrees_self {a : Scalar} (h : ∀ x, a = .float x → x.isNaN = false) :
    a.agrees a = true := by
  refine ((agrees_iff_compare a a).2 fun hdiscordant => ?_).2 Std.ReflCmp.compare_self
  cases a with
  | float x =>
    have htrue : x.isNaN = true := hdiscordant.1
    rw [h x rfl] at htrue
    cases htrue
  | null | bool _ | int _ | text _ | date _ => exact hdiscordant

end Scalar

namespace Tuple

/-- Two tuples agree if they have agreeing values position by position. -/
def Agrees (t u : Tuple) : Prop :=
  List.Forall₂ (fun a b => a.agrees b = true) t u

instance (t u : Tuple) : Decidable (t.Agrees u) :=
  inferInstanceAs (Decidable (List.Forall₂ _ t u))

/-- Where no two values at one position are discordant, tuples agree exactly if they are equal. -/
lemma agrees_iff_equal {t u : Tuple} (h : ∀ pair ∈ t.zip u, ¬ pair.1.Discordant pair.2) :
    t.Agrees u ↔ Tuple.equal t u = true := by
  rw [equal_iff_forall₂, Agrees, List.forall₂_iff_zip, List.forall₂_iff_zip]
  refine and_congr_right fun _ => ?_
  constructor
  · intro hagrees a b hab
    exact ((Scalar.agrees_iff_compare a b).2 (h (a, b) hab)).1 (hagrees hab)
  · intro hequal a b hab
    exact ((Scalar.agrees_iff_compare a b).2 (h (a, b) hab)).2 (hequal hab)

end Tuple

namespace Relation

variable {r s : Relation} {heading : Heading}

/-! ## All columns are shared -/

/-- Tuples that agree at all attributes of a heading agree position by position. -/
lemma agreeing_self_iff (hnodup : heading.Nodup) {t u : Tuple} (ht : t.length = heading.length)
    (hu : u.length = heading.length) : Agreeing heading heading t u ↔ t.Agrees u := by
  have hmap : t.Agrees u ↔
      (Tuple.Agrees (heading.map (heading.valueAt t)) (heading.map (heading.valueAt u))) := by
    rw [Heading.map_valueAt_self hnodup ht, Heading.map_valueAt_self hnodup hu]
  rw [hmap, Tuple.Agrees, List.forall₂_map_left_iff, List.forall₂_map_right_iff,
    List.forall₂_same]
  exact ⟨fun h a ha => h a ha ha, fun h a ha _ => h a ha⟩

/-- Nothing is left of a heading without its own attributes. -/
lemma without_self (heading : Heading) : heading.without heading = [] := by
  refine List.filter_eq_nil_iff.2 fun a ha => ?_
  simp [ha]

/-- If all attributes are shared, the row of two tuples is the left one. -/
lemma shownRow_self (hnodup : heading.Nodup) {t : Tuple} (ht : t.length = heading.length)
    (u : Tuple) : shownRow heading heading t u = t := by
  have hnone : (heading.filter fun a => a ∉ heading) = [] :=
    List.filter_eq_nil_iff.2 fun a ha => by simp [ha]
  rw [shownRow, hnone, List.map_nil, List.append_nil, Heading.map_valueAt_self hnodup ht]

/-- The rows that the natural join of relations with one heading shows are the tuples of the left
one that agree with a tuple of the right one. -/
lemma mem_shownRows_iff (hr : r.Over heading) (hs : s.Over heading) (hnodup : heading.Nodup)
    {t : Tuple} :
    t ∈ ((agreeingPairs r s).tuples.map fun v =>
      (shownColumns heading heading).map ((agreeingPairs r s).heading.valueAt v)) ↔
        t ∈ r.tuples ∧ ∃ u ∈ s.tuples, t.Agrees u := by
  have hshown : ∀ t ∈ r.tuples, ∀ u : Tuple, (shownColumns heading heading).map
      ((agreeingPairs r s).heading.valueAt (t ++ u)) = t := by
    intro t ht u
    rw [agreeingPairs, hr.heading_eq, hs.heading_eq,
      map_valueAt_shownColumns (hr.length_eq ht), shownRow_self hnodup (hr.length_eq ht)]
  have hagree : ∀ t ∈ r.tuples, ∀ u ∈ s.tuples,
      (Agreeing r.heading s.heading t u ↔ t.Agrees u) := by
    intro t ht u hu
    rw [hr.heading_eq, hs.heading_eq]
    exact agreeing_self_iff hnodup (hr.length_eq ht) (hs.length_eq hu)
  rw [List.mem_map]
  constructor
  · rintro ⟨v, hv, rfl⟩
    obtain ⟨t, ht, u, hu, hpair, rfl⟩ := (mem_agreeingPairs hr.wellFormed).1 hv
    rw [hshown t ht u]
    exact ⟨ht, u, hu, (hagree t ht u hu).1 hpair⟩
  · rintro ⟨ht, u, hu, hpair⟩
    have hv := (mem_agreeingPairs hr.wellFormed).2
      ⟨t, ht, u, hu, (hagree t ht u hu).2 hpair, rfl⟩
    exact ⟨t ++ u, hv, hshown t ht u⟩

/-- The natural join of relations with one heading holds the tuples of the left one that agree with
a tuple of the right one. -/
lemma naturalJoin_eq_filter (hr : r.Over heading) (hs : s.Over heading) (hne : heading ≠ [])
    (hnodup : heading.Nodup) :
    r.naturalJoin s = .ok ⟨heading, r.tuples.filter fun t => ∃ u ∈ s.tuples, t.Agrees u⟩ := by
  have hshared : Heading.shared r.heading s.heading ≠ [] := by
    obtain ⟨a, ha⟩ := List.exists_mem_of_ne_nil _ hne
    have hmem : a ∈ Heading.shared heading heading := Heading.mem_shared.2 ⟨ha, ha⟩
    rw [hr.heading_eq, hs.heading_eq]
    exact List.ne_nil_of_mem hmem
  have hrows : TupleSet.ofList ((agreeingPairs r s).tuples.map fun v =>
      (shownColumns heading heading).map ((agreeingPairs r s).heading.valueAt v)) =
        r.tuples.filter fun t => ∃ u ∈ s.tuples, t.Agrees u := by
    refine TupleSet.ofList_eq_of_mem_iff (hr.wellFormed.2.sublist List.filter_sublist) fun t => ?_
    rw [mem_shownRows_iff hr hs hnodup, List.mem_filter, decide_eq_true_eq]
  rw [naturalJoin_eq hr.wellFormed hs.wellFormed hshared, hr.heading_eq, hs.heading_eq, hrows,
    naturalHeading, without_self, List.append_nil]

/-! ## Join and intersection -/

/-- The natural join of a relation with itself is the relation exactly if this holds no
not-a-number. -/
lemma naturalJoin_self_equal_iff (hr : r.WellFormed) (hne : r.heading ≠ [])
    (hnodup : r.heading.Nodup) :
    ∃ joined, r.naturalJoin r = .ok joined ∧
      (joined.equal r = true ↔ ∀ t ∈ r.tuples, ∀ x, .float x ∈ t → x.isNaN = false) := by
  refine ⟨_, naturalJoin_eq_filter hr.over hr.over hne hnodup, ?_⟩
  have hall : r.tuples.filter (fun _ => true) = r.tuples :=
    List.filter_eq_self.2 fun _ _ => rfl
  have hiff := equal_filter_iff hr (p := fun t => ∃ u ∈ r.tuples, t.Agrees u) (q := fun _ => true)
  rw [hall] at hiff
  rw [hiff]
  refine forall₂_congr fun t ht => ?_
  rw [decide_eq_true_eq, iff_true_right rfl]
  constructor
  · rintro ⟨u, -, hagrees⟩ x hx
    obtain ⟨b, -, hb⟩ := exists_of_forall₂ hagrees.flip hx
    exact Scalar.isNaN_eq_false_of_agrees hb
  · intro hnumbers
    refine ⟨t, ht, List.forall₂_same.2 fun a ha => Scalar.agrees_self ?_⟩
    rintro x rfl
    exact hnumbers x ha

/-- Two relations with one heading, which has attributes and none of them twice, have a natural
join and an intersection.  These are equal exactly if, for every tuple of the left relation, the
right one holds a tuple that agrees with it exactly if it holds an equal one; so they are equal
where no two values of one column are discordant.  The natural join of a relation with itself is
the relation exactly if it holds no not-a-number. -/
theorem naturalJoin_equal_intersection_iff (hr : r.WellFormed) (hs : s.WellFormed)
    (hsame : r.heading = s.heading) (hne : r.heading ≠ []) (hnodup : r.heading.Nodup) :
    (∃ joined common, r.naturalJoin s = .ok joined ∧ r.intersection s = .ok common ∧
      (joined.equal common = true ↔
        ∀ t ∈ r.tuples, (∃ u ∈ s.tuples, t.Agrees u) ↔ ∃ u ∈ s.tuples, Tuple.equal t u = true) ∧
      ((∀ t ∈ r.tuples, ∀ u ∈ s.tuples, ∀ pair ∈ t.zip u, ¬ pair.1.Discordant pair.2) →
        joined.equal common = true)) ∧
    ∃ own, r.naturalJoin r = .ok own ∧
      (own.equal r = true ↔ ∀ t ∈ r.tuples, ∀ x, .float x ∈ t → x.isNaN = false) := by
  refine ⟨?_, naturalJoin_self_equal_iff hr hne hnodup⟩
  have hs' : s.Over r.heading := ⟨hsame.symm, hs⟩
  have hiff : (equal ⟨r.heading, r.tuples.filter fun t => ∃ u ∈ s.tuples, t.Agrees u⟩
      ⟨r.heading, r.tuples.filter fun t => s.contains t⟩ = true) ↔
        ∀ t ∈ r.tuples, (∃ u ∈ s.tuples, t.Agrees u) ↔
          ∃ u ∈ s.tuples, Tuple.equal t u = true := by
    rw [equal_filter_iff hr]
    refine forall₂_congr fun t _ => ?_
    rw [decide_eq_true_eq, contains, TupleSet.contains_iff]
  refine ⟨_, _, naturalJoin_eq_filter hr.over hs' hne hnodup, intersection_eq hr.over hs', hiff,
    fun hconcordant => hiff.2 fun t ht => ?_⟩
  refine exists_congr fun u => and_congr_right fun hu => ?_
  exact Tuple.agrees_iff_equal (hconcordant t ht u hu)

/-- An integer beside the number that it is rounded to: the two are discordant, but the right
relation holds the integer as well. -/
theorem naturalJoin_equal_intersection_iff_of_rounded_and_exact :
    let r : Relation := ⟨[.name "n", .name "note"], [[.int 9007199254740993, .null]]⟩
    let s : Relation := ⟨[.name "n", .name "note"],
      [[.float ⟨0x4340000000000000⟩, .null], [.int 9007199254740993, .null]]⟩
    (r.WellFormed ∧ s.WellFormed ∧ r.heading = s.heading ∧ r.heading ≠ [] ∧ r.heading.Nodup) ∧
      (∃ joined common, r.naturalJoin s = .ok joined ∧ r.intersection s = .ok common ∧
        joined.equal common = true) ∧
      ∃ own, r.naturalJoin r = .ok own ∧ own.equal r = true := by
  intro r s
  have hr : r.WellFormed := by decide +kernel
  have hs : s.WellFormed := by decide +kernel
  have hsame : r.heading = s.heading := rfl
  have hne : r.heading ≠ [] := by decide +kernel
  have hnodup : r.heading.Nodup := by decide +kernel
  obtain ⟨⟨joined, common, hjoined, hcommon, hiff, -⟩, own, hown, hself⟩ :=
    naturalJoin_equal_intersection_iff hr hs hsame hne hnodup
  have hanswers : ∀ t ∈ r.tuples,
      (∃ u ∈ s.tuples, t.Agrees u) ↔ ∃ u ∈ s.tuples, Tuple.equal t u = true := by
    decide +kernel
  have hnumbers : ∀ t ∈ r.tuples, ∀ x, .float x ∈ t → x.isNaN = false := by
    intro t ht x hx
    rw [List.mem_singleton.1 ht] at hx
    simp at hx
  exact ⟨⟨hr, hs, hsame, hne, hnodup⟩, ⟨joined, common, hjoined, hcommon, hiff.2 hanswers⟩, own,
    hown, hself.2 hnumbers⟩

/-- A relation that holds a not-a-number has an empty natural join with itself, and an integer is
joined to the number that it is rounded to, which the intersection tells apart from it. -/
theorem naturalJoin_ne_intersection_at_nan_and_two_pow_53_add_one :
    let nan : Relation := ⟨[.name "a"], [[.float Binary64.nan]]⟩
    let exact : Relation := ⟨[.name "a"], [[.int 9007199254740993]]⟩
    let rounded : Relation := ⟨[.name "a"], [[.float ⟨0x4340000000000000⟩]]⟩
    let nothing : Relation := ⟨[.name "a"], []⟩
    (nan.WellFormed ∧ exact.WellFormed ∧ rounded.WellFormed ∧ nan.heading.Nodup) ∧
      (nan.naturalJoin nan = .ok nothing ∧ nan.intersection nan = .ok nan ∧
        nothing.equal nan = false) ∧
      (exact.naturalJoin rounded = .ok exact ∧ exact.intersection rounded = .ok nothing ∧
        exact.equal nothing = false) := by
  decide +kernel

end Relation

end RelationalAlgebra
