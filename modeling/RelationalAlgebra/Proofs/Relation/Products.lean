import RelationalAlgebra.Proofs.Aggregate.Matching
import RelationalAlgebra.Proofs.Relation.Tuples

/-!
# Products

The product of two relations puts the concatenations of their tuples back into a set.  Nothing is
lost in this: the tuples of one relation have one length, so that concatenations are equal only if
both parts are, and the product contains a concatenation exactly if the relations contain its
parts.

Main statement: products exist exactly between relations with disjoint headings, have one tuple for
each pair of tuples, and are associative.  The two ways of taking the product of three relations
compare different headings, but both need the three to be disjoint, and then they give the same
tuples in the same order.
-/

namespace RelationalAlgebra

namespace Relation

variable {r s u : Relation} {left middle right : Heading}

/-! ## Pairs of tuples -/

/-- The concatenations of the tuples of two well-formed relations make a well-formed relation. -/
lemma over_pairings (hr : r.Over left) (hs : s.Over right) :
    Over (left ++ right) ⟨left ++ right, pairings r s⟩ where
  heading_eq := rfl
  wellFormed := by
    refine ⟨fun v hv => ?_, ascending_pairings hr hs⟩
    obtain ⟨t, ht, u, hu, rfl⟩ := mem_pairings.1 hv
    rw [arity, List.length_append, List.length_append, hr.length_eq ht, hs.length_eq hu]

/-- A product contains a concatenation if the relations contain its parts. -/
lemma contains_pairings (hr : r.Over left) {t : Tuple} (ht : t.length = left.length) (u : Tuple) :
    TupleSet.contains (pairings r s) (t ++ u) = (r.contains t && s.contains u) := by
  rw [Bool.eq_iff_iff, Bool.and_eq_true, contains, contains, TupleSet.contains_iff,
    TupleSet.contains_iff, TupleSet.contains_iff]
  have hparts : ∀ t' ∈ r.tuples, ∀ u', Tuple.equal (t ++ u) (t' ++ u') = true ↔
      Tuple.equal t t' = true ∧ Tuple.equal u u' = true := fun t' ht' u' =>
    Tuple.equal_append (ht.trans (hr.length_eq ht').symm)
  constructor
  · rintro ⟨v, hv, hequal⟩
    obtain ⟨t', ht', u', hu', rfl⟩ := mem_pairings.1 hv
    obtain ⟨htt', huu'⟩ := (hparts t' ht' u').1 hequal
    exact ⟨⟨t', ht', htt'⟩, u', hu', huu'⟩
  · rintro ⟨⟨t', ht', htt'⟩, u', hu', huu'⟩
    exact ⟨t' ++ u', mem_pairings.2 ⟨t', ht', u', hu', rfl⟩, (hparts t' ht' u').2 ⟨htt', huu'⟩⟩

/-- There is one concatenation for each pair of tuples. -/
lemma length_pairings (r s : Relation) : (pairings r s).length = r.size * s.size := by
  simp only [pairings, List.length_flatMap, List.length_map, List.map_const',
    List.sum_replicate_nat, size]

/-- Triples of tuples are concatenated in the same order from either side. -/
lemma pairings_assoc (r s u : Relation) :
    pairings ⟨left ++ middle, pairings r s⟩ u = pairings r ⟨middle ++ right, pairings s u⟩ := by
  simp only [pairings, List.flatMap_assoc, List.flatMap_map, List.map_flatMap, List.map_map]
  simp only [Function.comp_def, List.append_assoc]

/-! ## Products of two and three relations -/

/-- Relations with headings that share attributes have no product. -/
lemma cross_eq_error (h : Heading.shared r.heading s.heading ≠ []) :
    r.cross s = .error (.attributeConflict (Heading.shared r.heading s.heading)) := by
  rw [cross, Heading.ensureDisjoint, if_neg h, error_bind]

/-- A relation that is the product of two others. -/
structure IsProduct (r s v : Relation) : Prop where
  over_heading : v.Over (r.heading ++ s.heading)
  /-- It contains a concatenation if the two relations contain its parts. -/
  contains_append : ∀ t u, t.length = r.arity → u.length = s.arity →
    (v.contains (t ++ u) = true ↔ r.contains t = true ∧ s.contains u = true)
  /-- No two pairs of tuples become one. -/
  size_eq : v.size = r.size * s.size

/-- Well-formed relations with disjoint headings have a product. -/
lemma exists_isProduct (hr : r.WellFormed) (hs : s.WellFormed)
    (h : Heading.shared r.heading s.heading = []) :
    ∃ v, r.cross s = .ok v ∧ IsProduct r s v := by
  refine ⟨_, cross_eq hr.over hs.over h, over_pairings hr.over hs.over, fun t u ht _ => ?_,
    length_pairings r s⟩
  rw [contains, contains_pairings hr.over ht, Bool.and_eq_true]

/-- The product of three relations is the same from either side, or fails from both sides because
two of them share attributes. -/
theorem cross_assoc (hr : r.WellFormed) (hs : s.WellFormed) (hu : u.WellFormed) :
    Corresponds (fun v w => v = w) Error.SameKind (r.cross s >>= fun v => v.cross u)
      (s.cross u >>= fun v => r.cross v) := by
  by_cases hrs : Heading.shared r.heading s.heading = []
  · rw [cross_eq hr.over hs.over hrs, ok_bind]
    by_cases hsu : Heading.shared s.heading u.heading = []
    · rw [cross_eq hs.over hu.over hsu, ok_bind]
      by_cases hru : Heading.shared r.heading u.heading = []
      · rw [cross_eq (over_pairings hr.over hs.over) hu.over
            (Heading.shared_append_left_eq_nil_iff.2 ⟨hru, hsu⟩),
          cross_eq hr.over (over_pairings hs.over hu.over)
            (Heading.shared_append_right_eq_nil_iff.2 ⟨hrs, hru⟩),
          List.append_assoc, pairings_assoc]
        exact .ok rfl
      · rw [cross_eq_error fun h => hru (Heading.shared_append_left_eq_nil_iff.1 h).1,
          cross_eq_error fun h => hru (Heading.shared_append_right_eq_nil_iff.1 h).2]
        exact .error rfl
    · rw [cross_eq_error hsu, error_bind,
        cross_eq_error fun h => hsu (Heading.shared_append_left_eq_nil_iff.1 h).2]
      exact .error rfl
  · rw [cross_eq_error hrs, error_bind]
    by_cases hsu : Heading.shared s.heading u.heading = []
    · rw [cross_eq hs.over hu.over hsu, ok_bind,
        cross_eq_error fun h => hrs (Heading.shared_append_right_eq_nil_iff.1 h).1]
      exact .error rfl
    · rw [cross_eq_error hsu, error_bind]
      exact .error rfl

/-- Two relations have a product exactly if no attribute occurs in both headings; otherwise the
error lists the attributes of the left heading that do, in their order.  The product contains the
concatenations of what the relations contain, one for each pair of tuples, and it is associative:
the product of three relations is taken from either side with one result, or with errors of one
sort. -/
theorem cross_exact (hr : r.WellFormed) (hs : s.WellFormed) (hu : u.WellFormed) :
    ((∀ a ∈ r.heading, a ∉ s.heading) → ∃ v, r.cross s = .ok v ∧ IsProduct r s v) ∧
    ((∃ a ∈ r.heading, a ∈ s.heading) →
      r.cross s = .error (.attributeConflict (r.heading.filter fun a => a ∈ s.heading))) ∧
    Corresponds (fun v w => v = w) Error.SameKind (r.cross s >>= fun v => v.cross u)
      (s.cross u >>= fun v => r.cross v) := by
  refine ⟨fun hdisjoint => ?_, fun ⟨a, har, has⟩ => ?_, cross_assoc hr hs hu⟩
  · exact exists_isProduct hr hs (Heading.shared_eq_nil_iff.2 hdisjoint)
  · rw [← Heading.shared_eq_filter]
    exact cross_eq_error fun h => Heading.shared_eq_nil_iff.1 h a har has

/-- Tuples that hold the number one in two forms, a relation without attributes, and one that shares
two attributes with the first relation. -/
theorem cross_exact_of_mixed_arities :
    let a : Attribute := .name "a"
    let b : Attribute := .name "b"
    let c : Attribute := .name "c"
    let one : Scalar := .float (Binary64.ofInt 1)
    let r : Relation := ⟨[a, b], [[.int 1, .int 1], [one, .text "x"]]⟩
    let s : Relation := ⟨[c], [[.null], [one]]⟩
    let unit : Relation := ⟨[], [[]]⟩
    let other : Relation := ⟨[c, b, a], []⟩
    (r.WellFormed ∧ s.WellFormed ∧ unit.WellFormed ∧ other.WellFormed) ∧
      (∃ v, r.cross s = .ok v ∧ IsProduct r s v ∧ v.size = 4 ∧
        v.contains ([one, .int 1] ++ [.int 1]) = true) ∧
      r.cross other = .error (.attributeConflict [a, b]) ∧
      ∃ w, (r.cross unit >>= fun v => v.cross s) = .ok w ∧
        (unit.cross s >>= fun v => r.cross v) = .ok w := by
  intro a b c one r s unit other
  have hr : r.WellFormed := by decide +kernel
  have hs : s.WellFormed := by decide +kernel
  have hunit : unit.WellFormed := by decide +kernel
  have hother : other.WellFormed := by decide +kernel
  obtain ⟨hproduct, -, -⟩ := cross_exact hr hs hunit
  obtain ⟨-, hconflict, -⟩ := cross_exact hr hother hs
  obtain ⟨-, -, hassoc⟩ := cross_exact hr hunit hs
  obtain ⟨v, hv, hisProduct⟩ := hproduct (by decide)
  have hcontains : v.contains ([one, .int 1] ++ [.int 1]) = true :=
    (hisProduct.contains_append _ _ rfl rfl).2 (by decide +kernel)
  have hwhole : (r.cross unit >>= fun v => v.cross s) = .ok v := by
    rw [← hv]
    decide +kernel
  rw [hwhole] at hassoc
  obtain ⟨w, hw, rfl⟩ := hassoc.exists_ok
  exact ⟨⟨hr, hs, hunit, hother⟩, ⟨v, hv, hisProduct, hisProduct.size_eq, hcontains⟩,
    hconflict (by decide), v, hwhole, hw⟩

end Relation

end RelationalAlgebra
