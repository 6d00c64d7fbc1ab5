import RelationalAlgebra.Proofs.Predicate.Fields
import RelationalAlgebra.Proofs.Relation.Products
import RelationalAlgebra.Proofs.Relation.Selection

/-!
# Selections before and after a product

A predicate that refers to no attribute of one of two relations has the same outcome on a
concatenation as on its other part, errors about missing attributes included: such an attribute is
missing from both headings.  So the tests of the product repeat those of one factor.  For the left
factor each test is made as often as the right one has tuples, for the right factor the whole series
of tests is made once for each tuple of the left one; in both orders the first test that fails is
that of the first tuple of the factor on which the predicate fails.

Main statement: selecting from the product has the outcome of selecting from the factor first, as
long as the other factor has tuples, without which no test is made at all.
-/

namespace RelationalAlgebra

namespace Relation

variable {r s : Relation} {heading : Heading} {predicate : Predicate} {rows others : List Tuple}

/-! ## Series of tests -/

/-- Selecting names the tuples that satisfy the predicate with the heading. -/
lemma select_eq_map (r : Relation) (predicate : Predicate) :
    r.select predicate =
      (satisfying r.heading predicate r.tuples).map (Relation.mk r.heading) := by
  rw [select]
  cases satisfying r.heading predicate r.tuples <;> rfl

/-- The tuples of two lists are tested one list after the other. -/
lemma satisfying_append (heading : Heading) (predicate : Predicate) (rows others : List Tuple) :
    satisfying heading predicate (rows ++ others) =
      satisfying heading predicate rows >>= fun kept =>
        (satisfying heading predicate others).map (kept ++ ·) := by
  simp only [satisfying_eq, List.mapM_append, List.filter_append]
  cases rows.mapM fun t => predicate.eval ⟨heading, t⟩ with
  | error e => rfl
  | ok truths => cases others.mapM fun t => predicate.eval ⟨heading, t⟩ <;> rfl

/-- If tuples are changed without changing the outcomes of their tests, the same ones are kept. -/
lemma satisfying_map {heading' : Heading} {change : Tuple → Tuple}
    (h : ∀ t ∈ rows, predicate.eval ⟨heading', change t⟩ = predicate.eval ⟨heading, t⟩) :
    satisfying heading' predicate (rows.map change) =
      (satisfying heading predicate rows).map (List.map change) := by
  have htests : (rows.map change).mapM (fun t => predicate.eval ⟨heading', t⟩) =
      rows.mapM fun t => predicate.eval ⟨heading, t⟩ := by
    rw [List.mapM_map]
    exact mapM_congr h
  have hkept : rows.filter (predicate.holds heading' ∘ change) =
      rows.filter (predicate.holds heading) := by
    refine List.filter_congr fun t ht => ?_
    rw [Function.comp_apply, Predicate.holds, Predicate.holds, h t ht]
  rw [satisfying_eq, satisfying_eq, htests, List.filter_map, hkept]
  cases rows.mapM fun t => predicate.eval ⟨heading, t⟩ <;> rfl

/-- If all tests have one outcome, all tuples are kept or none is. -/
lemma satisfying_of_same {outcome : Except Error Bool} (hne : rows ≠ [])
    (h : ∀ t ∈ rows, predicate.eval ⟨heading, t⟩ = outcome) :
    satisfying heading predicate rows = outcome.map fun keep => if keep then rows else [] := by
  cases outcome with
  | error e =>
    obtain ⟨t, rest, rfl⟩ := List.exists_cons_of_ne_nil hne
    rw [satisfying, h t List.mem_cons_self]
    rfl
  | ok keep =>
    clear hne
    induction rows with
    | nil => cases keep <;> rfl
    | cons t rows ih =>
      obtain ⟨ht, hrows⟩ := List.forall_mem_cons.1 h
      rw [satisfying, ht, ih hrows]
      cases keep <;> rfl

/-! ## Tests of concatenations -/

/-- Tests that depend on the left part of a concatenation are those of the left tuples. -/
lemma satisfying_pairs_left {whole : Heading} (hne : others ≠ [])
    (h : ∀ t ∈ rows, ∀ u ∈ others,
      predicate.eval ⟨whole, t ++ u⟩ = predicate.eval ⟨heading, t⟩) :
    satisfying whole predicate (rows.flatMap fun t => others.map fun u => t ++ u) =
      (satisfying heading predicate rows).map fun kept =>
        kept.flatMap fun t => others.map fun u => t ++ u := by
  induction rows with
  | nil => rfl
  | cons t rows ih =>
    obtain ⟨ht, hrows⟩ := List.forall_mem_cons.1 h
    have hsame : satisfying whole predicate (others.map fun u => t ++ u) =
        (predicate.eval ⟨heading, t⟩).map fun keep =>
          if keep then others.map fun u => t ++ u else [] := by
      refine satisfying_of_same (fun hnil => hne (List.map_eq_nil_iff.1 hnil)) fun v hv => ?_
      obtain ⟨u, hu, rfl⟩ := List.mem_map.1 hv
      exact ht u hu
    rw [List.flatMap_cons, satisfying_append, hsame, ih hrows, satisfying]
    cases predicate.eval ⟨heading, t⟩ with
    | error e => rfl
    | ok keep =>
      cases satisfying heading predicate rows with
      | error e => rfl
      | ok kept => cases keep <;> rfl

/-- Tests that depend on the right part of a concatenation are those of the right tuples. -/
lemma satisfying_pairs_right {whole : Heading} (hne : rows ≠ [])
    (h : ∀ t ∈ rows, ∀ u ∈ others,
      predicate.eval ⟨whole, t ++ u⟩ = predicate.eval ⟨heading, u⟩) :
    satisfying whole predicate (rows.flatMap fun t => others.map fun u => t ++ u) =
      (satisfying heading predicate others).map fun kept =>
        rows.flatMap fun t => kept.map fun u => t ++ u := by
  have hseries : ∀ t ∈ rows, satisfying whole predicate (others.map fun u => t ++ u) =
      (satisfying heading predicate others).map (List.map fun u => t ++ u) :=
    fun t ht => satisfying_map (h t ht)
  cases htests : satisfying heading predicate others with
  | error e =>
    obtain ⟨t, rest, rfl⟩ := List.exists_cons_of_ne_nil hne
    rw [List.flatMap_cons, satisfying_append, hseries t List.mem_cons_self, htests]
    rfl
  | ok kept =>
    -- Once a series of tests succeeds, all of them do, also if there are none.
    clear hne h
    induction rows with
    | nil => rfl
    | cons t rows ih =>
      obtain ⟨ht, hrows⟩ := List.forall_mem_cons.1 hseries
      rw [List.flatMap_cons, satisfying_append, ht, htests, ih hrows]
      rfl

/-! ## Selections -/

/-- What is selected from a relation is a relation with the same heading. -/
lemma over_of_satisfying (hr : r.WellFormed) {kept : List Tuple}
    (h : satisfying r.heading predicate r.tuples = .ok kept) :
    Over r.heading ⟨r.heading, kept⟩ := by
  refine (select_meets_unfit hr.over predicate).of_ok ?_
  rw [select_eq_map, h]
  rfl

/-- A selection by attributes of the left factor can be made before the product. -/
lemma select_cross_left (hr : r.WellFormed) (hs : s.WellFormed)
    (hdisjoint : Heading.shared r.heading s.heading = [])
    (hfields : ∀ a ∈ predicate.fields, a ∉ s.heading) (hne : s.tuples ≠ []) :
    (r.cross s >>= fun v => v.select predicate) =
      r.select predicate >>= fun v => v.cross s := by
  have htests : satisfying (r.heading ++ s.heading) predicate (pairings r s) =
      (satisfying r.heading predicate r.tuples).map fun kept =>
        pairings ⟨r.heading, kept⟩ s := by
    refine satisfying_pairs_left hne fun t ht u _ => ?_
    exact Predicate.eval_congr_of_fields fun a ha =>
      Record.get_append_left (hfields a ha) (hr.1 t ht)
  rw [cross_eq hr.over hs.over hdisjoint, ok_bind, select_eq_map, select_eq_map, htests]
  cases hkept : satisfying r.heading predicate r.tuples with
  | error e => rfl
  | ok kept => exact (cross_eq (over_of_satisfying hr hkept) hs.over hdisjoint).symm

/-- A selection by attributes of the right factor can be made before the product. -/
lemma select_cross_right (hr : r.WellFormed) (hs : s.WellFormed)
    (hdisjoint : Heading.shared r.heading s.heading = [])
    (hfields : ∀ a ∈ predicate.fields, a ∉ r.heading) (hne : r.tuples ≠ []) :
    (r.cross s >>= fun v => v.select predicate) =
      s.select predicate >>= fun v => r.cross v := by
  have htests : satisfying (r.heading ++ s.heading) predicate (pairings r s) =
      (satisfying s.heading predicate s.tuples).map fun kept =>
        pairings r ⟨s.heading, kept⟩ := by
    refine satisfying_pairs_right hne fun t ht u _ => ?_
    exact Predicate.eval_congr_of_fields fun a ha =>
      Record.get_append_right (hfields a ha) (hr.1 t ht)
  rw [cross_eq hr.over hs.over hdisjoint, ok_bind, select_eq_map, select_eq_map, htests]
  cases hkept : satisfying s.heading predicate s.tuples with
  | error e => rfl
  | ok kept => exact (cross_eq hr.over (over_of_satisfying hs hkept) hdisjoint).symm

/-- A selection from a product, by a predicate that refers to no attribute of one factor, has the
outcome of the selection from the other factor followed by the product, error or relation, if the
factor without selected attributes has tuples. -/
theorem select_cross (hr : r.WellFormed) (hs : s.WellFormed)
    (hdisjoint : ∀ a ∈ r.heading, a ∉ s.heading) (predicate : Predicate) :
    ((∀ a ∈ predicate.fields, a ∉ s.heading) → s.tuples ≠ [] →
      (r.cross s >>= fun v => v.select predicate) =
        r.select predicate >>= fun v => v.cross s) ∧
    ((∀ a ∈ predicate.fields, a ∉ r.heading) → r.tuples ≠ [] →
      (r.cross s >>= fun v => v.select predicate) =
        s.select predicate >>= fun v => r.cross v) := by
  have hshared := Heading.shared_eq_nil_iff.2 hdisjoint
  exact ⟨select_cross_left hr hs hshared, select_cross_right hr hs hshared⟩

/-- A test of the left factor fails on its second tuple, in the product after two tests that
succeed; the right factor is selected by a predicate of which one part is a negation. -/
theorem select_cross_of_failing_test :
    let a : Attribute := .name "a"
    let b : Attribute := .name "b"
    let r : Relation := ⟨[a], [[.int 1], [.text "x"]]⟩
    let s : Relation := ⟨[b], [[.null], [.int 4]]⟩
    let greater : Predicate := .compare .gt (.field a) (.literal (.int 2))
    let present : Predicate :=
      .all [.not (.compare .exact (.field b) (.literal .null)), .any [.equalFields b b]]
    (r.WellFormed ∧ s.WellFormed ∧ ∀ c ∈ r.heading, c ∉ s.heading) ∧
      ((∀ c ∈ greater.fields, c ∉ s.heading) ∧
        (r.cross s >>= fun v => v.select greater) = .error (.typeMismatch "gt" .text .int) ∧
        (r.select greater >>= fun v => v.cross s) = .error (.typeMismatch "gt" .text .int)) ∧
      (∀ c ∈ present.fields, c ∉ r.heading) ∧
        (s.select present >>= fun v => r.cross v) =
          .ok ⟨[a, b], [[.int 1, .int 4], [.text "x", .int 4]]⟩ ∧
        (r.cross s >>= fun v => v.select present) =
          .ok ⟨[a, b], [[.int 1, .int 4], [.text "x", .int 4]]⟩ := by
  intro a b r s greater present
  have hr : r.WellFormed := by decide +kernel
  have hs : s.WellFormed := by decide +kernel
  have hdisjoint : ∀ c ∈ r.heading, c ∉ s.heading := by decide
  have hleft : ∀ c ∈ greater.fields, c ∉ s.heading := by decide
  have hright : ∀ c ∈ present.fields, c ∉ r.heading := by decide
  obtain ⟨hpush, -⟩ := select_cross hr hs hdisjoint greater
  obtain ⟨-, hpush'⟩ := select_cross hr hs hdisjoint present
  have hfails : (r.select greater >>= fun v => v.cross s) =
      .error (.typeMismatch "gt" .text .int) := by decide +kernel
  have hselected : (s.select present >>= fun v => r.cross v) =
      .ok ⟨[a, b], [[.int 1, .int 4], [.text "x", .int 4]]⟩ := by decide +kernel
  exact ⟨⟨hr, hs, hdisjoint⟩, ⟨hleft, (hpush hleft (by decide)).trans hfails, hfails⟩, hright,
    hselected, (hpush' hright (by decide)).trans hselected⟩

end Relation

end RelationalAlgebra
