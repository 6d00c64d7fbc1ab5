import RelationalAlgebra.Proofs.Outcome
import RelationalAlgebra.Proofs.TupleSet.Membership
import RelationalAlgebra.Heading

/-!
# Sets that match

Two lists of tuples match if their tuples are equal one by one.  Whatever is done to tuples by the
order alone cannot tell such lists apart: the sets made from them match again, they contain the
same, and matching tuples have matching columns.
-/

namespace RelationalAlgebra

namespace Tuple

variable {s t u v : Tuple}

/-- Equal tuples have the same length. -/
lemma length_eq_of_equal (h : equal s t = true) : s.length = t.length :=
  (equal_iff_forall₂.1 h).length_eq

/-- Equal tuples are ordered alike. -/
lemma compare_congr (hst : equal s t = true) (huv : equal u v = true) :
    compare s u = compare t v := by
  rw [Std.TransCmp.congr_left (equal_iff.1 hst), Std.TransCmp.congr_right (equal_iff.1 huv)]

/-- Equal tuples are equal to equal tuples. -/
lemma equal_congr (hst : equal s t = true) (huv : equal u v = true) : equal s u = equal t v := by
  rw [equal, equal, compare_congr hst huv]

/-- Concatenations of equal tuples are equal. -/
lemma equal_append_of_equal (hst : equal s t = true) (huv : equal u v = true) :
    equal (s ++ u) (t ++ v) = true :=
  (equal_append (length_eq_of_equal hst)).2 ⟨hst, huv⟩

/-- Equal tuples have equal values at every position; beyond their ends both have a null. -/
lemma compare_getD_eq (h : equal s t = true) (i : Nat) :
    (s[i]?.getD .null).compare (t[i]?.getD .null) = .eq := by
  rw [equal_iff_forall₂] at h
  induction h generalizing i with
  | nil => rfl
  | cons hab _ ih =>
    cases i with
    | zero => exact hab
    | succ i => exact ih i

/-- Equal tuples have equal values at some positions. -/
lemma equal_pick (positions : List Nat) (h : equal s t = true) :
    equal (s.pick positions) (t.pick positions) = true := by
  rw [equal_iff_forall₂, pick, pick, List.forall₂_map_left_iff, List.forall₂_map_right_iff,
    List.forall₂_same]
  exact fun i _ => compare_getD_eq h i

/-- Equal tuples start with equal values. -/
lemma equal_take (n : Nat) (h : equal s t = true) : equal (s.take n) (t.take n) = true :=
  equal_iff_forall₂.2 (List.forall₂_take n (equal_iff_forall₂.1 h))

end Tuple

namespace TupleSet

/-- Two lists of tuples match if their tuples are equal one by one. -/
abbrev Matching (rows rows' : List Tuple) : Prop :=
  List.Forall₂ (fun t u => Tuple.equal t u = true) rows rows'

variable {rows rows' : List Tuple} {t u : Tuple}

/-- Insertion of equal tuples keeps sets matching. -/
lemma Matching.insert (htu : Tuple.equal t u = true) (h : Matching rows rows') :
    Matching (insert t rows) (insert u rows') := by
  induction h with
  | nil => exact List.Forall₂.cons htu List.Forall₂.nil
  | @cons v w rest rest' hvw hrest ih =>
    unfold TupleSet.insert
    rw [Tuple.compare_congr htu hvw]
    cases Tuple.compare u w with
    | lt => exact List.Forall₂.cons htu (List.Forall₂.cons hvw hrest)
    | eq => exact List.Forall₂.cons hvw hrest
    | gt => exact List.Forall₂.cons hvw ih

/-- The sets of matching lists match. -/
theorem Matching.ofList (h : Matching rows rows') : Matching (ofList rows) (ofList rows') := by
  induction h with
  | nil => exact List.Forall₂.nil
  | cons htu _ ih => exact ih.insert htu

/-- Matching lists contain the same tuples, up to equality. -/
lemma Matching.contains_eq (h : Matching rows rows') (htu : Tuple.equal t u = true) :
    contains rows t = contains rows' u := by
  induction h with
  | nil => rfl
  | cons hvw _ ih => rw [contains_cons, contains_cons, ih, Tuple.equal_congr htu hvw]

/-- What matches an ascending list is ascending. -/
lemma Matching.ascending (h : Matching rows rows') (hrows : Ascending rows) :
    Ascending rows' := by
  induction h with
  | nil => exact List.Pairwise.nil
  | @cons t u rest rest' htu hrest ih =>
    obtain ⟨hfirst, hlater⟩ := List.pairwise_cons.1 hrows
    refine List.pairwise_cons.2 ⟨fun v hv => ?_, ih hlater⟩
    obtain ⟨w, hw, hwv⟩ := exists_of_forall₂ hrest hv
    rw [← Tuple.compare_congr htu hwv]
    exact hfirst w hw

/-- What matching lists become by functions that take equal tuples to equal ones matches. -/
lemma Matching.map {f g : Tuple → Tuple} (h : Matching rows rows')
    (hfg : ∀ t u, Tuple.equal t u = true → Tuple.equal (f t) (g u) = true) :
    Matching (rows.map f) (rows'.map g) :=
  List.forall₂_map_left_iff.2 (List.forall₂_map_right_iff.2 (h.imp hfg))

/-- What is kept of matching lists by a test that does not tell equal tuples apart matches. -/
lemma Matching.filter {p q : Tuple → Bool} (h : Matching rows rows')
    (hpq : ∀ t u, Tuple.equal t u = true → p t = q u) :
    Matching (rows.filter p) (rows'.filter q) :=
  List.rel_filter (fun t u htu => Bool.eq_iff_iff.1 (hpq t u htu)) h

/-! ## Sets that contain the same tuples -/

/-- The first tuple of an ascending list comes before all others that the list contains. -/
lemma isLE_of_contains (h : Ascending (t :: rows)) (hu : contains (t :: rows) u = true) :
    (Tuple.compare t u).isLE = true := by
  obtain ⟨v, hv, hequal⟩ := contains_iff.1 hu
  rw [Tuple.compare_congr (Tuple.equal_refl t) hequal]
  rcases List.mem_cons.1 hv with rfl | hv
  · exact Std.ReflCmp.isLE_rfl
  · rw [(List.pairwise_cons.1 h).1 v hv]
    rfl

/-- Without its first tuple an ascending list contains what it did except for that tuple. -/
lemma contains_tail (h : Ascending (t :: rows)) (u : Tuple) :
    contains rows u = (contains (t :: rows) u && !Tuple.equal u t) := by
  rw [contains_cons]
  cases hut : Tuple.equal u t with
  | false => rw [Bool.false_or, Bool.not_false, Bool.and_true]
  | true =>
    rw [Bool.not_true, Bool.and_false, contains, List.any_eq_false]
    intro v hv
    rw [Tuple.equal_congr_left hut, equal_eq_false_of_lt ((List.pairwise_cons.1 h).1 v hv)]
    exact Bool.false_ne_true

/-- Ascending lists match if they contain the same tuples, up to equality. -/
theorem matching_of_contains (h : Ascending rows) (h' : Ascending rows')
    (hcontains : ∀ t, contains rows t = contains rows' t) : Matching rows rows' := by
  induction rows generalizing rows' with
  | nil =>
    cases rows' with
    | nil => exact .nil
    | cons u rows' =>
      have hu := (hcontains u).trans (contains_of_mem List.mem_cons_self)
      cases hu
  | cons t rows ih =>
    cases rows' with
    | nil =>
      have ht := (hcontains t).symm.trans (contains_of_mem List.mem_cons_self)
      cases ht
    | cons u rows' =>
      have htu : (Tuple.compare t u).isLE = true :=
        isLE_of_contains h ((hcontains u).trans (contains_of_mem List.mem_cons_self))
      have hut : (Tuple.compare u t).isLE = true :=
        isLE_of_contains h' ((hcontains t).symm.trans (contains_of_mem List.mem_cons_self))
      have hequal : Tuple.equal t u = true :=
        Tuple.equal_iff.2 (Std.OrientedCmp.isLE_antisymm htu hut)
      refine .cons hequal (ih (List.pairwise_cons.1 h).2 (List.pairwise_cons.1 h').2 fun v => ?_)
      rw [contains_tail h, contains_tail h', hcontains,
        Tuple.equal_congr (Tuple.equal_refl v) hequal]

/-- Lists that contain the same tuples do so when the tuples are changed by a function that takes
equal tuples to equal ones. -/
lemma contains_map_congr {change : Tuple → Tuple}
    (hchange : ∀ t u, Tuple.equal t u = true → Tuple.equal (change t) (change u) = true)
    (h : ∀ t, contains rows t = contains rows' t) (t : Tuple) :
    contains (rows.map change) t = contains (rows'.map change) t := by
  have hsub : ∀ {some others : List Tuple}, (∀ u, contains some u = contains others u) →
      contains (some.map change) t = true → contains (others.map change) t = true := by
    intro some others hsame hsome
    obtain ⟨w, hw, htw⟩ := contains_iff.1 hsome
    obtain ⟨u, hu, rfl⟩ := List.mem_map.1 hw
    obtain ⟨v, hv, huv⟩ := contains_iff.1 ((hsame u).symm.trans (contains_of_mem hu))
    refine contains_iff.2 ⟨change v, List.mem_map_of_mem hv, ?_⟩
    rw [Tuple.equal_congr_left htw]
    exact hchange u v huv
  rw [Bool.eq_iff_iff]
  exact ⟨hsub h, hsub fun u => (h u).symm⟩

end TupleSet

end RelationalAlgebra
