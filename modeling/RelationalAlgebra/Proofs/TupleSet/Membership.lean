import Mathlib.Data.List.Forall2
import Mathlib.Data.List.Pairwise
import RelationalAlgebra.Proofs.Scalar.Order
import RelationalAlgebra.TupleSet

/-!
# Membership in sets of tuples

Insertion keeps a list of tuples strictly ascending, so that the set of any list is ascending,
and all tuples of the set come from the list.

A set contains a tuple when it holds one that is equal to it.  Two statements about the set of a
list are used throughout: it contains what the list contains, and if no two tuples of the list are
equal then it holds exactly the tuples of the list, so that none is lost and the sizes are the
same.

Tuples of one length are compared part by part, so that concatenations of tuples from two sets are
equal only if both parts are.
-/

namespace RelationalAlgebra

namespace Tuple

/-- Equality of tuples is the equality of the order. -/
lemma equal_iff {s t : Tuple} : equal s t = true ↔ compare s t = .eq :=
  beq_iff_eq

/-- A tuple is equal to itself. -/
lemma equal_refl (t : Tuple) : equal t t = true :=
  equal_iff.2 Std.ReflCmp.compare_self

/-- The same tuple is an equal one. -/
lemma equal_of_eq {s t : Tuple} (h : s = t) : equal s t = true :=
  h ▸ equal_refl s

/-- Equality of tuples does not depend on their order. -/
lemma equal_comm (s t : Tuple) : equal s t = equal t s := by
  rw [Bool.eq_iff_iff, equal_iff, equal_iff]
  exact ⟨Std.OrientedCmp.eq_symm, Std.OrientedCmp.eq_symm⟩

/-- Equal tuples are equal to the same tuples. -/
lemma equal_congr_left {s t : Tuple} (h : equal s t = true) (u : Tuple) :
    equal s u = equal t u := by
  unfold equal
  rw [Std.TransCmp.congr_left (equal_iff.1 h)]

/-- Two tuples are equal if they have equal values position by position. -/
theorem equal_iff_forall₂ {s t : Tuple} :
    equal s t = true ↔ List.Forall₂ (fun a b => a.compare b = .eq) s t := by
  rw [equal_iff]
  induction s generalizing t with
  | nil =>
    cases t with
    | nil => simp [compare, List.compareLex_nil_nil]
    | cons b t => simp [compare, List.compareLex_nil_cons]
  | cons a s ih =>
    cases t with
    | nil => simp [compare, List.compareLex_cons_nil]
    | cons b t =>
      have hcons : compare (a :: s) (b :: t) = (a.compare b).then (compare s t) :=
        List.compareLex_cons_cons
      rw [hcons, Ordering.then_eq_eq, List.forall₂_cons, ih]

/-- Concatenations are compared part by part if their first parts have one length. -/
lemma compare_append {s t : Tuple} (h : s.length = t.length) (u v : Tuple) :
    compare (s ++ u) (t ++ v) = (compare s t).then (compare u v) := by
  induction s generalizing t with
  | nil =>
    obtain rfl := List.length_eq_zero_iff.1 h.symm
    rfl
  | cons a s ih =>
    obtain ⟨b, t, rfl⟩ := List.exists_cons_of_length_eq_add_one h.symm
    have hcons : ∀ p q : Tuple, compare (a :: p) (b :: q) = (a.compare b).then (compare p q) :=
      fun _ _ => List.compareLex_cons_cons
    rw [List.cons_append, List.cons_append, hcons, hcons, ih (Nat.succ.inj h),
      Ordering.then_assoc]

/-- Concatenations are equal exactly if both parts are. -/
lemma equal_append {s t : Tuple} (h : s.length = t.length) {u v : Tuple} :
    equal (s ++ u) (t ++ v) = true ↔ equal s t = true ∧ equal u v = true := by
  rw [equal_iff, equal_iff, equal_iff, compare_append h, Ordering.then_eq_eq]

end Tuple

namespace TupleSet

/-! ## Insertion -/

/-- A set has no tuples but the one that was added and those it had. -/
lemma eq_or_mem_of_mem_insert {t u : Tuple} {set : List Tuple} (h : u ∈ insert t set) :
    u = t ∨ u ∈ set := by
  induction set with
  | nil => exact Or.inl (List.mem_singleton.1 h)
  | cons v rest ih =>
    unfold insert at h
    cases hcmp : Tuple.compare t v with
    | lt =>
      rw [hcmp] at h
      exact List.mem_cons.1 h
    | eq =>
      rw [hcmp] at h
      exact Or.inr h
    | gt =>
      rw [hcmp] at h
      rcases List.mem_cons.1 h with rfl | hrest
      · exact Or.inr List.mem_cons_self
      · exact (ih hrest).imp_right (List.mem_cons_of_mem v)

/-- A set has no tuples but those of the list that it is made from. -/
lemma mem_of_mem_ofList {rows : List Tuple} {t : Tuple} (h : t ∈ ofList rows) : t ∈ rows := by
  induction rows with
  | nil => exact h
  | cons u rows ih =>
    rcases eq_or_mem_of_mem_insert h with rfl | hrest
    · exact List.mem_cons_self
    · exact List.mem_cons_of_mem u (ih hrest)

/-- What precedes a tuple precedes everything that follows the tuple. -/
lemma ascending_cons_cons {t u : Tuple} {rest : List Tuple} (h : Ascending (u :: rest))
    (htu : Tuple.compare t u = .lt) : Ascending (t :: u :: rest) := by
  refine List.pairwise_cons.2 ⟨?_, h⟩
  intro v hv
  rcases List.mem_cons.1 hv with rfl | hv
  · exact htu
  · exact Std.TransCmp.lt_trans htu ((List.pairwise_cons.1 h).1 v hv)

/-- Insertion keeps a list ascending. -/
lemma ascending_insert {set : List Tuple} (h : Ascending set) (t : Tuple) :
    Ascending (insert t set) := by
  induction set with
  | nil => exact List.pairwise_singleton _ t
  | cons u rest ih =>
    unfold insert
    cases hcmp : Tuple.compare t u with
    | lt => exact ascending_cons_cons h hcmp
    | eq => exact h
    | gt =>
      refine List.pairwise_cons.2 ⟨?_, ih h.of_cons⟩
      intro v hv
      rcases eq_or_mem_of_mem_insert hv with rfl | hv
      · exact Std.OrientedCmp.lt_of_gt hcmp
      · exact (List.pairwise_cons.1 h).1 v hv

/-- The set of a list is ascending. -/
theorem ascending_ofList (rows : List Tuple) : Ascending (ofList rows) := by
  induction rows with
  | nil => exact List.Pairwise.nil
  | cons t rows ih => exact ascending_insert ih t

/-! ## Equal tuples in a set -/

variable {rows set : List Tuple} {t u : Tuple}

/-- A set contains what is equal to one of its tuples. -/
lemma contains_iff : contains set t = true ↔ ∃ u ∈ set, Tuple.equal t u = true :=
  List.any_eq_true

/-- A set contains its own tuples. -/
lemma contains_of_mem (h : t ∈ set) : contains set t = true :=
  contains_iff.2 ⟨t, h, Tuple.equal_refl t⟩

/-- A list with one more tuple contains that tuple and what it contained before. -/
lemma contains_cons : contains (t :: set) u = (Tuple.equal u t || contains set u) :=
  List.any_cons

/-- Two lists together contain what either of them contains. -/
lemma contains_append {other : List Tuple} :
    contains (set ++ other) t = (contains set t || contains other t) :=
  List.any_append

/-! ## The set of a list -/

/-- Insertion adds the tuple to what a set contains, and nothing else. -/
lemma contains_insert (t : Tuple) (set : List Tuple) (u : Tuple) :
    contains (insert t set) u = contains (t :: set) u := by
  induction set with
  | nil => rfl
  | cons v rest ih =>
    unfold insert
    cases hcmp : Tuple.compare t v with
    | lt => rfl
    | eq =>
      have hsame : Tuple.equal u t = Tuple.equal u v := by
        rw [Tuple.equal_comm u t, Tuple.equal_congr_left (Tuple.equal_iff.2 hcmp),
          Tuple.equal_comm]
      simp only [contains_cons, hsame, Bool.or_self_left]
    | gt =>
      simp only [contains_cons, ih]
      exact Bool.or_left_comm _ _ _

/-- The set of a list contains what the list contains. -/
theorem contains_ofList (rows : List Tuple) (t : Tuple) :
    contains (ofList rows) t = contains rows t := by
  induction rows with
  | nil => rfl
  | cons u rows ih =>
    change contains (insert u (ofList rows)) t = _
    rw [contains_insert, contains_cons, contains_cons, ih]

/-- A tuple that a set does not contain is added to the tuples of the set. -/
lemma insert_perm (h : contains set t = false) : (insert t set).Perm (t :: set) := by
  induction set with
  | nil => rfl
  | cons u rest ih =>
    rw [contains_cons, Bool.or_eq_false_iff] at h
    obtain ⟨hne, hrest⟩ := h
    unfold insert
    cases hcmp : Tuple.compare t u with
    | lt => rfl
    | eq =>
      rw [Tuple.equal_iff.2 hcmp] at hne
      cases hne
    | gt => exact ((ih hrest).cons u).trans (List.Perm.swap t u rest)

/-- If no two tuples of a list are equal, its set holds exactly the tuples of the list. -/
theorem ofList_perm (h : rows.Pairwise fun t u => Tuple.equal t u = false) :
    (ofList rows).Perm rows := by
  induction rows with
  | nil => rfl
  | cons t rows ih =>
    obtain ⟨hne, hrows⟩ := List.pairwise_cons.1 h
    have hfresh : contains (ofList rows) t = false := by
      rw [contains_ofList, contains, List.any_eq_false]
      intro u hu
      rw [hne u hu]
      exact Bool.false_ne_true
    exact (insert_perm hfresh).trans ((ih hrows).cons t)

/-! ## Ascending lists -/

/-- A tuple that precedes another one is not equal to it. -/
lemma equal_eq_false_of_lt (h : Tuple.compare t u = .lt) : Tuple.equal t u = false := by
  rw [Tuple.equal, h]
  rfl

/-- No two tuples of an ascending list are equal. -/
lemma Ascending.pairwise_not_equal (h : Ascending set) :
    set.Pairwise fun t u => Tuple.equal t u = false :=
  h.imp equal_eq_false_of_lt

/-- In an ascending list, equal tuples are one tuple. -/
lemma Ascending.eq_of_equal (h : Ascending set) (ht : t ∈ set) (hu : u ∈ set)
    (hequal : Tuple.equal t u = true) : t = u := by
  have hsymm : Std.Symm fun v w => Tuple.equal v w = false :=
    ⟨fun v w hvw => by rwa [Tuple.equal_comm]⟩
  by_contra hne
  have hfalse := h.pairwise_not_equal.forall ht hu hne
  rw [hequal] at hfalse
  cases hfalse

/-- An ascending list is given by the tuples that it holds. -/
theorem Ascending.ext {other : List Tuple} (h : Ascending set) (hother : Ascending other)
    (hmem : ∀ t, t ∈ set ↔ t ∈ other) : set = other := by
  have hnodup : ∀ {tuples : List Tuple}, Ascending tuples → tuples.Nodup := fun hasc =>
    hasc.imp fun {t u} hlt heq => by
      have hself : Tuple.compare u u = .eq := Std.ReflCmp.compare_self
      rw [heq, hself] at hlt
      cases hlt
  have hperm := (List.perm_ext_iff_of_nodup (hnodup h) (hnodup hother)).2 hmem
  refine hperm.eq_of_pairwise (fun t u _ _ htu hut => ?_) h hother
  rw [Std.OrientedCmp.gt_of_lt hut] at htu
  cases htu

/-- A list that holds the tuples of an ascending list, in any order and however often, has that
list as its set. -/
theorem ofList_eq_of_mem_iff (h : Ascending set) (hmem : ∀ t, t ∈ rows ↔ t ∈ set) :
    ofList rows = set := by
  refine (ascending_ofList rows).ext h fun t => ⟨fun ht => ?_, fun ht => ?_⟩
  · exact (hmem t).1 (mem_of_mem_ofList ht)
  · have hcontains : contains (ofList rows) t = true := by
      rw [contains_ofList]
      exact contains_of_mem ((hmem t).2 ht)
    obtain ⟨u, hu, hequal⟩ := contains_iff.1 hcontains
    have huset : u ∈ set := (hmem u).1 (mem_of_mem_ofList hu)
    rwa [h.eq_of_equal ht huset hequal]

/-- The set of an ascending list is the list itself. -/
lemma ofList_of_ascending (h : Ascending rows) : ofList rows = rows :=
  ofList_eq_of_mem_iff h fun _ => Iff.rfl

end TupleSet

end RelationalAlgebra
