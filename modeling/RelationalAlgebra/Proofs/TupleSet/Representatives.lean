import Mathlib.Data.Finset.Card
import RelationalAlgebra.Proofs.TupleSet.Matching

/-!
# Classes and representatives

The order identifies tuples that hold different scalars, so that the elements of a set of tuples
are classes of equal tuples, and the set holds one tuple of each class: its representative.  The
set of a list has one representative for each class that occurs in the list, the last tuple of the
class.  An ascending list is given by its representatives.

A set can also be made from a list by sorting it stably and keeping the last of each run of equal
tuples (`ofList_eq_lastOfRuns`): sorting brings the tuples of each class together, in the order in
which they were.
-/

namespace RelationalAlgebra

/-- Equality in the order, as an equivalence of tuples. -/
def Tuple.setoid : Setoid Tuple where
  r t u := Tuple.equal t u = true
  iseqv := {
    refl := Tuple.equal_refl
    symm := fun {t u} h => by rwa [Tuple.equal_comm]
    trans := fun {t u v} htu huv => by rwa [Tuple.equal_congr_left htu] }

instance : DecidableEq (Quotient Tuple.setoid) :=
  @Quotient.decidableEq _ _ fun t u => inferInstanceAs (Decidable (Tuple.equal t u = true))

namespace TupleSet

variable {rows rows' set other : List Tuple} {t u : Tuple}

/-! ## Classes -/

/-- The classes of equal tuples that occur in a list. -/
def classes (rows : List Tuple) : Finset (Quotient Tuple.setoid) :=
  (rows.map (Quotient.mk Tuple.setoid)).toFinset

/-- The class of a tuple occurs in a list if the list contains the tuple. -/
lemma mk_mem_classes : Quotient.mk Tuple.setoid t ∈ classes rows ↔ contains rows t = true := by
  rw [classes, List.mem_toFinset, List.mem_map, contains_iff]
  refine exists_congr fun u => and_congr_right fun _ => ?_
  rw [eq_comm, Quotient.eq]
  rfl

/-- The same classes occur in lists that contain the same tuples. -/
lemma classes_eq_iff : classes rows = classes rows' ↔ ∀ t, contains rows t = contains rows' t := by
  constructor
  · intro h t
    rw [Bool.eq_iff_iff, ← mk_mem_classes, ← mk_mem_classes, h]
  · intro h
    ext c
    induction c using Quotient.ind with
    | _ t => rw [mk_mem_classes, mk_mem_classes, h]

/-- The classes of a list are those of its set. -/
lemma classes_ofList (rows : List Tuple) : classes (ofList rows) = classes rows :=
  classes_eq_iff.2 (contains_ofList rows)

/-- An ascending list has one tuple for each class. -/
lemma Ascending.card_classes (h : Ascending set) : (classes set).card = set.length := by
  have hnodup : (set.map (Quotient.mk Tuple.setoid)).Nodup := by
    refine List.pairwise_map.2 (h.pairwise_not_equal.imp fun {t u} hne heq => ?_)
    have hequal : Tuple.equal t u = true := Quotient.exact heq
    rw [hne] at hequal
    cases hequal
  rw [classes, List.toFinset_card_of_nodup hnodup, List.length_map]

/-- The set of a list has one tuple for each class that occurs in the list. -/
theorem length_ofList (rows : List Tuple) : (ofList rows).length = (classes rows).card := by
  rw [← classes_ofList, (ascending_ofList rows).card_classes]

/-! ## Representatives -/

/-- The tuple of a set that is equal to a given one, if there is one. -/
def representative (set : List Tuple) (t : Tuple) : Option Tuple :=
  set.find? (Tuple.equal t)

/-- The first tuple of a list represents its class. -/
lemma representative_cons (t u : Tuple) (set : List Tuple) :
    representative (u :: set) t = if Tuple.equal t u then some u else representative set t := by
  unfold representative
  rw [List.find?_cons]
  cases Tuple.equal t u <;> rfl

/-- A set contains a tuple if the class of the tuple has a representative. -/
lemma contains_eq_isSome (set : List Tuple) (t : Tuple) :
    contains set t = (representative set t).isSome := by
  rw [Bool.eq_iff_iff, contains, representative, List.find?_isSome, List.any_eq_true]

/-- Equal tuples are contained in the same sets. -/
lemma contains_congr (set : List Tuple) (h : Tuple.equal t u = true) :
    contains set t = contains set u := by
  rw [contains, contains, funext (Tuple.equal_congr_left h)]

/-- A test that does not tell equal tuples apart keeps the representatives of whole classes. -/
lemma representative_filter (rows : List Tuple) {keep : Tuple → Bool} {t : Tuple}
    (hkeep : ∀ u, Tuple.equal t u = true → keep u = keep t) :
    representative (rows.filter keep) t = if keep t then representative rows t else none := by
  induction rows with
  | nil => cases keep t <;> rfl
  | cons u rows ih =>
    rw [representative_cons]
    cases htu : Tuple.equal t u with
    | true =>
      rw [List.filter_cons, hkeep u htu]
      cases hkept : keep t with
      | true => rw [if_pos rfl, if_pos rfl, if_pos rfl, representative_cons, if_pos htu]
      | false =>
        rw [hkept] at ih
        rw [if_neg Bool.false_ne_true, if_neg Bool.false_ne_true, ih]
        rfl
    | false =>
      rw [if_neg Bool.false_ne_true, ← ih, List.filter_cons]
      cases keep u with
      | true => rw [if_pos rfl, representative_cons, htu, if_neg Bool.false_ne_true]
      | false => rfl

/-- The tuples of an ascending list represent their own classes. -/
lemma Ascending.mem_iff_representative (h : Ascending set) :
    t ∈ set ↔ representative set t = some t := by
  constructor
  · intro ht
    have hsome : (representative set t).isSome = true := by
      rw [← contains_eq_isSome, contains_of_mem ht]
    obtain ⟨u, hu⟩ := Option.isSome_iff_exists.1 hsome
    have hequal : Tuple.equal t u = true := List.find?_some hu
    rw [hu, h.eq_of_equal ht (List.mem_of_find?_eq_some hu) hequal]
  · exact List.mem_of_find?_eq_some

/-- Ascending lists with the same representatives are the same. -/
theorem Ascending.ext_representative (h : Ascending set) (hother : Ascending other)
    (hsame : ∀ t, representative set t = representative other t) : set = other := by
  refine h.ext hother fun t => ?_
  rw [h.mem_iff_representative, hother.mem_iff_representative, hsame]

/-- No tuple that comes before the first tuple of an ascending list is represented in it. -/
lemma representative_eq_none_of_lt (h : Ascending (u :: set)) (htu : Tuple.compare t u = .lt) :
    representative (u :: set) t = none := by
  refine List.find?_eq_none.2 fun v hv hequal => ?_
  have hlt := (List.pairwise_cons.1 (ascending_cons_cons h htu)).1 v hv
  rw [equal_eq_false_of_lt hlt] at hequal
  cases hequal

/-- Insertion leaves the representatives of a set alone, and adds the tuple if its class has
none. -/
lemma representative_insert (h : Ascending set) (t u : Tuple) :
    representative (insert u set) t = (representative set t).or (representative [u] t) := by
  induction set with
  | nil => rfl
  | cons v rest ih =>
    unfold insert
    cases hcmp : Tuple.compare u v with
    | lt =>
      change representative (u :: v :: rest) t = _
      cases htu : Tuple.equal t u with
      | true =>
        -- The new tuple comes first, so that nothing equal to it has been there.
        have htv : Tuple.compare t v = .lt := by
          rw [Tuple.compare_congr htu (Tuple.equal_refl v), hcmp]
        rw [representative_eq_none_of_lt h htv, Option.none_or, representative_cons,
          representative_cons t u [], if_pos htu, if_pos htu]
      | false =>
        rw [representative_cons, representative_cons t u [], htu]
        exact (Option.or_none).symm
    | eq =>
      change representative (v :: rest) t = _
      have hsame : Tuple.equal t u = Tuple.equal t v :=
        Tuple.equal_congr (Tuple.equal_refl t) (Tuple.equal_iff.2 hcmp)
      rw [representative_cons, representative_cons t u [], hsame]
      cases Tuple.equal t v with
      | true => rfl
      | false => exact (Option.or_none).symm
    | gt =>
      change representative (v :: insert u rest) t = _
      rw [representative_cons, representative_cons, ih (List.pairwise_cons.1 h).2]
      cases Tuple.equal t v <;> rfl

/-- In the set of a list, a class is represented by its last tuple. -/
theorem representative_ofList (rows : List Tuple) (t : Tuple) :
    representative (ofList rows) t = rows.findRev? (Tuple.equal t) := by
  induction rows with
  | nil => rfl
  | cons u rows ih =>
    change representative (insert u (ofList rows)) t = _
    rw [representative_insert (ascending_ofList rows), ih, List.findRev?_eq_find?_reverse,
      List.findRev?_eq_find?_reverse, List.reverse_cons, List.find?_append]
    rfl

/-- In an ascending list there is only one tuple that can be found, from either end. -/
lemma Ascending.findRev?_eq (h : Ascending set) (t : Tuple) :
    set.findRev? (Tuple.equal t) = representative set t := by
  rw [← representative_ofList, ofList_of_ascending h]

/-- In the set of the tuples of two sets, the second one decides on the representatives. -/
lemma representative_ofList_append (h : Ascending set) (hother : Ascending other) (t : Tuple) :
    representative (ofList (set ++ other)) t =
      (representative other t).or (representative set t) := by
  rw [representative_ofList, ← h.findRev?_eq, ← hother.findRev?_eq,
    List.findRev?_eq_find?_reverse, List.findRev?_eq_find?_reverse,
    List.findRev?_eq_find?_reverse, List.reverse_append, List.find?_append]

/-! ## Sorting -/

/-- The tuples of a list in ascending order. Equal ones keep their order. -/
def sorted (rows : List Tuple) : List Tuple :=
  rows.mergeSort fun t u => (Tuple.compare t u).isLE

/-- The last tuple of each run of equal tuples. -/
def lastOfRuns : List Tuple → List Tuple
  | [] => []
  | [t] => [t]
  | t :: u :: rest =>
    if Tuple.equal t u then lastOfRuns (u :: rest) else t :: lastOfRuns (u :: rest)

/-- Of two tuples, one does not come after the other. -/
lemma isLE_or_isLE (t u : Tuple) :
    ((Tuple.compare t u).isLE || (Tuple.compare u t).isLE) = true := by
  have hswap : Tuple.compare u t = (Tuple.compare t u).swap := Std.OrientedCmp.eq_swap
  rw [hswap]
  cases Tuple.compare t u <;> rfl

/-- No tuple of a sorted list comes after a later one. -/
lemma pairwise_sorted (rows : List Tuple) :
    (sorted rows).Pairwise fun t u => (Tuple.compare t u).isLE = true :=
  List.pairwise_mergeSort (fun _ _ _ => Std.TransCmp.isLE_trans) isLE_or_isLE rows

/-- Sorting leaves the tuples of each class in their order. -/
lemma filter_sorted (rows : List Tuple) (t : Tuple) :
    (sorted rows).filter (Tuple.equal t) = rows.filter (Tuple.equal t) := by
  have hclass : (rows.filter (Tuple.equal t)).Pairwise
      fun u v => (Tuple.compare u v).isLE = true := by
    refine List.pairwise_of_forall_mem_list fun u hu v hv => ?_
    have htu := List.of_mem_filter hu
    have htv := List.of_mem_filter hv
    rw [← Tuple.compare_congr htu htv]
    exact Std.ReflCmp.isLE_rfl
  have hsub : (rows.filter (Tuple.equal t)).Sublist (sorted rows) :=
    List.sublist_mergeSort (fun _ _ _ => Std.TransCmp.isLE_trans) isLE_or_isLE hclass
      List.filter_sublist
  have hperm : ((sorted rows).filter (Tuple.equal t)).Perm (rows.filter (Tuple.equal t)) :=
    (List.mergeSort_perm rows _).filter _
  have hfilter := hsub.filter (Tuple.equal t)
  simp only [List.filter_filter, Bool.and_self] at hfilter
  exact (hfilter.eq_of_length hperm.length_eq.symm).symm

/-- The first run of a list is kept by a tuple that is equal to the first one. -/
lemma exists_lastOfRuns_cons (t : Tuple) (rest : List Tuple) :
    ∃ u later, lastOfRuns (t :: rest) = u :: later ∧ Tuple.equal t u = true := by
  induction rest generalizing t with
  | nil => exact ⟨t, [], rfl, Tuple.equal_refl t⟩
  | cons v rest ih =>
    unfold lastOfRuns
    cases htv : Tuple.equal t v with
    | true =>
      obtain ⟨u, later, hruns, hvu⟩ := ih v
      refine ⟨u, later, hruns, ?_⟩
      rwa [Tuple.equal_congr_left htv]
    | false => exact ⟨t, lastOfRuns (v :: rest), rfl, Tuple.equal_refl t⟩

/-- The set of a sorted list holds the last of each run. -/
lemma ofList_eq_lastOfRuns_of_pairwise
    (h : rows.Pairwise fun t u => (Tuple.compare t u).isLE = true) :
    ofList rows = lastOfRuns rows := by
  induction rows with
  | nil => rfl
  | cons t rows ih =>
    obtain ⟨hfirst, hrows⟩ := List.pairwise_cons.1 h
    change insert t (ofList rows) = _
    rw [ih hrows]
    cases rows with
    | nil => rfl
    | cons u rest =>
      obtain ⟨v, later, hruns, huv⟩ := exists_lastOfRuns_cons u rest
      have hcompare : Tuple.compare t v = Tuple.compare t u :=
        Tuple.compare_congr (Tuple.equal_refl t) (by rwa [Tuple.equal_comm])
      rw [lastOfRuns, hruns, insert, hcompare]
      have hle := hfirst u List.mem_cons_self
      cases hcmp : Tuple.compare t u with
      | lt => rw [equal_eq_false_of_lt hcmp, if_neg Bool.false_ne_true]
      | eq => rw [if_pos (Tuple.equal_iff.2 hcmp)]
      | gt =>
        rw [hcmp] at hle
        cases hle

/-- The set of a list is what is left of the sorted list if the last of each run is kept. -/
theorem ofList_eq_lastOfRuns (rows : List Tuple) : ofList rows = lastOfRuns (sorted rows) := by
  rw [← ofList_eq_lastOfRuns_of_pairwise (pairwise_sorted rows)]
  refine (ascending_ofList rows).ext_representative (ascending_ofList _) fun t => ?_
  rw [representative_ofList, representative_ofList, List.findRev?_eq_find?_reverse,
    List.findRev?_eq_find?_reverse, ← List.getLast?_filter, ← List.getLast?_filter, filter_sorted]

end TupleSet

end RelationalAlgebra
