import Mathlib.Algebra.Ring.Nat
import RelationalAlgebra.Proofs.Relation.Groups
import RelationalAlgebra.Proofs.TupleSet.Matching

/-!
# Groups partition the tuples

The groups of some tuples are their classes under equality of the values at the grouping
positions.  A group is found by the order of its key, just as a tuple is in a set, so that the keys
of the groups are the set of the keys of the tuples: there is one group for each class
(`groups_keys_matching`).  Its members are all tuples of the class, in the order in which they come
(`members_eq_withKey`), so that none is lost and none is counted twice (`flatMap_members_perm`).
-/

namespace RelationalAlgebra.Relation

open TupleSet (Matching Ascending)

variable {positions : List Nat} {tuples : List Tuple}

/-! ## Keys -/

/-- A tuple is put to the keys of the groups as it is put into a set. -/
lemma addToGroup_keys_matching {key t : Tuple} {set : List Tuple} {found : List Group}
    (h : Matching set (found.map Group.key)) :
    Matching (TupleSet.insert key set) ((addToGroup key t found).map Group.key) := by
  induction found generalizing set with
  | nil =>
    cases h
    exact .cons (Tuple.equal_refl key) .nil
  | cons old rest ih =>
    cases h with
    | @cons k _ set _ hold hrest =>
      have hcompare : Tuple.compare key k = Tuple.compare key old.key :=
        Tuple.compare_congr (Tuple.equal_refl key) hold
      unfold TupleSet.insert addToGroup
      cases hcmp : Tuple.compare key old.key with
      | lt =>
        rw [hcompare, hcmp]
        exact .cons (Tuple.equal_refl key) (.cons hold hrest)
      | eq =>
        rw [hcompare, hcmp]
        refine .cons ?_ hrest
        rw [Tuple.equal_comm, Tuple.equal_iff, hcompare, hcmp]
      | gt =>
        rw [hcompare, hcmp]
        exact .cons hold (ih hrest)

/-- The keys of the groups are the set of the keys of the tuples. -/
theorem groups_keys_matching (positions : List Nat) (tuples : List Tuple) :
    Matching (TupleSet.ofList (tuples.map (Tuple.pick positions)))
      ((groups positions tuples).map Group.key) := by
  induction tuples with
  | nil => exact .nil
  | cons t tuples ih => exact addToGroup_keys_matching ih

/-- The groups come in the order of their keys, and no two have equal keys. -/
lemma groups_keys_ascending (positions : List Nat) (tuples : List Tuple) :
    Ascending ((groups positions tuples).map Group.key) :=
  (groups_keys_matching positions tuples).ascending (TupleSet.ascending_ofList _)

/-- Every tuple belongs to a group. -/
lemma exists_group (positions : List Nat) {t : Tuple} (ht : t ∈ tuples) :
    ∃ group ∈ groups positions tuples, Tuple.equal (t.pick positions) group.key = true := by
  have hcontains : TupleSet.contains ((groups positions tuples).map Group.key)
      (t.pick positions) = true := by
    rw [← (groups_keys_matching positions tuples).contains_eq (Tuple.equal_refl _),
      TupleSet.contains_ofList]
    exact TupleSet.contains_of_mem (List.mem_map_of_mem ht)
  obtain ⟨key, hkey, hequal⟩ := TupleSet.contains_iff.1 hcontains
  obtain ⟨group, hgroup, rfl⟩ := List.mem_map.1 hkey
  exact ⟨group, hgroup, hequal⟩

/-! ## Members -/

/-- The tuples of a list with a given key, up to equality. -/
def withKey (positions : List Nat) (tuples : List Tuple) (key : Tuple) : List Tuple :=
  tuples.filter fun t => Tuple.equal (t.pick positions) key

/-- One more tuple is among those with its key. -/
lemma withKey_cons_of_equal {t key : Tuple} (h : Tuple.equal (t.pick positions) key = true) :
    withKey positions (t :: tuples) key = t :: withKey positions tuples key := by
  rw [withKey, List.filter_cons, if_pos h, withKey]

/-- One more tuple is not among those with another key. -/
lemma withKey_cons_of_not_equal {t key : Tuple}
    (h : Tuple.equal (t.pick positions) key = false) :
    withKey positions (t :: tuples) key = withKey positions tuples key := by
  rw [withKey, List.filter_cons, h, if_neg Bool.false_ne_true, withKey]

/-- Equal keys are those of the same tuples. -/
lemma withKey_congr {key key' : Tuple} (h : Tuple.equal key key' = true) :
    withKey positions tuples key = withKey positions tuples key' :=
  List.filter_congr fun _ _ => Tuple.equal_congr (Tuple.equal_refl _) h

/-- No tuple has a key that lies between the keys of all groups. -/
lemma withKey_eq_nil {key : Tuple} {found : List Group}
    (hcovered : ∀ t ∈ tuples, Tuple.equal (t.pick positions) key = true →
      ∃ group ∈ found, Tuple.equal key group.key = true)
    (hfound : ∀ group ∈ found, Tuple.equal key group.key = false) :
    withKey positions tuples key = [] := by
  refine List.filter_eq_nil_iff.2 fun t ht hequal => ?_
  obtain ⟨group, hgroup, hkey⟩ := hcovered t ht hequal
  rw [hfound group hgroup] at hkey
  cases hkey

/-- A key that does not come after that of the first group is not the key of a later one. -/
lemma equal_eq_false_of_isLE {key : Tuple} {old : Group} {rest : List Group}
    (hascending : Ascending ((old :: rest).map Group.key))
    (h : (Tuple.compare key old.key).isLE = true) :
    ∀ group ∈ rest, Tuple.equal key group.key = false := by
  intro group hgroup
  have hlt := (List.pairwise_cons.1 hascending).1 _ (List.mem_map_of_mem hgroup)
  exact TupleSet.equal_eq_false_of_lt (Std.TransCmp.lt_of_isLE_of_lt h hlt)

/-- Adding a tuple to groups that hold all tuples with their keys keeps them so. -/
lemma addToGroup_members {t : Tuple} {found : List Group}
    (hascending : Ascending (found.map Group.key))
    (hcovered : ∀ u ∈ tuples, Tuple.equal (u.pick positions) (t.pick positions) = true →
      ∃ group ∈ found, Tuple.equal (t.pick positions) group.key = true)
    (hmembers : ∀ group ∈ found, group.members = withKey positions tuples group.key) :
    ∀ group ∈ addToGroup (t.pick positions) t found,
      group.members = withKey positions (t :: tuples) group.key := by
  have hself : Tuple.equal (t.pick positions) (t.pick positions) = true := Tuple.equal_refl _
  induction found with
  | nil =>
    intro group hgroup
    rw [List.mem_singleton.1 hgroup, withKey_cons_of_equal hself,
      withKey_eq_nil hcovered fun _ h => absurd h List.not_mem_nil]
  | cons old rest ih =>
    have hkept : ∀ group ∈ old :: rest, Tuple.equal (t.pick positions) group.key = false →
        group.members = withKey positions (t :: tuples) group.key := by
      intro group hgroup hother
      rw [withKey_cons_of_not_equal hother]
      exact hmembers group hgroup
    unfold addToGroup
    cases hcmp : Tuple.compare (t.pick positions) old.key with
    | lt =>
      -- The key precedes all others, so that its group is new.
      have hnew : ∀ group ∈ old :: rest, Tuple.equal (t.pick positions) group.key = false :=
        List.forall_mem_cons.2 ⟨TupleSet.equal_eq_false_of_lt hcmp,
          equal_eq_false_of_isLE hascending (by rw [hcmp]; rfl)⟩
      intro group hgroup
      rcases List.mem_cons.1 hgroup with rfl | hgroup
      · rw [withKey_cons_of_equal hself, withKey_eq_nil hcovered hnew]
      · exact hkept group hgroup (hnew group hgroup)
    | eq =>
      have hequal : Tuple.equal (t.pick positions) old.key = true := Tuple.equal_iff.2 hcmp
      intro group hgroup
      rcases List.mem_cons.1 hgroup with rfl | hgroup
      · rw [withKey_cons_of_equal hself, withKey_congr hequal,
          ← hmembers old List.mem_cons_self]
      · exact hkept group (List.mem_cons_of_mem old hgroup)
          (equal_eq_false_of_isLE hascending (by rw [hcmp]; rfl) group hgroup)
    | gt =>
      have hother : Tuple.equal (t.pick positions) old.key = false := by
        rw [Tuple.equal, hcmp]
        rfl
      intro group hgroup
      rcases List.mem_cons.1 hgroup with rfl | hgroup
      · exact hkept group List.mem_cons_self hother
      · refine ih (List.pairwise_cons.1 hascending).2 (fun u hu hequal => ?_)
          (fun g hg => hmembers g (List.mem_cons_of_mem old hg)) group hgroup
        obtain ⟨g, hg, hkey⟩ := hcovered u hu hequal
        rcases List.mem_cons.1 hg with rfl | hg
        · rw [hother] at hkey
          cases hkey
        · exact ⟨g, hg, hkey⟩

/-- The members of a group are all tuples with its key, in the order in which they come. -/
theorem members_eq_withKey (positions : List Nat) (tuples : List Tuple) :
    ∀ group ∈ groups positions tuples,
      group.members = withKey positions tuples group.key := by
  induction tuples with
  | nil => exact fun group hgroup => absurd hgroup List.not_mem_nil
  | cons t tuples ih =>
    refine addToGroup_members (groups_keys_ascending positions tuples) (fun u hu hequal => ?_) ih
    obtain ⟨group, hgroup, hkey⟩ := exists_group positions hu
    refine ⟨group, hgroup, ?_⟩
    rwa [← Tuple.equal_congr hequal (Tuple.equal_refl group.key)]

/-! ## All members -/

/-- Adding a tuple adds one member. -/
lemma addToGroup_flatMap_perm (key t : Tuple) (found : List Group) :
    ((addToGroup key t found).flatMap Group.members).Perm (t :: found.flatMap Group.members) := by
  induction found with
  | nil => rfl
  | cons old rest ih =>
    unfold addToGroup
    cases Tuple.compare key old.key with
    | lt => rfl
    | eq => rfl
    | gt =>
      rw [List.flatMap_cons, List.flatMap_cons]
      exact (ih.append_left old.members).trans List.perm_middle

/-- The members of all groups are the tuples. -/
theorem flatMap_members_perm (positions : List Nat) (tuples : List Tuple) :
    ((groups positions tuples).flatMap Group.members).Perm tuples := by
  induction tuples with
  | nil => rfl
  | cons t tuples ih => exact (addToGroup_flatMap_perm _ t _).trans (ih.cons t)

/-- The groups have as many members as there are tuples. -/
theorem sum_length_members (positions : List Nat) (tuples : List Tuple) :
    ((groups positions tuples).map fun group => group.members.length).sum = tuples.length := by
  rw [← List.length_flatMap, (flatMap_members_perm positions tuples).length_eq]

end RelationalAlgebra.Relation
