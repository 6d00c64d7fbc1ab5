import RelationalAlgebra.Proofs.Operator.Deferred
import RelationalAlgebra.Proofs.Relation.Interchange
import RelationalAlgebra.Proofs.Relation.NaturalJoin

/-!
# Projections of projections, and under other names

A projection reads the value that a name stands for, the one in its first column, and then makes a
set of the rows.  A second projection looks for the names in the columns that the first one made;
there the first occurrence of a name holds what the name stood for before.  What collapses in
between does not matter for what the result contains, although another one of equal rows may be
left: the rows of the first projection are in another order.

Renaming the columns of a relation one by one commutes with projecting it, and then even the very
scalars are the same.

Main statement: a projection of a projection is the projection, as long as its attributes are left,
and it does not matter whether columns are renamed before or after a projection.
-/

namespace RelationalAlgebra

namespace Heading

variable {old new : Heading} {attr : Attribute} {attrs attrs' : List Attribute}

/-- The values of attributes that a list of attributes names. -/
lemma map_valueAt_map_of_subset (value : Attribute → Scalar) (h : attrs' ⊆ attrs) :
    attrs'.map (valueAt attrs (attrs.map value)) = attrs'.map value :=
  List.map_congr_left fun _ ha => valueAt_map_of_mem value (h ha)

/-! ## Renaming position by position -/

/-- The attribute that stands in a new heading where a given one stands in the old heading. -/
def newName (old new : Heading) (attr : Attribute) : Attribute :=
  new.getD (old.idxOf attr) attr

/-- The new name of an attribute stands at the position of the attribute. -/
lemma getElem?_idxOf_newName (hlength : new.length = old.length) (h : attr ∈ old) :
    new[old.idxOf attr]? = some (newName old new attr) := by
  have hlt : old.idxOf attr < new.length := hlength ▸ List.idxOf_lt_length_of_mem h
  rw [newName, List.getD_eq_getElem _ _ hlt, List.getElem?_eq_getElem hlt]

/-- The new names of a heading without repetitions are the new heading. -/
lemma map_newName (hold : old.Nodup) (hlength : new.length = old.length) :
    old.map (newName old new) = new := by
  refine List.ext_getElem (by rw [List.length_map, hlength]) fun i hi hi' => ?_
  have hlt : i < old.length := by omega
  have hname := getElem?_idxOf_newName hlength (List.getElem_mem hlt)
  rw [hold.idxOf_getElem i hlt, List.getElem?_eq_getElem hi'] at hname
  rw [List.getElem_map, Option.some.inj hname]

/-- The new name of an attribute is a new name. -/
lemma newName_mem (hlength : new.length = old.length) (h : attr ∈ old) :
    newName old new attr ∈ new :=
  List.mem_of_getElem? (getElem?_idxOf_newName hlength h)

/-- If no new name is repeated, it stands for the value that the old one stood for. -/
lemma valueAt_newName (hnew : new.Nodup) (hlength : new.length = old.length) (h : attr ∈ old)
    (t : Tuple) : new.valueAt t (newName old new attr) = old.valueAt t attr := by
  obtain ⟨hlt, hname⟩ := List.getElem?_eq_some_iff.1 (getElem?_idxOf_newName hlength h)
  rw [valueAt, ← hname, hnew.idxOf_getElem, valueAt]

end Heading

namespace Relation

variable {r projected : Relation} {attrs attrs' : List Attribute}

/-! ## Projections of projections -/

/-- Equal tuples have equal values at some attributes. -/
lemma equal_map_valueAt (heading : Heading) (attrs : List Attribute) {t u : Tuple}
    (h : Tuple.equal t u = true) :
    Tuple.equal (attrs.map (heading.valueAt t)) (attrs.map (heading.valueAt u)) = true := by
  rw [← Heading.pick_idxOf, ← Heading.pick_idxOf]
  exact Tuple.equal_pick _ h

/-- A projection has the columns that were asked for, and succeeds only if all of them are
there. -/
lemma project_eq_ok_iff : r.project attrs = .ok projected ↔
    attrs ⊆ r.heading ∧ projected =
      ⟨attrs, TupleSet.ofList (r.tuples.map fun t => attrs.map (r.heading.valueAt t))⟩ := by
  constructor
  · intro h
    have hsub := (project_found r attrs).of_ok h
    rw [project_eq hsub] at h
    exact ⟨hsub, (Except.ok.inj h).symm⟩
  · rintro ⟨hsub, rfl⟩
    exact project_eq hsub

/-- A projection succeeds exactly if all its attributes are there. -/
lemma exists_project_iff : (∃ v, r.project attrs = .ok v) ↔ attrs ⊆ r.heading := by
  simp only [project_eq_ok_iff, exists_and_left, exists_eq, and_true]

/-- What a projection of a projection returns is equal to the projection. -/
lemma project_project {twice : Relation} (h : r.project attrs = .ok projected)
    (h' : projected.project attrs' = .ok twice) :
    ∃ once, r.project attrs' = .ok once ∧ twice.equal once = true := by
  obtain ⟨hsub, rfl⟩ := project_eq_ok_iff.1 h
  obtain ⟨hsub', rfl⟩ := project_eq_ok_iff.1 h'
  refine ⟨_, project_eq (List.Subset.trans hsub' hsub), equal_iff_matching.2 ⟨rfl, ?_⟩⟩
  refine TupleSet.matching_of_contains (TupleSet.ascending_ofList _)
    (TupleSet.ascending_ofList _) fun row => ?_
  -- The set that is made in between contains the same rows as the list that it is made from.
  have hrows : (r.tuples.map fun t => attrs'.map (r.heading.valueAt t)) =
      (r.tuples.map fun t => attrs.map (r.heading.valueAt t)).map fun v =>
        attrs'.map (Heading.valueAt attrs v) := by
    rw [List.map_map]
    exact List.map_congr_left fun t _ => (Heading.map_valueAt_map_of_subset _ hsub').symm
  rw [TupleSet.contains_ofList, TupleSet.contains_ofList, hrows]
  exact TupleSet.contains_map_congr (fun t u => equal_map_valueAt attrs attrs')
    (TupleSet.contains_ofList _) row

/-! ## Projections under other names -/

/-- Columns that are renamed one by one can be renamed before or after a projection. -/
lemma project_rename {names : Heading} (hnames : names.Nodup) (hlength : names.length = r.arity)
    (hsub : attrs ⊆ r.heading) :
    (r.rename names >>= fun v => v.project (attrs.map (Heading.newName r.heading names))) =
      r.project attrs >>= fun v => v.rename (attrs.map (Heading.newName r.heading names)) := by
  have hsub' : attrs.map (Heading.newName r.heading names) ⊆ names := by
    intro b hb
    obtain ⟨a, ha, rfl⟩ := List.mem_map.1 hb
    exact Heading.newName_mem hlength (hsub ha)
  have hvalues : ∀ t : Tuple,
      (attrs.map (Heading.newName r.heading names)).map (names.valueAt t) =
        attrs.map (r.heading.valueAt t) := by
    intro t
    rw [List.map_map]
    exact List.map_congr_left fun a ha => Heading.valueAt_newName hnames hlength (hsub ha) t
  have hproject : project ⟨names, r.tuples⟩ (attrs.map (Heading.newName r.heading names)) = _ :=
    project_eq hsub'
  rw [rename_eq hlength, ok_bind, project_eq hsub, ok_bind, rename_eq (List.length_map _),
    hproject]
  simp only [hvalues]

/-- After a projection, another one succeeds exactly if its attributes are left, and then it
returns what is equal to the projection of the relation itself.  The columns of a relation without
repeated attributes can be renamed, one by one and to different names, before or after a
projection, with the same result. -/
theorem project_composes (r : Relation) :
    (∀ attrs projected, r.project attrs = .ok projected → ∀ attrs',
      ((∃ twice, projected.project attrs' = .ok twice) ↔ attrs' ⊆ attrs) ∧
        ∀ twice, projected.project attrs' = .ok twice →
          ∃ once, r.project attrs' = .ok once ∧ twice.equal once = true) ∧
    (r.heading.Nodup → ∀ names : Heading, names.Nodup → names.length = r.arity →
      r.heading.map (Heading.newName r.heading names) = names ∧
        ∀ attrs ⊆ r.heading, ∃ result,
          (r.rename names >>= fun v =>
            v.project (attrs.map (Heading.newName r.heading names))) = .ok result ∧
          (r.project attrs >>= fun v =>
            v.rename (attrs.map (Heading.newName r.heading names))) = .ok result) := by
  constructor
  · intro attrs projected h attrs'
    have hheading : projected.heading = attrs := by
      obtain ⟨-, rfl⟩ := project_eq_ok_iff.1 h
      rfl
    refine ⟨?_, fun twice h' => project_project h h'⟩
    rw [exists_project_iff, hheading]
  · intro hold names hnames hlength
    refine ⟨Heading.map_newName hold hlength, fun attrs hsub => ?_⟩
    rw [project_rename hnames hlength hsub, project_eq hsub, ok_bind,
      rename_eq (List.length_map _)]
    exact ⟨_, rfl, rfl⟩

/-- Rows that hold the number one in two forms, of which another one is left when the columns are
projected twice, under a heading with a repeated attribute; and a relation whose columns exchange
their names. -/
theorem project_composes_of_two_forms :
    let a : Attribute := .name "a"
    let b : Attribute := .name "b"
    let c : Attribute := .name "c"
    let one : Scalar := .float (Binary64.ofInt 1)
    let r : Relation := ⟨[a, b, c, a],
      [[.int 1, .int 2, .text "y", .null], [one, .int 3, .text "x", .null]]⟩
    let projected : Relation := ⟨[c, a, c],
      [[.text "x", one, .text "x"], [.text "y", .int 1, .text "y"]]⟩
    let twice : Relation := ⟨[a, a], [[.int 1, .int 1]]⟩
    let s : Relation := ⟨[a, b], [[.int 1, .text "x"], [.int 2, .text "x"]]⟩
    let f : Attribute → Attribute := Heading.newName s.heading [b, a]
    (r.project [c, a, c] = .ok projected ∧ projected.project [a, a] = .ok twice ∧
      ∃ once, r.project [a, a] = .ok once ∧ once ≠ twice ∧ equal twice once = true) ∧
    (s.heading.Nodup ∧ s.heading.map f = [b, a] ∧ ∃ result,
      (s.rename [b, a] >>= fun v => v.project ([b, b].map f)) = .ok result ∧
        (s.project [b, b] >>= fun v => v.rename ([b, b].map f)) = .ok result ∧
          result = ⟨[a, a], [[.text "x", .text "x"]]⟩) := by
  intro a b c one r projected twice s f
  have hprojected : r.project [c, a, c] = .ok projected := by decide +kernel
  have htwice : projected.project [a, a] = .ok twice := by decide +kernel
  have honce' : r.project [a, a] = .ok ⟨[a, a], [[one, one]]⟩ := by decide +kernel
  obtain ⟨hproject, -⟩ := project_composes r
  obtain ⟨-, hrename⟩ := project_composes s
  obtain ⟨once, honce, hequal⟩ := (hproject _ _ hprojected [a, a]).2 _ htwice
  have hne : once ≠ twice := by
    obtain rfl := Except.ok.inj (honce'.symm.trans honce)
    decide +kernel
  have hold : s.heading.Nodup := by decide +kernel
  obtain ⟨hnames, hcommutes⟩ := hrename hold [b, a] (by decide +kernel) rfl
  obtain ⟨result, hbefore, hafter⟩ := hcommutes [b, b] (by decide +kernel)
  have hresult : (s.project [b, b] >>= fun v => v.rename ([b, b].map f)) =
      .ok ⟨[a, a], [[.text "x", .text "x"]]⟩ := by decide +kernel
  exact ⟨⟨hprojected, htwice, once, honce, hne, hequal⟩, hold, hnames, result, hbefore, hafter,
    Except.ok.inj (hafter.symm.trans hresult)⟩

end Relation

end RelationalAlgebra
