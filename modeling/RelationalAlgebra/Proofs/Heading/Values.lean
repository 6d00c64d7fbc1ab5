import Mathlib.Data.List.GetD
import RelationalAlgebra.Proofs.Heading.Positions

/-!
# Values by their attributes

A heading names the values of a tuple.  `Heading.valueAt` is the value that a name stands for: the
one at its first position.  Records, projections and the keys of groups all read values in this
way once the attribute is known to occur, so what they do can be said without positions.

The rest of the file says how names resolve in a heading that is put together from two others,
and in one whose attributes have all been marked.
-/

namespace RelationalAlgebra

namespace Heading

variable {heading left right : Heading} {attr : Attribute} {t u : Tuple}

/-- The value that a tuple has at the first position of an attribute. -/
def valueAt (heading : Heading) (t : Tuple) (attr : Attribute) : Scalar :=
  t.getD (heading.idxOf attr) .null

/-! ## Looking up what is there -/

/-- An attribute that occurs in a heading is found at its first position. -/
lemma indexOf_of_mem (h : attr ∈ heading) : heading.indexOf attr = .ok (heading.idxOf attr) := by
  have hlt : heading.idxOf attr < heading.length := List.idxOf_lt_length_of_mem h
  have hfound : heading.idxOf? attr = some (heading.idxOf attr) := by
    refine List.idxOf?_eq_some_iff.2 ⟨hlt, List.getElem_idxOf hlt, fun j hj heq => ?_⟩
    have hother : (heading[j] == attr) = false := List.not_of_lt_findIdx hj
    rw [heq, beq_self_eq_true] at hother
    cases hother
  rw [indexOf, hfound]

/-- Attributes that all occur in a heading are found at their first positions. -/
lemma positions_of_subset {attrs : List Attribute} (h : attrs ⊆ heading) :
    heading.positions attrs = .ok (attrs.map heading.idxOf) := by
  unfold positions
  induction attrs with
  | nil => rfl
  | cons a attrs ih =>
    obtain ⟨ha, hrest⟩ := List.cons_subset.1 h
    rw [List.mapM_cons, indexOf_of_mem ha, ih hrest]
    rfl

/-- Picking the first positions of some attributes reads the values of these attributes. -/
lemma pick_idxOf (heading : Heading) (attrs : List Attribute) (t : Tuple) :
    t.pick (attrs.map heading.idxOf) = attrs.map (heading.valueAt t) := by
  rw [Tuple.pick, List.map_map]
  rfl

/-! ## Headings put together -/

/-- In a concatenation, an attribute of the left heading names a value of the left tuple. -/
lemma valueAt_append_of_mem (h : attr ∈ left) (ht : t.length = left.length) :
    valueAt (left ++ right) (t ++ u) attr = left.valueAt t attr := by
  have hlt : left.idxOf attr < t.length := by
    rw [ht]
    exact List.idxOf_lt_length_of_mem h
  unfold valueAt
  rw [List.idxOf_append_of_mem h, List.getD_append _ _ _ _ hlt]

/-- In a concatenation, an attribute that the left heading does not have names a value of the
right tuple. -/
lemma valueAt_append_of_notMem (h : attr ∉ left) (ht : t.length = left.length) :
    valueAt (left ++ right) (t ++ u) attr = right.valueAt u attr := by
  have hle : t.length ≤ left.length + right.idxOf attr := by omega
  have hrest : left.length + right.idxOf attr - t.length = right.idxOf attr := by omega
  unfold valueAt
  rw [List.idxOf_append_of_notMem h, List.getD_append_right _ _ _ _ hle, hrest]

/-- If attributes are marked so that different ones stay different, they name the same values. -/
lemma valueAt_map {mark : Attribute → Attribute} (hmark : Function.Injective mark)
    (heading : Heading) (t : Tuple) (attr : Attribute) :
    valueAt (heading.map mark) t (mark attr) = heading.valueAt t attr := by
  have hidx : (heading.map mark).idxOf (mark attr) = heading.idxOf attr := by
    unfold List.idxOf
    rw [List.findIdx_map]
    exact congrArg (fun test => List.findIdx test heading) (funext fun a => hmark.beq_eq)
  rw [valueAt, hidx, valueAt]

/-- The attributes of a heading without repetitions name the values of a tuple one by one. -/
lemma map_valueAt_self (hnodup : heading.Nodup) (ht : t.length = heading.length) :
    heading.map (heading.valueAt t) = t := by
  apply List.ext_getElem
  · rw [List.length_map, ht]
  · intro i hi hlt
    have hheading : i < heading.length := by omega
    rw [List.getElem_map, valueAt, hnodup.idxOf_getElem i hheading,
      List.getD_eq_getElem _ _ hlt]

/-- In a tuple of values that are given by the names, a name stands for the value that is given for
it, also if it stands in several places. -/
lemma valueAt_map_of_mem (value : Attribute → Scalar) (h : attr ∈ heading) :
    heading.valueAt (heading.map value) attr = value attr := by
  have hlt : heading.idxOf attr < (heading.map value).length := by
    rw [List.length_map]
    exact List.idxOf_lt_length_of_mem h
  rw [valueAt, List.getD_eq_getElem _ _ hlt, List.getElem_map, List.getElem_idxOf]

/-- Values that are given by the names are those that the names stand for. -/
lemma map_valueAt_map (heading : Heading) (value : Attribute → Scalar) :
    heading.map (heading.valueAt (heading.map value)) = heading.map value :=
  List.map_congr_left fun _ ha => valueAt_map_of_mem value ha

/-- The attributes of the left heading name the left part of a concatenation. -/
lemma map_valueAt_append (hnodup : left.Nodup) (ht : t.length = left.length) :
    left.map (valueAt (left ++ right) (t ++ u)) = t := by
  rw [List.map_congr_left fun a ha => valueAt_append_of_mem ha ht]
  exact map_valueAt_self hnodup ht

end Heading

/-- A record has a value at each of its attributes. -/
lemma Record.get_of_mem {record : Record} {attr : Attribute} (h : attr ∈ record.heading) :
    record.get attr = .ok (record.heading.valueAt record.values attr) := by
  rw [Record.get, Heading.indexOf_of_mem h, Heading.valueAt, List.getD_eq_getElem?_getD]
  rfl

/-- A record has no value at an attribute that it does not have. -/
lemma Record.get_of_notMem {record : Record} {attr : Attribute} (h : attr ∉ record.heading) :
    record.get attr = .error (.missingAttribute attr) := by
  rw [Record.get, Heading.indexOf, List.idxOf?_eq_none_iff.2 h]
  rfl

section

variable {left right : Heading} {t u : Tuple} {attr : Attribute}

/-- An attribute that the right heading does not have is looked up in the left part of a
concatenation. -/
lemma Record.get_append_left (h : attr ∉ right) (ht : t.length = left.length) :
    Record.get ⟨left ++ right, t ++ u⟩ attr = Record.get ⟨left, t⟩ attr := by
  by_cases hleft : attr ∈ left
  · rw [Record.get_of_mem (List.mem_append_left right hleft), Record.get_of_mem hleft]
    exact congrArg Except.ok (Heading.valueAt_append_of_mem hleft ht)
  · have hnone : attr ∉ left ++ right := by
      rw [List.mem_append, not_or]
      exact ⟨hleft, h⟩
    rw [Record.get_of_notMem hnone, Record.get_of_notMem hleft]

/-- An attribute that the left heading does not have is looked up in the right part of a
concatenation. -/
lemma Record.get_append_right (h : attr ∉ left) (ht : t.length = left.length) :
    Record.get ⟨left ++ right, t ++ u⟩ attr = Record.get ⟨right, u⟩ attr := by
  by_cases hright : attr ∈ right
  · rw [Record.get_of_mem (List.mem_append_right left hright), Record.get_of_mem hright]
    exact congrArg Except.ok (Heading.valueAt_append_of_notMem h ht)
  · have hnone : attr ∉ left ++ right := by
      rw [List.mem_append, not_or]
      exact ⟨h, hright⟩
    rw [Record.get_of_notMem hnone, Record.get_of_notMem hright]

end

end RelationalAlgebra
