import RelationalAlgebra.Proofs.Outcome
import RelationalAlgebra.Heading

/-!
# Looking up attributes

An attribute that a heading has is found at its first position, which lies inside the heading and
hence inside every tuple that fits the heading.  The only error of looking up attributes names
one that was asked for and that the heading does not have.
-/

namespace RelationalAlgebra

namespace Heading

variable {heading : Heading} {attrs : List Attribute}

/-- The error that one of some attributes is missing from a heading. -/
def Missing (heading : Heading) (attrs : List Attribute) (e : Error) : Prop :=
  ∃ a ∈ attrs, a ∉ heading ∧ e = .missingAttribute a

/-- What is missing from some attributes is missing from more of them. -/
lemma Missing.mono {more : List Attribute} {e : Error} (h : heading.Missing attrs e)
    (hsub : attrs ⊆ more) : heading.Missing more e := by
  obtain ⟨a, ha, hmissing, he⟩ := h
  exact ⟨a, hsub ha, hmissing, he⟩

/-- Nothing is missing from attributes that a heading has. -/
lemma not_missing {e : Error} (h : attrs ⊆ heading) : ¬ heading.Missing attrs e := by
  rintro ⟨a, ha, hmissing, -⟩
  exact hmissing (h ha)

/-- A missing attribute is an error about attributes. -/
lemma Missing.kind_eq {e : Error} (h : heading.Missing attrs e) : e.kind = .attributes := by
  obtain ⟨a, -, -, rfl⟩ := h
  rfl

/-- The errors of working with the values at some attributes: one of these is missing, or the
values have kinds that do not fit. -/
def Unfit (heading : Heading) (attrs : List Attribute) (e : Error) : Prop :=
  heading.Missing attrs e ∨ e.kind = .typeMismatch

/-- What does not fit some attributes does not fit more of them. -/
lemma Unfit.mono {more : List Attribute} {e : Error} (h : heading.Unfit attrs e)
    (hsub : attrs ⊆ more) : heading.Unfit more e :=
  h.imp_left fun hmissing => hmissing.mono hsub

/-- If no attribute is missing, then the values do not fit. -/
lemma Unfit.kind_eq {e : Error} (h : heading.Unfit attrs e) (hsub : attrs ⊆ heading) :
    e.kind = .typeMismatch :=
  h.resolve_left (not_missing hsub)

/-- Neither a missing attribute nor a value that does not fit is an error of length. -/
lemma Unfit.kind_ne_arity {e : Error} (h : heading.Unfit attrs e) : e.kind ≠ .arity := by
  rcases h with hmissing | hkind
  · rw [hmissing.kind_eq]
    exact nofun
  · rw [hkind]
    exact nofun

/-! ## One attribute -/

/-- Looking up one attribute gives its first position, or the error that it is missing. -/
theorem indexOf_meets (heading : Heading) (attr : Attribute) :
    Meets (fun i => heading.idxOf? attr = some i) (heading.Missing [attr])
      (heading.indexOf attr) := by
  unfold indexOf
  cases hi : heading.idxOf? attr with
  | some i => exact rfl
  | none => exact ⟨attr, List.mem_singleton_self attr, List.idxOf?_eq_none_iff.1 hi, rfl⟩

/-- The first position of an attribute lies inside the heading. -/
lemma lt_length_of_idxOf? {attr : Attribute} {i : Nat} (h : heading.idxOf? attr = some i) :
    i < heading.length := by
  obtain ⟨hlt, -⟩ := List.idxOf?_eq_some_iff.1 h
  exact hlt

/-- An attribute that has a position occurs in the heading. -/
lemma mem_of_idxOf? {attr : Attribute} {i : Nat} (h : heading.idxOf? attr = some i) :
    attr ∈ heading := by
  by_contra hmissing
  rw [List.idxOf?_eq_none_iff.2 hmissing] at h
  cases h

/-- A position that is found lies inside the heading. -/
theorem lt_length_of_indexOf {attr : Attribute} {i : Nat} (h : heading.indexOf attr = .ok i) :
    i < heading.length :=
  lt_length_of_idxOf? ((indexOf_meets heading attr).of_ok h)

/-! ## Several attributes -/

/-- Looking up several attributes gives the first position of each, or the error that one of them
is missing. -/
theorem positions_meets (heading : Heading) (attrs : List Attribute) :
    Meets (fun positions => List.Forall₂ (fun a i => heading.idxOf? a = some i) attrs positions)
      (heading.Missing attrs) (heading.positions attrs) := by
  refine Meets.mapM fun a ha => (indexOf_meets heading a).imp_error fun e he => ?_
  exact he.mono (List.cons_subset.2 ⟨ha, List.nil_subset attrs⟩)

/-- All positions that are found lie inside the heading. -/
theorem lt_length_of_positions {positions : List Nat}
    (h : heading.positions attrs = .ok positions) {i : Nat} (hi : i ∈ positions) :
    i < heading.length := by
  obtain ⟨a, -, ha⟩ := exists_of_forall₂ ((positions_meets heading attrs).of_ok h) hi
  exact lt_length_of_idxOf? ha

/-- Attributes that all have positions occur in the heading. -/
lemma subset_of_positions {positions : List Nat} (h : heading.positions attrs = .ok positions) :
    attrs ⊆ heading := by
  intro a ha
  obtain ⟨i, -, hi⟩ := exists_of_forall₂ ((positions_meets heading attrs).of_ok h).flip ha
  exact mem_of_idxOf? hi

/-! ## Two headings -/

/-- The attributes that two headings share are those that occur in both. -/
lemma mem_shared {left right : Heading} {a : Attribute} :
    a ∈ shared left right ↔ a ∈ left ∧ a ∈ right := by
  rw [shared, List.mem_filter, List.contains_iff_mem]

/-- Two headings share nothing if no attribute of the left one occurs in the right one. -/
lemma shared_eq_nil_iff {left right : Heading} :
    shared left right = [] ↔ ∀ a ∈ left, a ∉ right := by
  simp only [List.eq_nil_iff_forall_not_mem, mem_shared, not_and]

/-- What two headings share are those attributes of the left one that occur in the right one. -/
lemma shared_eq_filter (left right : Heading) :
    shared left right = left.filter fun a => a ∈ right :=
  List.filter_congr fun a _ => List.contains_eq_mem a right

/-- A concatenation shares nothing with a heading if both parts share nothing with it. -/
lemma shared_append_left_eq_nil_iff {left middle right : Heading} :
    shared (left ++ middle) right = [] ↔ shared left right = [] ∧ shared middle right = [] := by
  simp only [shared_eq_nil_iff, List.forall_mem_append]

/-- A heading shares nothing with a concatenation if it shares nothing with both parts. -/
lemma shared_append_right_eq_nil_iff {left middle right : Heading} :
    shared left (middle ++ right) = [] ↔ shared left middle = [] ∧ shared left right = [] := by
  simp only [shared_eq_nil_iff, List.mem_append, not_or, forall_and]

/-- The error that two headings share attributes. -/
def Conflict (left right : Heading) (e : Error) : Prop :=
  shared left right ≠ [] ∧ e = .attributeConflict (shared left right)

/-- The error that two headings differ. -/
def Mismatch (left right : Heading) (e : Error) : Prop :=
  left ≠ right ∧ e = .headingMismatch left right

/-- Shared attributes are no error of length. -/
lemma Conflict.kind_ne_arity {left right : Heading} {e : Error} (h : Conflict left right e) :
    e.kind ≠ .arity := by
  rw [h.2]
  exact nofun

/-- Headings that differ are no error of length. -/
lemma Mismatch.kind_ne_arity {left right : Heading} {e : Error} (h : Mismatch left right e) :
    e.kind ≠ .arity := by
  rw [h.2]
  exact nofun

/-- Two headings are disjoint, or the error lists what they share. -/
lemma ensureDisjoint_meets (left right : Heading) :
    Meets (fun _ => shared left right = []) (Conflict left right) (ensureDisjoint left right) := by
  unfold ensureDisjoint
  by_cases h : shared left right = []
  · rw [if_pos h]
    exact h
  · rw [if_neg h]
    exact ⟨h, rfl⟩

/-- Two headings are the same, or the error shows both. -/
lemma ensureSame_meets (left right : Heading) :
    Meets (fun _ => left = right) (Mismatch left right) (ensureSame left right) := by
  unfold ensureSame
  by_cases h : left = right
  · rw [if_pos h]
    exact h
  · rw [if_neg h]
    exact ⟨h, rfl⟩

end Heading

/-- The value of a record at an attribute, or the error that the record does not have it. -/
lemma Record.get_meets (record : Record) (attr : Attribute) :
    Meets (fun _ => attr ∈ record.heading) (record.heading.Missing [attr]) (record.get attr) :=
  (Heading.indexOf_meets record.heading attr).map fun _ hi => Heading.mem_of_idxOf? hi

end RelationalAlgebra
