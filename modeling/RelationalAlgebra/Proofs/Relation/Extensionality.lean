import RelationalAlgebra.Proofs.Relation.Interchange
import RelationalAlgebra.Proofs.Relation.Tuples
import RelationalAlgebra.Proofs.TupleSet.Representatives

/-!
# Relations are given by what they contain

A relation that is made from rows contains what is equal to one of the rows, and nothing else.  It
has one tuple for each class of equal rows, and this is the last row of the class, as if the rows
had been sorted and the last of each run of equal ones kept.

Equality of relations is defined tuple by tuple, in the order in which the tuples are stored.  Main
statement: all the same, two relations with one heading are equal exactly if they contain the same
tuples, so that it does not matter in which order rows are given, how often, and in which form.
-/

namespace RelationalAlgebra

namespace TupleSet

/-- Rows that others become when they are permuted, when one of them is repeated, and when some of
them are replaced by equal ones. -/
inductive Rearranged : List Tuple → List Tuple → Prop
  | permuted {rows rows' : List Tuple} (h : rows.Perm rows') : Rearranged rows rows'
  | repeated {rows : List Tuple} {row : Tuple} (h : row ∈ rows) : Rearranged rows (row :: rows)
  | replaced {rows rows' : List Tuple} (h : Matching rows rows') : Rearranged rows rows'
  | trans {rows rows' rows'' : List Tuple} (h : Rearranged rows rows')
      (h' : Rearranged rows' rows'') : Rearranged rows rows''

/-- However rows are rearranged, the same classes of equal tuples occur in them. -/
theorem Rearranged.classes_eq {rows rows' : List Tuple} (h : Rearranged rows rows') :
    classes rows = classes rows' := by
  induction h with
  | permuted h =>
    refine classes_eq_iff.2 fun t => ?_
    rw [Bool.eq_iff_iff, contains_iff, contains_iff]
    simp only [h.mem_iff]
  | @repeated rows row h =>
    refine classes_eq_iff.2 fun t => ?_
    rw [contains_cons]
    cases htrow : Tuple.equal t row with
    | true => exact contains_iff.2 ⟨row, h, htrow⟩
    | false => rw [Bool.false_or]
  | replaced h => exact classes_eq_iff.2 fun t => h.contains_eq (Tuple.equal_refl t)
  | trans _ _ ih ih' => exact ih.trans ih'

end TupleSet

namespace Relation

variable {r s : Relation} {heading : Heading} {rows rows' : List Tuple}

/-- The tuple of a relation that is equal to a given one, if there is one. -/
def representative (r : Relation) (t : Tuple) : Option Tuple :=
  TupleSet.representative r.tuples t

/-- Relations are equal exactly if they have one heading and contain the same tuples. -/
theorem equal_iff_contains (hr : r.WellFormed) (hs : s.WellFormed) :
    r.equal s = true ↔ r.heading = s.heading ∧ ∀ t, r.contains t = s.contains t := by
  rw [equal_iff_matching]
  refine and_congr_right fun _ => ⟨fun h t => h.contains_eq (Tuple.equal_refl t), fun h => ?_⟩
  exact TupleSet.matching_of_contains hr.2 hs.2 h

/-! ## Relations made from rows -/

/-- Rows that fit a heading make a relation, the set of the rows. -/
lemma ofRows_of_fits (h : ∀ row ∈ rows, row.length = heading.length) :
    ofRows heading rows = .ok ⟨heading, TupleSet.ofList rows⟩ := by
  rw [ofRows, ensureArity_of_fits h]
  rfl

/-- Rows of the same classes as rows that fit a heading fit it too. -/
lemma fits_of_classes_eq (h : ∀ row ∈ rows, row.length = heading.length)
    (hclasses : TupleSet.classes rows = TupleSet.classes rows') :
    ∀ row ∈ rows', row.length = heading.length := by
  intro row hrow
  have hcontains : TupleSet.contains rows row = true := by
    rw [TupleSet.classes_eq_iff.1 hclasses, TupleSet.contains_of_mem hrow]
  obtain ⟨other, hother, hequal⟩ := TupleSet.contains_iff.1 hcontains
  rw [Tuple.length_eq_of_equal hequal, h other hother]

/-- Rows of the same classes make equal relations. -/
lemma ofRows_equal_of_classes_eq (h : ∀ row ∈ rows, row.length = heading.length)
    (hclasses : TupleSet.classes rows = TupleSet.classes rows') :
    ∃ r', ofRows heading rows' = .ok r' ∧
      equal ⟨heading, TupleSet.ofList rows⟩ r' = true := by
  have hfits := fits_of_classes_eq h hclasses
  refine ⟨_, ofRows_of_fits hfits, ?_⟩
  refine (equal_iff_contains (over_ofList h).wellFormed (over_ofList hfits).wellFormed).2
    ⟨rfl, fun t => ?_⟩
  rw [contains, contains, TupleSet.contains_ofList, TupleSet.contains_ofList]
  exact TupleSet.classes_eq_iff.1 hclasses t

/-- What a relation that is made from rows holds. -/
structure MadeFrom (rows : List Tuple) (r : Relation) : Prop where
  /-- It contains the tuples that are equal to a row. -/
  contains_iff : ∀ t, r.contains t = true ↔ ∃ row ∈ rows, Tuple.compare row t = .eq
  /-- It has one tuple for each class of equal rows. -/
  size_eq : r.size = (TupleSet.classes rows).card
  /-- Each class is represented by its last row. -/
  representative_eq : ∀ t, r.representative t = rows.findRev? (Tuple.equal t)
  /-- The tuples are what is left of the sorted rows if the last of each run is kept. -/
  tuples_eq : r.tuples = TupleSet.lastOfRuns (TupleSet.sorted rows)

/-- The set of some rows is made from them. -/
lemma madeFrom_ofList (heading : Heading) (rows : List Tuple) :
    MadeFrom rows ⟨heading, TupleSet.ofList rows⟩ where
  contains_iff t := by
    rw [contains, TupleSet.contains_ofList, TupleSet.contains_iff]
    simp only [Tuple.equal_comm t, Tuple.equal_iff]
  size_eq := TupleSet.length_ofList rows
  representative_eq := TupleSet.representative_ofList rows
  tuples_eq := TupleSet.ofList_eq_lastOfRuns rows

/-- The tuples of a relation make the relation again. -/
lemma ofRows_tuples (hr : r.WellFormed) : ofRows r.heading r.tuples = .ok r := by
  rw [ofRows_of_fits hr.1, TupleSet.ofList_of_ascending hr.2]

/-- Rows that fit a heading make a relation that contains what is equal to one of them and holds
the last of each class.  Rearranged rows make an equal relation, since two relations are equal
exactly if they have one heading and contain the same tuples.  A relation is made again, with the
very scalars that it shows, from its heading and its tuples. -/
theorem ofRows_extensional (heading : Heading) (rows : List Tuple)
    (hrows : ∀ row ∈ rows, row.length = heading.length) :
    (∃ r, ofRows heading rows = .ok r ∧ (r.Over heading ∧ r.MadeFrom rows) ∧
      ∀ rows', TupleSet.Rearranged rows rows' →
        ∃ r', ofRows heading rows' = .ok r' ∧ r.equal r' = true) ∧
    (∀ r s : Relation, r.WellFormed → s.WellFormed →
      (r.equal s = true ↔ r.heading = s.heading ∧ ∀ t, r.contains t = s.contains t)) ∧
    ∀ r : Relation, r.WellFormed →
      ofRows r.heading r.tuples = .ok r ∧ ofSet r.heading r.tuples = .ok r := by
  refine ⟨⟨_, ofRows_of_fits hrows, ⟨over_ofList hrows, madeFrom_ofList heading rows⟩, ?_⟩,
    fun r s => equal_iff_contains, fun r hr => ⟨ofRows_tuples hr, ?_⟩⟩
  · intro rows' hrearranged
    exact ofRows_equal_of_classes_eq hrows hrearranged.classes_eq
  · rw [ofSet, ensureArity_of_fits hr.1]
    rfl

/-- Three rows of two classes, of which the later form of the number one is kept, and the same rows
in another order, one of them given twice and one in its other form. -/
theorem ofRows_extensional_of_mixed_forms :
    let heading : Heading := [.name "n", .name "mark"]
    let one : Scalar := .float (Binary64.ofInt 1)
    let rows : List Tuple := [[.int 1, .text "x"], [.int 2, .null], [one, .text "x"]]
    let rows' : List Tuple :=
      [[.int 2, .null], [.int 2, .null], [one, .text "x"], [.int 1, .text "x"]]
    let r : Relation := ⟨heading, [[one, .text "x"], [.int 2, .null]]⟩
    (∀ row ∈ rows, row.length = heading.length) ∧ TupleSet.Rearranged rows rows' ∧
      ofRows heading rows = .ok r ∧ r.MadeFrom rows ∧ r.size = 2 ∧
      ∃ r', ofRows heading rows' = .ok r' ∧ r ≠ r' ∧ r.equal r' = true := by
  intro heading one rows rows' r
  have hrows : ∀ row ∈ rows, row.length = heading.length := by decide
  have hrearranged : TupleSet.Rearranged rows rows' := by
    have hrotated : rows.Perm [[.int 2, .null], [one, .text "x"], [.int 1, .text "x"]] := by
      decide +kernel
    exact .trans (.permuted hrotated) (.repeated List.mem_cons_self)
  have hr : ofRows heading rows = .ok r := by decide +kernel
  have hr' : ofRows heading rows' =
      .ok ⟨heading, [[.int 1, .text "x"], [.int 2, .null]]⟩ := by decide +kernel
  obtain ⟨⟨made, hmade, ⟨-, hmadeFrom⟩, hequal⟩, -, -⟩ := ofRows_extensional heading rows hrows
  obtain rfl : made = r := Except.ok.inj (hmade.symm.trans hr)
  obtain ⟨made', hmade', hequal⟩ := hequal rows' hrearranged
  obtain rfl : made' = _ := Except.ok.inj (hmade'.symm.trans hr')
  exact ⟨hrows, hrearranged, hr, hmadeFrom, rfl, _, hr', by decide +kernel, hequal⟩

end Relation

end RelationalAlgebra
