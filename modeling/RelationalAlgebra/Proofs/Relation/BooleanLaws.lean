import RelationalAlgebra.Proofs.Relation.Extensionality
import RelationalAlgebra.Proofs.Relation.Selection

/-!
# The laws of union, intersection and difference

The Boolean operations need relations with one heading.  Then a result is described class by class:
what represents a class of equal tuples in it depends on what represents the class in the two
relations.  The union prefers the right relation, the other two keep what the left one holds.  A
class occurs in a result as the connective of the operation says, so that operations on relations
obey the laws of truth values.

A term is built from relations by Boolean operations.  It fails exactly if its relations do not
have one heading, and what it contains is given by its truth table.  Hence two terms with the same
relations and the same truth table have equal results (`BooleanTerm.eval_equalOutcome`), and each
law is an instance of this.  That a relation is the union of its intersection and its difference
with another one holds for the very tuples of the relation.
-/

namespace RelationalAlgebra

/-- The operations on relations with one heading. -/
inductive BooleanOperation where
  | union
  | intersection
  | difference

namespace BooleanOperation

/-- The outcome of an operation. -/
def apply : BooleanOperation → Relation → Relation → Except Error Relation
  | .union => Relation.union
  | .intersection => Relation.intersection
  | .difference => Relation.difference

/-- Whether a result contains a tuple, given whether the two relations do. -/
def connective : BooleanOperation → Bool → Bool → Bool
  | .union, a, b => a || b
  | .intersection, a, b => a && b
  | .difference, a, b => a && !b

/-- What represents a class in a result, given what represents it in the two relations. -/
def chosen : BooleanOperation → Option Tuple → Option Tuple → Option Tuple
  | .union, left, right => right.or left
  | .intersection, left, right => if right.isSome then left else none
  | .difference, left, right => if right.isSome then none else left

/-- A class is represented in a result as the connective says. -/
lemma isSome_chosen (operation : BooleanOperation) (left right : Option Tuple) :
    (operation.chosen left right).isSome = operation.connective left.isSome right.isSome := by
  cases operation <;> cases left <;> cases right <;> rfl

end BooleanOperation

namespace Relation

variable {r s u : Relation}

/-- A relation contains a tuple if the class of the tuple has a representative. -/
lemma contains_eq_isSome_representative (r : Relation) (t : Tuple) :
    r.contains t = (r.representative t).isSome :=
  TupleSet.contains_eq_isSome r.tuples t

/-- Two outcomes are equal relations, or errors of one sort. -/
abbrev EqualOutcome : Except Error Relation → Except Error Relation → Prop :=
  Corresponds (fun u v => u.equal v = true) Error.SameKind

end Relation

namespace BooleanOperation

variable {r s : Relation} {heading : Heading}

/-- On relations with one heading every operation has a result, whose representatives are known. -/
lemma exists_apply (operation : BooleanOperation) (hr : r.Over heading) (hs : s.Over heading) :
    ∃ v, operation.apply r s = .ok v ∧
      ∀ t, v.representative t = operation.chosen (r.representative t) (s.representative t) := by
  have hcontains : ∀ t u, Tuple.equal t u = true → s.contains u = s.contains t := fun t u htu =>
    (TupleSet.contains_congr s.tuples htu).symm
  cases operation with
  | union =>
    refine ⟨_, Relation.union_eq hr hs, fun t => ?_⟩
    exact TupleSet.representative_ofList_append hr.wellFormed.2 hs.wellFormed.2 t
  | intersection =>
    refine ⟨_, Relation.intersection_eq hr hs, fun t => ?_⟩
    rw [chosen, ← Relation.contains_eq_isSome_representative]
    exact TupleSet.representative_filter r.tuples (hcontains t)
  | difference =>
    refine ⟨_, Relation.difference_eq hr hs, fun t => ?_⟩
    rw [chosen, ← Relation.contains_eq_isSome_representative]
    refine (TupleSet.representative_filter r.tuples fun u htu => ?_).trans ?_
    · rw [hcontains t u htu]
    · cases s.contains t <;> rfl

/-- An operation fails only if the headings differ.  Its result contains what the connective
says. -/
theorem apply_meets (operation : BooleanOperation) (hr : r.WellFormed) (hs : s.WellFormed) :
    Meets (fun v => r.heading = s.heading ∧ v.Over r.heading ∧
        ∀ t, v.contains t = operation.connective (r.contains t) (s.contains t))
      (Heading.Mismatch r.heading s.heading) (operation.apply r s) := by
  have hover : Meets (fun v => r.heading = s.heading ∧ v.Over r.heading)
      (Heading.Mismatch r.heading s.heading) (operation.apply r s) := by
    cases operation with
    | union => exact Relation.union_meets hr.over hs.over
    | intersection => exact Relation.intersection_meets hr.over hs.over
    | difference => exact Relation.difference_meets hr.over hs.over
  by_cases hsame : r.heading = s.heading
  · obtain ⟨v, hv, hchosen⟩ := operation.exists_apply hr.over (hsame ▸ hs.over)
    rw [hv] at hover ⊢
    refine ⟨hsame, hover.2, fun t => ?_⟩
    simp only [Relation.contains_eq_isSome_representative, hchosen, isSome_chosen]
  · exact hover.imp_ok fun v hv => absurd hv.1 hsame

end BooleanOperation

/-! ## Terms -/

/-- A term of operations on relations. -/
inductive BooleanTerm where
  | relation (r : Relation)
  | combine (operation : BooleanOperation) (left right : BooleanTerm)

namespace BooleanTerm

/-- The union of what two terms describe. -/
abbrev union : BooleanTerm → BooleanTerm → BooleanTerm :=
  combine .union

/-- The intersection of what two terms describe. -/
abbrev intersection : BooleanTerm → BooleanTerm → BooleanTerm :=
  combine .intersection

/-- The relations in a term. -/
@[simp]
def relations : BooleanTerm → List Relation
  | .relation r => [r]
  | .combine _ left right => left.relations ++ right.relations

/-- The outcome of a term. -/
def eval : BooleanTerm → Except Error Relation
  | .relation r => .ok r
  | .combine operation left right => do
    let v ← left.eval
    let w ← right.eval
    operation.apply v w

/-- Whether a tuple belongs to what a term describes. -/
def holds (t : Tuple) : BooleanTerm → Bool
  | .relation r => r.contains t
  | .combine operation left right => operation.connective (left.holds t) (right.holds t)

/-- All relations in a term have a heading. -/
def Uniform (heading : Heading) (term : BooleanTerm) : Prop :=
  ∀ r ∈ term.relations, r.heading = heading

/-- A term has relations in it. -/
lemma exists_mem_relations (term : BooleanTerm) : ∃ r, r ∈ term.relations := by
  induction term with
  | relation r => exact ⟨r, List.mem_singleton_self r⟩
  | combine _ left _ ih =>
    obtain ⟨r, hr⟩ := ih
    exact ⟨r, List.mem_append_left _ hr⟩

/-- The relations in a term have only one heading. -/
lemma Uniform.unique {term : BooleanTerm} {heading heading' : Heading}
    (h : term.Uniform heading) (h' : term.Uniform heading') : heading = heading' := by
  obtain ⟨r, hr⟩ := term.exists_mem_relations
  rw [← h r hr, h' r hr]

/-- A combination has one heading if both parts have it. -/
lemma uniform_combine {operation : BooleanOperation} {left right : BooleanTerm}
    {heading : Heading} :
    (combine operation left right).Uniform heading ↔
      left.Uniform heading ∧ right.Uniform heading :=
  List.forall_mem_append

/-- The error that the relations in a term have no common heading. -/
def Clash (term : BooleanTerm) (e : Error) : Prop :=
  e.kind = .headingMismatch ∧ ∀ heading, ¬ term.Uniform heading

/-- Relations without a common heading on the left have none with those on the right. -/
lemma Clash.of_left {operation : BooleanOperation} {left right : BooleanTerm} {e : Error}
    (h : left.Clash e) : (combine operation left right).Clash e :=
  ⟨h.1, fun heading huniform => h.2 heading (uniform_combine.1 huniform).1⟩

/-- Relations without a common heading on the right have none with those on the left. -/
lemma Clash.of_right {operation : BooleanOperation} {left right : BooleanTerm} {e : Error}
    (h : right.Clash e) : (combine operation left right).Clash e :=
  ⟨h.1, fun heading huniform => h.2 heading (uniform_combine.1 huniform).2⟩

/-- A term of well-formed relations with one heading contains what its truth table says.  It fails
only if the relations have no common heading. -/
theorem eval_meets (term : BooleanTerm) (wellFormed : ∀ r ∈ term.relations, r.WellFormed) :
    Meets (fun v => v.WellFormed ∧ term.Uniform v.heading ∧ ∀ t, v.contains t = term.holds t)
      term.Clash term.eval := by
  induction term with
  | relation r =>
    refine ⟨wellFormed r (List.mem_singleton_self r), fun s hs => ?_, fun t => rfl⟩
    rw [List.mem_singleton.1 hs]
  | combine operation left right ihLeft ihRight =>
    obtain ⟨hwfLeft, hwfRight⟩ := List.forall_mem_append.1 wellFormed
    refine ((ihLeft hwfLeft).imp_error fun _ => Clash.of_left).bind ?_
    rintro v ⟨hv, huniformLeft, hvholds⟩
    refine ((ihRight hwfRight).imp_error fun _ => Clash.of_right).bind ?_
    rintro w ⟨hw, huniformRight, hwholds⟩
    refine (operation.apply_meets hv hw).mono ?_ ?_
    · rintro x ⟨hsame, hx, hcontains⟩
      refine ⟨hx.wellFormed, ?_, fun t => ?_⟩
      · rw [hx.heading_eq]
        exact uniform_combine.2 ⟨huniformLeft, hsame ▸ huniformRight⟩
      · rw [hcontains, hvholds, hwholds, holds]
    · rintro e ⟨hdiffer, rfl⟩
      refine ⟨rfl, fun heading huniform => hdiffer ?_⟩
      obtain ⟨hleft, hright⟩ := uniform_combine.1 huniform
      rw [huniformLeft.unique hleft, huniformRight.unique hright]

/-- Terms with the same relations and the same truth table have equal results, or both fail. -/
theorem eval_equalOutcome {term term' : BooleanTerm}
    (wellFormed : ∀ r ∈ term.relations, r.WellFormed)
    (hsub : term.relations ⊆ term'.relations) (hsub' : term'.relations ⊆ term.relations)
    (hholds : ∀ t, term.holds t = term'.holds t) :
    Relation.EqualOutcome term.eval term'.eval := by
  have huniform : ∀ heading, term.Uniform heading ↔ term'.Uniform heading := fun heading =>
    ⟨fun h r hr => h r (hsub' hr), fun h r hr => h r (hsub hr)⟩
  have hmeets := term.eval_meets wellFormed
  have hmeets' := term'.eval_meets fun r hr => wellFormed r (hsub' hr)
  cases hv : term.eval with
  | ok v =>
    obtain ⟨hvwf, hvuniform, hvholds⟩ := hmeets.of_ok hv
    cases hw : term'.eval with
    | ok w =>
      obtain ⟨hwwf, hwuniform, hwholds⟩ := hmeets'.of_ok hw
      refine .ok ((Relation.equal_iff_contains hvwf hwwf).2 ⟨?_, fun t => ?_⟩)
      · exact hvuniform.unique ((huniform _).2 hwuniform)
      · rw [hvholds, hwholds, hholds]
    | error e => exact absurd ((huniform _).1 hvuniform) ((hmeets'.of_error hw).2 _)
  | error d =>
    obtain ⟨hd, hnone⟩ := hmeets.of_error hv
    cases hw : term'.eval with
    | ok w => exact absurd ((huniform _).2 (hmeets'.of_ok hw).2.1) (hnone _)
    | error e => exact .error (hd.trans (hmeets'.of_error hw).1.symm)

end BooleanTerm

/-! ## Laws -/

namespace Relation

variable {r s u : Relation}

/-- The laws that union and intersection obey up to equality. Both sides of a law fail together. -/
structure BooleanLaws (r s u : Relation) : Prop where
  union_comm : EqualOutcome (r.union s) (s.union r)
  union_assoc : EqualOutcome (r.union s >>= fun v => v.union u) (s.union u >>= fun v => r.union v)
  union_self : EqualOutcome (r.union r) (.ok r)
  intersection_comm : EqualOutcome (r.intersection s) (s.intersection r)
  intersection_assoc : EqualOutcome (r.intersection s >>= fun v => v.intersection u)
    (s.intersection u >>= fun v => r.intersection v)
  intersection_self : EqualOutcome (r.intersection r) (.ok r)
  union_intersection : EqualOutcome (s.intersection u >>= fun v => r.union v)
    (r.union s >>= fun v => r.union u >>= fun w => v.intersection w)
  intersection_union : EqualOutcome (s.union u >>= fun v => r.intersection v)
    (r.intersection s >>= fun v => r.intersection u >>= fun w => v.union w)

/-- Well-formed relations obey the laws, since truth values do. -/
theorem booleanLaws (hr : r.WellFormed) (hs : s.WellFormed) (hu : u.WellFormed) :
    BooleanLaws r s u := by
  have wellFormed : ∀ v ∈ [r, s, u], v.WellFormed := by simp [hr, hs, hu]
  have hlaw : ∀ term term' : BooleanTerm, term.relations ⊆ [r, s, u] →
      term.relations ⊆ term'.relations → term'.relations ⊆ term.relations →
      (∀ t, term.holds t = term'.holds t) → EqualOutcome term.eval term'.eval :=
    fun term term' hamong => BooleanTerm.eval_equalOutcome fun v hv => wellFormed v (hamong hv)
  exact {
    union_comm := hlaw (.union (.relation r) (.relation s)) (.union (.relation s) (.relation r))
      (by simp) (by simp) (by simp) fun t => Bool.or_comm _ _
    union_assoc := hlaw (.union (.union (.relation r) (.relation s)) (.relation u))
      (.union (.relation r) (.union (.relation s) (.relation u)))
      (by simp) (by simp) (by simp) fun t => Bool.or_assoc _ _ _
    union_self := hlaw (.union (.relation r) (.relation r)) (.relation r)
      (by simp) (by simp) (by simp) fun t => Bool.or_self _
    intersection_comm := hlaw (.intersection (.relation r) (.relation s))
      (.intersection (.relation s) (.relation r))
      (by simp) (by simp) (by simp) fun t => Bool.and_comm _ _
    intersection_assoc := hlaw
      (.intersection (.intersection (.relation r) (.relation s)) (.relation u))
      (.intersection (.relation r) (.intersection (.relation s) (.relation u)))
      (by simp) (by simp) (by simp) fun t => Bool.and_assoc _ _ _
    intersection_self := hlaw (.intersection (.relation r) (.relation r)) (.relation r)
      (by simp) (by simp) (by simp) fun t => Bool.and_self _
    union_intersection := hlaw
      (.union (.relation r) (.intersection (.relation s) (.relation u)))
      (.intersection (.union (.relation r) (.relation s)) (.union (.relation r) (.relation u)))
      (by simp) (by simp) (by simp) fun t => Bool.or_and_distrib_left _ _ _
    intersection_union := hlaw
      (.intersection (.relation r) (.union (.relation s) (.relation u)))
      (.union (.intersection (.relation r) (.relation s))
        (.intersection (.relation r) (.relation u)))
      (by simp) (by simp) (by simp) fun t => Bool.and_or_distrib_left _ _ _ }

/-- A relation is the union of what it shares with another one and what it does not, with its own
tuples. -/
lemma union_intersection_difference (hr : r.WellFormed) (hs : s.Over r.heading) :
    (r.intersection s >>= fun v => r.difference s >>= fun w => v.union w) = .ok r := by
  rw [intersection_eq hr.over hs, ok_bind, difference_eq hr.over hs, ok_bind]
  change (r.restrict fun t => s.contains t).union (r.restrict fun t => !s.contains t) = _
  rw [union_restrict hr]
  simp only [Bool.or_not_self, restrict_true]

/-- What an operation makes of relations with one heading. -/
structure BooleanResult (operation : BooleanOperation) (r s v : Relation) : Prop where
  over_heading : v.Over r.heading
  /-- It contains a tuple as the connective says. -/
  contains_eq : ∀ t, v.contains t = operation.connective (r.contains t) (s.contains t)
  /-- The union holds the tuples of the right relation where both relations have equal ones, and
  the intersection and the difference those of the left one. -/
  representative_eq : ∀ t,
    v.representative t = operation.chosen (r.representative t) (s.representative t)

/-- An operation has a result exactly if the headings are the same, and otherwise the error shows
both of them. The result is given by the connective of the operation.  So unions and intersections
obey the laws of truth values up to equality, and a relation is recovered, with its own tuples,
from its intersection and its difference with another one. -/
theorem booleanOperations_lawful (hr : r.WellFormed) (hs : s.WellFormed) (hu : u.WellFormed) :
    (∀ operation : BooleanOperation,
      (r.heading ≠ s.heading →
        operation.apply r s = .error (.headingMismatch r.heading s.heading)) ∧
      (r.heading = s.heading →
        ∃ v, operation.apply r s = .ok v ∧ BooleanResult operation r s v)) ∧
    BooleanLaws r s u ∧
    (r.heading = s.heading →
      (r.intersection s >>= fun v => r.difference s >>= fun w => v.union w) = .ok r) := by
  refine ⟨fun operation => ⟨fun hdiffer => ?_, fun hsame => ?_⟩, booleanLaws hr hs hu,
    fun hsame => union_intersection_difference hr ⟨hsame.symm, hs⟩⟩
  · have hmeets := operation.apply_meets hr hs
    cases h : operation.apply r s with
    | ok v => exact absurd (hmeets.of_ok h).1 hdiffer
    | error e => rw [(hmeets.of_error h).2]
  · obtain ⟨v, hv, hchosen⟩ := operation.exists_apply hr.over ⟨hsame.symm, hs⟩
    obtain ⟨-, hover, hcontains⟩ := (operation.apply_meets hr hs).of_ok hv
    exact ⟨v, hv, hover, hcontains, hchosen⟩

/-- Both relations hold the number one, in two forms: the union shows that of the right relation and
the intersection that of the left one, so that the two unions are equal without being the same.
A relation with another heading has no union with them. -/
theorem booleanOperations_lawful_of_two_forms :
    let heading : Heading := [.name "n"]
    let r : Relation := ⟨heading, [[.int 1], [.int 2]]⟩
    let s : Relation := ⟨heading, [[.float (Binary64.ofInt 1)], [.text "x"]]⟩
    let u : Relation := ⟨[.name "m"], [[.int 1]]⟩
    let v : Relation := ⟨heading, [[.float (Binary64.ofInt 1)], [.int 2], [.text "x"]]⟩
    let w : Relation := ⟨heading, [[.int 1], [.int 2], [.text "x"]]⟩
    (r.WellFormed ∧ s.WellFormed ∧ u.WellFormed) ∧
      (r.union s = .ok v ∧ BooleanResult .union r s v) ∧
      (s.union r = .ok w ∧ v ≠ w ∧ v.equal w = true) ∧
      r.union u = .error (.headingMismatch r.heading u.heading) ∧
      r.intersection s = .ok ⟨heading, [[.int 1]]⟩ ∧
      (r.intersection s >>= fun v => r.difference s >>= fun w => v.union w) = .ok r := by
  intro heading r s u v w
  have hr : r.WellFormed := by decide +kernel
  have hs : s.WellFormed := by decide +kernel
  have hu : u.WellFormed := by decide +kernel
  have hv : r.union s = .ok v := by decide +kernel
  have hw : s.union r = .ok w := by decide +kernel
  obtain ⟨hresults, hlaws, hsplit⟩ := booleanOperations_lawful hr hs hu
  obtain ⟨hfails, -, -⟩ := booleanOperations_lawful hr hu hs
  obtain ⟨result, hresult, hunion⟩ := (hresults .union).2 rfl
  obtain rfl : result = v := Except.ok.inj (hresult.symm.trans hv)
  have hequal : v.equal w = true := by
    have hcomm := hlaws.union_comm
    rw [hv, hw] at hcomm
    obtain ⟨x, hx, hequal⟩ := hcomm.exists_ok
    rwa [Except.ok.inj hx]
  exact ⟨⟨hr, hs, hu⟩, ⟨hv, hunion⟩, ⟨hw, by decide +kernel, hequal⟩,
    (hfails .union).1 (by decide), by decide +kernel, hsplit rfl⟩

end Relation

end RelationalAlgebra
