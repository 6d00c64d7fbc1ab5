import RelationalAlgebra.Proofs.Predicate.Strictness
import RelationalAlgebra.Proofs.Relation.Tuples

/-!
# Selection turns formulas into operations on relations

Selecting keeps a part of a relation, given by a test of tuples, and the operations on the parts of
one relation are those on tests: the intersection of two parts is given by the conjunction of their
tests, the union by the disjunction, the difference by the negation.  As the tests of a predicate
never stop early, a conjunction or disjunction can be tested on all tuples exactly if each of its
parts can.

Main statement: so selecting by a conjunction is the intersection of the selections by its parts,
by a disjunction their union, and by a negation the difference.
-/

namespace RelationalAlgebra

namespace Predicate

variable {record : Record} {predicate : Predicate} {parts : List Predicate} {heading : Heading}
  {t : Tuple}

/-! ## Formulas with a truth value -/

/-- A predicate has a truth value on a record. -/
def HasValue (record : Record) (predicate : Predicate) : Prop :=
  ∃ truth, predicate.eval record = .ok truth

/-- A predicate has a truth value exactly if all its comparisons do. -/
lemma hasValue_iff :
    predicate.HasValue record ↔ ∀ c ∈ predicate.comparisons, ∃ truth, c.Gives record truth :=
  (strictOutcome record predicate).succeeds_iff

/-- All comparisons of some predicates have truth values exactly if the predicates do. -/
lemma forall_comparisonsList_iff :
    (∀ c ∈ comparisonsList parts, ∃ truth, c.Gives record truth) ↔
      ∀ part ∈ parts, part.HasValue record := by
  simp only [hasValue_iff, mem_comparisonsList]
  constructor
  · intro h part hpart c hc
    exact h c ⟨part, hpart, hc⟩
  · rintro h c ⟨part, hpart, hc⟩
    exact h part hpart c hc

/-- A conjunction has a truth value exactly if its parts do. -/
lemma hasValue_all : (all parts).HasValue record ↔ ∀ part ∈ parts, part.HasValue record :=
  hasValue_iff.trans forall_comparisonsList_iff

/-- A disjunction has a truth value exactly if its parts do. -/
lemma hasValue_any : (any parts).HasValue record ↔ ∀ part ∈ parts, part.HasValue record :=
  hasValue_iff.trans forall_comparisonsList_iff

/-- A negation has a truth value exactly if its part does. -/
lemma hasValue_not : (not predicate).HasValue record ↔ predicate.HasValue record := by
  rw [hasValue_iff, hasValue_iff, comparisons]

/-- A predicate that has a truth value is true of a tuple if the formula is. -/
lemma holds_eq_value (h : predicate.HasValue ⟨heading, t⟩) :
    predicate.holds heading t = predicate.value (Comparison.holds ⟨heading, t⟩) := by
  rw [holds, (strictOutcome _ predicate).value_eq (Comparison.holds ⟨heading, t⟩) fun c hc => ?_]
  · cases predicate.value (Comparison.holds ⟨heading, t⟩) <;> rfl
  · obtain ⟨truth, htruth⟩ := hasValue_iff.1 h c hc
    rwa [Comparison.holds_of_gives htruth]

/-- Predicates that have truth values are true of a tuple if the formulas are. -/
lemma map_holds (h : ∀ part ∈ parts, part.HasValue ⟨heading, t⟩) :
    parts.map (fun part => part.holds heading t) =
      parts.map (value (Comparison.holds ⟨heading, t⟩)) :=
  List.map_congr_left fun part hpart => holds_eq_value (h part hpart)

/-- A conjunction is true of a tuple if all its parts are. -/
lemma holds_all (h : ∀ part ∈ parts, part.HasValue ⟨heading, t⟩) :
    (all parts).holds heading t = (parts.map fun part => part.holds heading t).all id := by
  rw [holds_eq_value (hasValue_all.2 h), value, valueAll_eq_all, map_holds h]

/-- A disjunction is true of a tuple if one of its parts is. -/
lemma holds_any (h : ∀ part ∈ parts, part.HasValue ⟨heading, t⟩) :
    (any parts).holds heading t = (parts.map fun part => part.holds heading t).any id := by
  rw [holds_eq_value (hasValue_any.2 h), value, valueAny_eq_any, map_holds h]

/-- A negation is true of a tuple if its part is not. -/
lemma holds_not (h : predicate.HasValue ⟨heading, t⟩) :
    (not predicate).holds heading t = !predicate.holds heading t := by
  rw [holds_eq_value (hasValue_not.2 h), value, holds_eq_value h]

end Predicate

namespace Relation

variable {r u : Relation} {test other : Tuple → Bool} {predicate : Predicate}
  {parts : List Predicate}

/-! ## Parts of a relation -/

/-- The tuples of a relation that pass a test. -/
def restrict (r : Relation) (test : Tuple → Bool) : Relation :=
  ⟨r.heading, r.tuples.filter test⟩

/-- The relation that an operation makes of some relations, from left to right. What it makes of
none is given. -/
def combined (operation : Relation → Relation → Except Error Relation) (ofNone : Relation) :
    List Relation → Except Error Relation
  | [] => .ok ofNone
  | s :: rest => rest.foldlM operation s

/-- A part of a well-formed relation is a well-formed relation over the same heading. -/
lemma WellFormed.restrict_over (hr : r.WellFormed) (test : Tuple → Bool) :
    (r.restrict test).Over r.heading where
  heading_eq := rfl
  wellFormed :=
    ⟨fun t ht => hr.1 t (List.mem_of_mem_filter ht), hr.2.sublist List.filter_sublist⟩

/-- Tests that agree on the tuples of a relation give the same part. -/
lemma restrict_congr (h : ∀ t ∈ r.tuples, test t = other t) :
    r.restrict test = r.restrict other := by
  rw [restrict, restrict, List.filter_congr h]

/-- The part of a part holds the tuples that pass both tests. -/
lemma restrict_restrict (r : Relation) (test other : Tuple → Bool) :
    (r.restrict test).restrict other = r.restrict fun t => test t && other t := by
  simp only [restrict, List.filter_filter, Bool.and_comm]

/-- A test that all tuples pass gives the whole relation. -/
lemma restrict_true (r : Relation) : (r.restrict fun _ => true) = r := by
  rw [restrict, List.filter_true]

/-- A test that no tuple passes gives the relation without tuples. -/
lemma restrict_false (r : Relation) : (r.restrict fun _ => false) = empty r.heading := by
  rw [restrict, List.filter_false, empty]

/-- A part contains those tuples of the relation that pass the test. -/
lemma contains_restrict (hr : r.WellFormed) {t : Tuple} (ht : t ∈ r.tuples) :
    (r.restrict test).contains t = test t := by
  rw [Bool.eq_iff_iff, contains, TupleSet.contains_iff]
  constructor
  · rintro ⟨v, hv, hequal⟩
    obtain ⟨hmem, htest⟩ := List.mem_filter.1 hv
    rwa [hr.2.eq_of_equal ht hmem hequal]
  · intro htest
    exact ⟨t, List.mem_filter.2 ⟨ht, htest⟩, Tuple.equal_refl t⟩

/-- The intersection of two parts holds the tuples that pass both tests. -/
lemma intersection_restrict (hr : r.WellFormed) (test other : Tuple → Bool) :
    (r.restrict test).intersection (r.restrict other) =
      .ok (r.restrict fun t => test t && other t) := by
  rw [intersection_eq (hr.restrict_over test) (hr.restrict_over other)]
  change Except.ok ((r.restrict test).restrict fun t => (r.restrict other).contains t) = _
  rw [restrict_restrict]
  refine congrArg Except.ok (restrict_congr fun t ht => ?_)
  rw [contains_restrict hr ht]

/-- The union of two parts holds the tuples that pass one of the tests. -/
lemma union_restrict (hr : r.WellFormed) (test other : Tuple → Bool) :
    (r.restrict test).union (r.restrict other) =
      .ok (r.restrict fun t => test t || other t) := by
  have hset : TupleSet.ofList ((r.restrict test).tuples ++ (r.restrict other).tuples) =
      (r.restrict fun t => test t || other t).tuples := by
    refine TupleSet.ofList_eq_of_mem_iff (hr.restrict_over _).wellFormed.2 fun t => ?_
    simp only [restrict, List.mem_append, List.mem_filter, Bool.or_eq_true, and_or_left]
  rw [union_eq (hr.restrict_over test) (hr.restrict_over other), hset]
  rfl

/-- The difference of a relation and a part holds the tuples that do not pass the test. -/
lemma difference_restrict (hr : r.WellFormed) (test : Tuple → Bool) :
    r.difference (r.restrict test) = .ok (r.restrict fun t => !test t) := by
  rw [difference_eq hr.over (hr.restrict_over test)]
  change Except.ok (r.restrict fun t => !(r.restrict test).contains t) = _
  refine congrArg Except.ok (restrict_congr fun t ht => ?_)
  rw [contains_restrict hr ht]

/-- An operation on parts of a relation that combines their tests by a connective, and a quantifier
that is the connective of any number of truth values. -/
structure Combines (r : Relation) (operation : Relation → Relation → Except Error Relation)
    (connective : Bool → Bool → Bool) (quantifier : List Bool → Bool) : Prop where
  pair : ∀ test other, operation (r.restrict test) (r.restrict other) =
    .ok (r.restrict fun t => connective (test t) (other t))
  assoc : ∀ a b c, connective (connective a b) c = connective a (connective b c)
  nil : ∀ b, connective b (quantifier []) = b
  cons : ∀ b truths, quantifier (b :: truths) = connective b (quantifier truths)

/-- Intersections combine tests by conjunction. -/
lemma combines_intersection (hr : r.WellFormed) :
    r.Combines intersection and fun truths => truths.all id where
  pair := intersection_restrict hr
  assoc := Bool.and_assoc
  nil := Bool.and_true
  cons _ _ := List.all_cons

/-- Unions combine tests by disjunction. -/
lemma combines_union (hr : r.WellFormed) :
    r.Combines union or fun truths => truths.any id where
  pair := union_restrict hr
  assoc := Bool.or_assoc
  nil := Bool.or_false
  cons _ _ := List.any_cons

section Combines

variable {operation : Relation → Relation → Except Error Relation}
  {connective : Bool → Bool → Bool} {quantifier : List Bool → Bool}

/-- Applied to one part after the other, the operation combines all tests. -/
lemma Combines.foldlM (h : r.Combines operation connective quantifier) (first : Tuple → Bool)
    (tests : List (Tuple → Bool)) :
    (tests.map r.restrict).foldlM operation (r.restrict first) =
      .ok (r.restrict fun t => quantifier (first t :: tests.map fun test => test t)) := by
  induction tests generalizing first with
  | nil =>
    simp only [List.map_nil, h.cons, h.nil]
    rfl
  | cons test tests ih =>
    rw [List.map_cons, List.foldlM_cons, h.pair, ok_bind, ih]
    simp only [List.map_cons, h.cons, h.assoc]

/-- The operation combines the tests of any number of parts. -/
lemma Combines.combined_restrict (h : r.Combines operation connective quantifier)
    (tests : List (Tuple → Bool)) :
    combined operation (r.restrict fun _ => quantifier []) (tests.map r.restrict) =
      .ok (r.restrict fun t => quantifier (tests.map fun test => test t)) := by
  cases tests with
  | nil => rfl
  | cons first tests => exact h.foldlM first tests

end Combines

/-! ## Selections -/

/-- Selecting gives a relation if the predicate has a truth value on every tuple, and then the part
of which it is true. -/
lemma select_eq_ok_iff :
    r.select predicate = .ok u ↔
      (∀ t ∈ r.tuples, predicate.HasValue ⟨r.heading, t⟩) ∧
        u = r.restrict (predicate.holds r.heading) := by
  have htests : (∃ truths, r.tuples.mapM (fun t => predicate.eval ⟨r.heading, t⟩) = .ok truths) ↔
      ∀ t ∈ r.tuples, predicate.HasValue ⟨r.heading, t⟩ := exists_mapM_eq_ok_iff
  rw [← htests, select, satisfying_eq]
  cases r.tuples.mapM fun t => predicate.eval ⟨r.heading, t⟩ with
  | error e =>
    constructor
    · intro hu
      cases hu
    · rintro ⟨⟨truths, htruths⟩, -⟩
      cases htruths
  | ok truths =>
    constructor
    · intro hu
      exact ⟨⟨truths, rfl⟩, (Except.ok.inj hu).symm⟩
    · rintro ⟨-, rfl⟩
      rfl

/-- Selecting gives a relation exactly if the predicate has a truth value on every tuple. -/
lemma exists_select_iff :
    (∃ u, r.select predicate = .ok u) ↔
      ∀ t ∈ r.tuples, predicate.HasValue ⟨r.heading, t⟩ := by
  simp only [select_eq_ok_iff, exists_and_left, exists_eq, and_true]

/-- Selections by each of some predicates give relations exactly if on every tuple all predicates
have truth values. -/
lemma forall_exists_select_iff :
    (∀ part ∈ parts, ∃ s, r.select part = .ok s) ↔
      ∀ t ∈ r.tuples, ∀ part ∈ parts, part.HasValue ⟨r.heading, t⟩ := by
  simp only [exists_select_iff]
  exact ⟨fun h t ht part hpart => h part hpart t ht, fun h part hpart t ht => h t ht part hpart⟩

/-- Predicates by which selections give relations have truth values on every tuple. -/
lemma hasValue_of_selected {selected : List Relation}
    (h : List.Forall₂ (fun part s => r.select part = .ok s) parts selected) :
    ∀ t ∈ r.tuples, ∀ part ∈ parts, part.HasValue ⟨r.heading, t⟩ := by
  refine forall_exists_select_iff.1 fun part hpart => ?_
  obtain ⟨s, -, hs⟩ := exists_of_forall₂ h.flip hpart
  exact ⟨s, hs⟩

/-- What selections by some predicates give are the parts of which these are true. -/
lemma selected_eq_map {selected : List Relation}
    (h : List.Forall₂ (fun part s => r.select part = .ok s) parts selected) :
    selected = (parts.map fun part => part.holds r.heading).map r.restrict := by
  induction h with
  | nil => rfl
  | cons hpart _ ih => rw [(select_eq_ok_iff.1 hpart).2, ih, List.map_cons, List.map_cons]

/-- If the truth value of a predicate combines those of its parts, selecting by it combines the
selections by the parts. -/
lemma Combines.select {operation : Relation → Relation → Except Error Relation}
    {connective : Bool → Bool → Bool} {quantifier : List Bool → Bool}
    (h : r.Combines operation connective quantifier)
    (hvalue : ∀ t : Tuple, (∀ part ∈ parts, part.HasValue ⟨r.heading, t⟩) →
      predicate.HasValue ⟨r.heading, t⟩ ∧
        predicate.holds r.heading t = quantifier (parts.map fun part => part.holds r.heading t))
    {selected : List Relation}
    (hselected : List.Forall₂ (fun part s => r.select part = .ok s) parts selected) :
    ∃ u, r.select predicate = .ok u ∧
      combined operation (r.restrict fun _ => quantifier []) selected = .ok u := by
  have hparts := hasValue_of_selected hselected
  refine ⟨_, select_eq_ok_iff.2 ⟨fun t ht => (hvalue t (hparts t ht)).1, rfl⟩, ?_⟩
  rw [selected_eq_map hselected, h.combined_restrict]
  refine congrArg Except.ok (restrict_congr fun t ht => ?_)
  rw [(hvalue t (hparts t ht)).2, List.map_map]
  rfl

/-- The laws that relate selections by formulas to selections by their parts. -/
structure SelectionLaws (r : Relation) : Prop where
  /-- Selecting by a conjunction succeeds exactly if selecting by each of its parts does. -/
  all_iff : ∀ parts, (∃ u, r.select (.all parts) = .ok u) ↔
    ∀ part ∈ parts, ∃ s, r.select part = .ok s
  /-- It gives the intersection of what the parts give, and the whole relation if there is no
  part. -/
  all_eq : ∀ parts selected,
    List.Forall₂ (fun part s => r.select part = .ok s) parts selected →
      ∃ u, r.select (.all parts) = .ok u ∧ combined intersection r selected = .ok u
  /-- Selecting by a disjunction succeeds exactly if selecting by each of its parts does. -/
  any_iff : ∀ parts, (∃ u, r.select (.any parts) = .ok u) ↔
    ∀ part ∈ parts, ∃ s, r.select part = .ok s
  /-- It gives the union of what the parts give, and no tuples if there is no part. -/
  any_eq : ∀ parts selected,
    List.Forall₂ (fun part s => r.select part = .ok s) parts selected →
      ∃ u, r.select (.any parts) = .ok u ∧ combined union (empty r.heading) selected = .ok u
  /-- Selecting by a negation succeeds exactly if selecting by its part does. -/
  not_iff : ∀ predicate, (∃ u, r.select (.not predicate) = .ok u) ↔
    ∃ s, r.select predicate = .ok s
  /-- It gives what the part leaves. -/
  not_eq : ∀ predicate s, r.select predicate = .ok s →
    ∃ u, r.select (.not predicate) = .ok u ∧ r.difference s = .ok u
  /-- What a conjunction of two predicates gives can be selected by one after the other. -/
  all_pair : ∀ first second u, r.select (.all [first, second]) = .ok u →
    ∃ s, r.select first = .ok s ∧ s.select second = .ok u

/-- Selection turns formulas into operations on relations: conjunctions into intersections,
disjunctions into unions and negations into differences. It succeeds for a formula exactly if it
does for the parts, and two conditions can be selected by in sequence. -/
theorem select_homomorphism (hr : r.WellFormed) : SelectionLaws r where
  all_iff parts := by
    rw [exists_select_iff, forall_exists_select_iff]
    exact forall₂_congr fun t _ => Predicate.hasValue_all
  all_eq := by
    intro parts selected h
    have hselect := (combines_intersection hr).select (fun t hvalues =>
      ⟨Predicate.hasValue_all.2 hvalues, Predicate.holds_all hvalues⟩) h
    simpa only [List.all_nil, restrict_true] using hselect
  any_iff parts := by
    rw [exists_select_iff, forall_exists_select_iff]
    exact forall₂_congr fun t _ => Predicate.hasValue_any
  any_eq := by
    intro parts selected h
    have hselect := (combines_union hr).select (fun t hvalues =>
      ⟨Predicate.hasValue_any.2 hvalues, Predicate.holds_any hvalues⟩) h
    simpa only [List.any_nil, restrict_false] using hselect
  not_iff predicate := by
    rw [exists_select_iff, exists_select_iff]
    exact forall₂_congr fun t _ => Predicate.hasValue_not
  not_eq := by
    intro predicate s h
    obtain ⟨hvalues, rfl⟩ := select_eq_ok_iff.1 h
    refine ⟨_, select_eq_ok_iff.2 ⟨fun t ht => Predicate.hasValue_not.2 (hvalues t ht), rfl⟩, ?_⟩
    rw [difference_restrict hr]
    exact congrArg Except.ok (restrict_congr fun t ht => (Predicate.holds_not (hvalues t ht)).symm)
  all_pair := by
    intro first second u h
    obtain ⟨hvalues, rfl⟩ := select_eq_ok_iff.1 h
    have hparts : ∀ t ∈ r.tuples, ∀ part ∈ [first, second], part.HasValue ⟨r.heading, t⟩ :=
      fun t ht => Predicate.hasValue_all.1 (hvalues t ht)
    refine ⟨_, select_eq_ok_iff.2 ⟨fun t ht => hparts t ht first (by simp), rfl⟩, ?_⟩
    -- the second condition is tested on fewer tuples than in the conjunction
    refine select_eq_ok_iff.2 ⟨fun t ht => ?_, ?_⟩
    · exact hparts t (List.mem_of_mem_filter ht) second (by simp)
    · change _ = (r.restrict _).restrict (second.holds r.heading)
      rw [restrict_restrict]
      refine restrict_congr fun t ht => ?_
      simp [Predicate.holds_all (hparts t ht)]

/-- The rows whose number is greater than one and whose mark is `x` are those of the rows with such
a number that are among the rows with this mark. -/
theorem select_homomorphism_of_two_conditions :
    let heading : Heading := [.name "number", .name "mark"]
    let r : Relation :=
      ⟨heading, [[.int 1, .text "x"], [.int 2, .text "y"], [.int 3, .text "x"]]⟩
    let greater : Predicate := .compare .gt (.field (.name "number")) (.literal (.int 1))
    let marked : Predicate := .compare .exact (.field (.name "mark")) (.literal (.text "x"))
    let s : Relation := ⟨heading, [[.int 2, .text "y"], [.int 3, .text "x"]]⟩
    let s' : Relation := ⟨heading, [[.int 1, .text "x"], [.int 3, .text "x"]]⟩
    let u : Relation := ⟨heading, [[.int 3, .text "x"]]⟩
    r.WellFormed ∧ r.select greater = .ok s ∧ r.select marked = .ok s' ∧
      s.intersection s' = .ok u ∧ r.select (.all [greater, marked]) = .ok u := by
  intro heading r greater marked s s' u
  have hr : r.WellFormed := by decide +kernel
  have hgreater : r.select greater = .ok s := rfl
  have hmarked : r.select marked = .ok s' := by decide +kernel
  have hintersection : s.intersection s' = .ok u := by decide +kernel
  obtain ⟨v, hv, hcombined⟩ := (select_homomorphism hr).all_eq [greater, marked] [s, s']
    (.cons hgreater (.cons hmarked .nil))
  obtain rfl : v = u := by
    rw [combined, List.foldlM_cons, hintersection] at hcombined
    exact (Except.ok.inj hcombined).symm
  exact ⟨hr, hgreater, hmarked, hintersection, hv⟩

end Relation

end RelationalAlgebra
