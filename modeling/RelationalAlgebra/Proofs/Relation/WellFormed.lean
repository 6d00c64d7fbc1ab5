import RelationalAlgebra.Proofs.Predicate.Comparisons
import RelationalAlgebra.Proofs.TupleSet.Membership
import RelationalAlgebra.Relation.Join

/-!
# Elementary operations keep relations well formed

Each operation gets one statement about its outcome on well-formed relations: the result is well
formed and has a heading that is known in advance, or the error is one of those that are listed.
The set that an operation makes is ascending because sets are, and its tuples fit the heading
because the operation takes them from tuples that fit theirs.
-/

namespace RelationalAlgebra

/-- Whether a predicate is true of a tuple under a heading. -/
def Predicate.holds (predicate : Predicate) (heading : Heading) (t : Tuple) : Bool :=
  predicate.eval ⟨heading, t⟩ = .ok true

namespace Relation

/-- A relation is well formed and has a heading that is given in advance. -/
structure Over (heading : Heading) (r : Relation) : Prop where
  heading_eq : r.heading = heading
  wellFormed : r.WellFormed

/-- A well-formed relation has its own heading. -/
lemma WellFormed.over {r : Relation} (h : r.WellFormed) : r.Over r.heading :=
  ⟨rfl, h⟩

/-- All tuples of a relation have the length of the heading. -/
lemma Over.length_eq {heading : Heading} {r : Relation} (h : r.Over heading) {t : Tuple}
    (ht : t ∈ r.tuples) : t.length = heading.length := by
  rw [← h.heading_eq]
  exact h.wellFormed.1 t ht

/-- The set of some tuples that fit a heading is a relation over it. -/
lemma over_ofList {heading : Heading} {rows : List Tuple}
    (h : ∀ t ∈ rows, t.length = heading.length) :
    Over heading ⟨heading, TupleSet.ofList rows⟩ where
  heading_eq := rfl
  wellFormed :=
    ⟨fun t ht => h t (TupleSet.mem_of_mem_ofList ht), TupleSet.ascending_ofList rows⟩

/-! ## Relations from tuples -/

/-- The error that one of some tuples does not have the length of a heading. -/
def Misfit (heading : Heading) (tuples : List Tuple) (e : Error) : Prop :=
  ∃ t ∈ tuples, t.length ≠ heading.length ∧ e = .arity heading.length t.length

/-- A tuple of the wrong length is an error of arity. -/
lemma Misfit.kind_eq {heading : Heading} {tuples : List Tuple} {e : Error}
    (h : Misfit heading tuples e) : e.kind = .arity := by
  obtain ⟨t, -, -, rfl⟩ := h
  rfl

/-- No tuple of a list that fits a heading has the wrong length. -/
lemma not_misfit {heading : Heading} {tuples : List Tuple} {e : Error}
    (h : ∀ t ∈ tuples, t.length = heading.length) : ¬ Misfit heading tuples e := by
  rintro ⟨t, ht, hne, -⟩
  exact hne (h t ht)

/-- Either all tuples fit a heading, or the error shows the length of one that does not. -/
lemma ensureArity_meets (heading : Heading) (tuples : List Tuple) :
    Meets (fun _ => ∀ t ∈ tuples, t.length = heading.length) (Misfit heading tuples)
      (ensureArity heading tuples) := by
  unfold ensureArity
  cases hfind : tuples.find? fun t => t.length != heading.length with
  | some t =>
    have hne := List.find?_some hfind
    exact ⟨t, List.mem_of_find?_eq_some hfind, bne_iff_ne.1 hne, rfl⟩
  | none =>
    intro t ht
    have hfits := List.find?_eq_none.1 hfind t ht
    rwa [bne_iff_ne, not_not] at hfits

/-- Tuples that fit a heading pass the check of their lengths. -/
lemma ensureArity_of_fits {heading : Heading} {tuples : List Tuple}
    (h : ∀ t ∈ tuples, t.length = heading.length) : ensureArity heading tuples = .ok () := by
  obtain ⟨_, hok, -⟩ := (ensureArity_meets heading tuples).exists_ok fun _ => not_misfit h
  exact hok

/-- A relation made from a set is well formed, and only the length of a tuple can be wrong. -/
theorem ofSet_meets (heading : Heading) {set : List Tuple} (h : TupleSet.Ascending set) :
    Meets (Over heading) (fun e => e.kind = .arity) (ofSet heading set) := by
  have harity := (ensureArity_meets heading set).imp_error fun _ he => he.kind_eq
  exact harity.bind fun _ hfits => ⟨rfl, hfits, h⟩

/-- A relation made from rows is well formed, and only the length of a row can be wrong. -/
theorem ofRows_meets (heading : Heading) (rows : List Tuple) :
    Meets (Over heading) (fun e => e.kind = .arity) (ofRows heading rows) := by
  have harity := (ensureArity_meets heading rows).imp_error fun _ he => he.kind_eq
  exact harity.bind fun _ hfits => over_ofList hfits

/-- The check of lengths in `ofSet` never fails on tuples that fit. -/
lemma ofSet_of_fits {heading : Heading} {rows : List Tuple}
    (h : ∀ t ∈ rows, t.length = heading.length) :
    ofSet heading (TupleSet.ofList rows) = .ok ⟨heading, TupleSet.ofList rows⟩ := by
  unfold ofSet
  rw [ensureArity_of_fits fun t ht => h t (TupleSet.mem_of_mem_ofList ht)]
  rfl

/-- A relation without tuples is well formed. -/
theorem empty_over (heading : Heading) : Over heading (empty heading) where
  heading_eq := rfl
  wellFormed := ⟨fun _ ht => absurd ht List.not_mem_nil, List.Pairwise.nil⟩

/-! ## Operations on one relation -/

section Unary

variable {r : Relation} {heading : Heading}

/-- Renaming fails only if the new heading has another length. -/
theorem rename_meets (h : r.Over heading) (new : Heading) :
    Meets (fun u => new.length = heading.length ∧ Over new u)
      (fun e => new.length ≠ heading.length ∧ e.kind = .arity) (r.rename new) := by
  obtain ⟨rfl, hr⟩ := h
  unfold rename
  by_cases hlength : new.length = r.arity
  · rw [if_pos hlength]
    exact ⟨hlength, rfl, fun t ht => (hr.1 t ht).trans hlength.symm, hr.2⟩
  · rw [if_neg hlength]
    exact ⟨hlength, rfl⟩

/-- Projecting fails only if an attribute is missing. -/
theorem project_meets (h : r.Over heading) (attrs : List Attribute) :
    Meets (Over attrs) (heading.Missing attrs) (r.project attrs) := by
  obtain ⟨rfl, -⟩ := h
  refine (Heading.positions_meets r.heading attrs).bind fun positions hpositions => ?_
  refine over_ofList fun t ht => ?_
  obtain ⟨u, -, rfl⟩ := List.mem_map.1 ht
  rw [Tuple.pick, List.length_map, hpositions.length_eq]

/-- Selecting tests all tuples, and keeps those of which the predicate is true. -/
theorem satisfying_eq (heading : Heading) (predicate : Predicate) (tuples : List Tuple) :
    satisfying heading predicate tuples =
      (tuples.mapM fun t => predicate.eval ⟨heading, t⟩).map fun _ =>
        tuples.filter (predicate.holds heading) := by
  induction tuples with
  | nil => rfl
  | cons t rest ih =>
    rw [satisfying, ih, List.mapM_cons, List.filter_cons, Predicate.holds]
    cases htest : predicate.eval ⟨heading, t⟩ with
    | error e => rfl
    | ok keep =>
      cases hrest : rest.mapM fun t => predicate.eval ⟨heading, t⟩ with
      | error e => rfl
      | ok values => cases keep <;> rfl

/-- What is kept of a list of tuples is a part of it, in the same order, and only a test of a
tuple can fail. -/
lemma satisfying_meets {bad : Error → Prop} (heading : Heading) (predicate : Predicate)
    {tuples : List Tuple}
    (h : ∀ t ∈ tuples, Meets (fun _ => True) bad (predicate.eval ⟨heading, t⟩)) :
    Meets (fun kept => kept.Sublist tuples) bad (satisfying heading predicate tuples) := by
  rw [satisfying_eq]
  exact (Meets.mapM_length h).map fun _ _ => List.filter_sublist

/-- Selecting fails only if the test of a tuple does. -/
theorem select_meets {bad : Error → Prop} (h : r.Over heading) {predicate : Predicate}
    (htests : ∀ t ∈ r.tuples, Meets (fun _ => True) bad (predicate.eval ⟨heading, t⟩)) :
    Meets (Over heading) bad (r.select predicate) := by
  obtain ⟨rfl, hr⟩ := h
  refine (satisfying_meets r.heading predicate htests).bind fun kept hkept => ?_
  exact ⟨rfl, fun t ht => hr.1 t (hkept.subset ht), hr.2.sublist hkept⟩

/-- Selecting fails only if a field of the predicate is missing or if values do not fit. -/
theorem select_meets_unfit (h : r.Over heading) (predicate : Predicate) :
    Meets (Over heading) (heading.Unfit predicate.fields) (r.select predicate) :=
  select_meets h fun t _ => (predicate.eval_meets_unfit ⟨heading, t⟩).imp_ok fun _ _ => trivial

end Unary

/-! ## Operations on two relations -/

section Binary

variable {r s : Relation} {left right : Heading}

/-- The product fails only if the headings share attributes, which the error lists. -/
theorem cross_meets (hr : r.Over left) (hs : s.Over right) :
    Meets (fun u => Heading.shared left right = [] ∧ Over (left ++ right) u)
      (Heading.Conflict left right) (r.cross s) := by
  have hfits : ∀ t ∈ r.tuples.flatMap fun t => s.tuples.map fun u => t ++ u,
      t.length = (left ++ right).length := by
    intro t ht
    obtain ⟨u, hu, hmap⟩ := List.mem_flatMap.1 ht
    obtain ⟨v, hv, rfl⟩ := List.mem_map.1 hmap
    rw [List.length_append, List.length_append, hr.length_eq hu, hs.length_eq hv]
  unfold cross
  rw [hr.heading_eq, hs.heading_eq, ofSet_of_fits hfits]
  exact (Heading.ensureDisjoint_meets left right).bind fun _ hdisjoint =>
    ⟨hdisjoint, over_ofList hfits⟩

/-- An operation that makes a set of tuples after it has compared the headings fails only if
these differ. -/
lemma ensureSame_ofSet_meets {rows : List Tuple}
    (hrows : left = right → ∀ t ∈ rows, t.length = left.length) :
    Meets (fun u => left = right ∧ Over left u) (Heading.Mismatch left right)
      (Heading.ensureSame left right >>= fun _ => ofSet left (TupleSet.ofList rows)) := by
  refine (Heading.ensureSame_meets left right).bind fun _ hsame => ?_
  rw [ofSet_of_fits (hrows hsame)]
  exact ⟨hsame, over_ofList (hrows hsame)⟩

/-- The union fails only if the headings differ, and then the error shows both. -/
theorem union_meets (hr : r.Over left) (hs : s.Over right) :
    Meets (fun u => left = right ∧ Over left u) (Heading.Mismatch left right)
      (r.union s) := by
  unfold union
  rw [hr.heading_eq, hs.heading_eq]
  refine ensureSame_ofSet_meets fun hsame t ht => ?_
  rcases List.mem_append.1 ht with hleft | hright
  · exact hr.length_eq hleft
  · rw [hs.length_eq hright, hsame]

/-- The intersection fails only if the headings differ, and then the error shows both. -/
theorem intersection_meets (hr : r.Over left) (hs : s.Over right) :
    Meets (fun u => left = right ∧ Over left u) (Heading.Mismatch left right)
      (r.intersection s) := by
  unfold intersection
  rw [hr.heading_eq, hs.heading_eq]
  exact ensureSame_ofSet_meets fun _ t ht => hr.length_eq (List.mem_of_mem_filter ht)

/-- The difference fails only if the headings differ, and then the error shows both. -/
theorem difference_meets (hr : r.Over left) (hs : s.Over right) :
    Meets (fun u => left = right ∧ Over left u) (Heading.Mismatch left right)
      (r.difference s) := by
  unfold difference
  rw [hr.heading_eq, hs.heading_eq]
  exact ensureSame_ofSet_meets fun _ t ht => hr.length_eq (List.mem_of_mem_filter ht)

end Binary

end Relation

end RelationalAlgebra
