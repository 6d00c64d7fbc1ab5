import RelationalAlgebra.Proofs.Operator.Outcomes
import RelationalAlgebra.Proofs.TupleSet.Membership
import RelationalAlgebra.Relation.Table

/-!
# Runs of the library

A run is a sequence of calls, each of which may take relations that earlier calls of the run have
made.  A call that fails makes no relation, and the run goes on.

The operations of the library check the lengths of tuples and the order of a set only where these
come from outside.  Everywhere else they rely on the relations that they are given.  The main
statement says that they may do so: every relation of every run is well formed, so all positions
that are read in its tuples exist, and no call fails with an error of length except those that
are given something with a length.
-/

namespace RelationalAlgebra

/-! ## Positions in tuples -/

/-- All values of a record that are read by their attributes are there. -/
def Record.InBounds (record : Record) : Prop :=
  ∀ attr i, record.heading.indexOf attr = .ok i → i < record.values.length

/-- All values that are read from the tuples of a relation by their positions are there: in
projections and in the keys of groups, in the records that predicates are tested on, in the
records of groups that aggregates are taken over, and in the columns of a table. -/
structure Relation.InBounds (r : Relation) : Prop where
  positions : ∀ attrs positions, r.heading.positions attrs = .ok positions →
    ∀ t ∈ r.tuples, ∀ i ∈ positions, i < t.length
  records : ∀ record ∈ r.records, record.InBounds
  groups : ∀ positions, ∀ group ∈ Relation.groups positions r.tuples, ∀ t ∈ group.members,
    (r.record t).InBounds
  cells : ∀ options, ∀ row ∈ r.cellRows options, ∀ column < r.titles.length, column < row.length

namespace Relation

variable {r : Relation}

/-- All values of a record of a well-formed relation are there. -/
lemma WellFormed.record_inBounds (h : r.WellFormed) {t : Tuple} (ht : t ∈ r.tuples) :
    (r.record t).InBounds := by
  intro attr i hi
  have hlt := Heading.lt_length_of_indexOf hi
  exact hlt.trans_eq (h.1 t ht).symm

/-- All values that are read from a well-formed relation are there. -/
theorem WellFormed.inBounds (h : r.WellFormed) : r.InBounds where
  positions attrs positions hpositions t ht i hi := by
    rw [h.1 t ht]
    exact Heading.lt_length_of_positions hpositions hi
  records record hrecord := by
    obtain ⟨t, ht, rfl⟩ := List.mem_map.1 hrecord
    exact h.record_inBounds ht
  groups positions group hgroup t ht :=
    h.record_inBounds ((groups_from positions r.tuples group hgroup).members_subset ht)
  cells options row hrow column hcolumn := by
    obtain ⟨t, ht, rfl⟩ := List.mem_map.1 hrow
    rw [titles, List.length_map] at hcolumn
    rw [List.length_map, h.1 t (List.mem_of_mem_take ht)]
    exact hcolumn

/-- No two tuples of a well-formed relation are equal. -/
lemma WellFormed.pairwise_not_equal (h : r.WellFormed) :
    r.tuples.Pairwise fun t u => Tuple.equal t u = false :=
  h.2.pairwise_not_equal

end Relation

/-! ## Calls -/

/-- A call of the library. The relations that a call takes are given by their numbers among those
that have been made before. -/
inductive Call where
  | ofRows (heading : Heading) (rows : List Tuple)
  | ofSet (heading : Heading) (set : List Tuple) (ascending : TupleSet.Ascending set)
  | empty (heading : Heading)
  | rename (input : Nat) (heading : Heading)
  | project (input : Nat) (attrs : List Attribute)
  | select (input : Nat) (predicate : Predicate)
  | groupBy (input : Nat) (keys : List Attribute) (aggregations : List Aggregation)
  | cross (left right : Nat)
  | naturalJoin (left right : Nat)
  | innerJoin (left right : Nat) (pairs : List JoinPair)
  | leftOuterJoin (left right : Nat) (pairs : List JoinPair)
  | union (left right : Nat)
  | intersection (left right : Nat)
  | difference (left right : Nat)
  | eval (operator : Operator) (inputs : List Nat)

namespace Call

/-- The outcome of an operation on one of the relations that have been made. -/
def onOne (made : List Relation) (input : Nat) (operation : Relation → Except Error Relation) :
    Option (Except Error Relation) :=
  made[input]?.map operation

/-- The outcome of an operation on two of the relations that have been made. -/
def onBoth (made : List Relation) (left right : Nat)
    (operation : Relation → Relation → Except Error Relation) : Option (Except Error Relation) :=
  made[left]?.bind fun r => made[right]?.map (operation r)

/-- The outcome of a call after some relations have been made. There is none if the call takes a
relation that has not been made. -/
def outcome (made : List Relation) : Call → Option (Except Error Relation)
  | .ofRows heading rows => some (Relation.ofRows heading rows)
  | .ofSet heading set _ => some (Relation.ofSet heading set)
  | .empty heading => some (.ok (Relation.empty heading))
  | .rename input heading => onOne made input fun r => r.rename heading
  | .project input attrs => onOne made input fun r => r.project attrs
  | .select input predicate => onOne made input fun r => r.select predicate
  | .groupBy input keys aggregations => onOne made input fun r => r.groupBy keys aggregations
  | .cross left right => onBoth made left right fun r s => r.cross s
  | .naturalJoin left right => onBoth made left right fun r s => r.naturalJoin s
  | .innerJoin left right pairs => onBoth made left right fun r s => r.innerJoin s pairs
  | .leftOuterJoin left right pairs => onBoth made left right fun r s => r.leftOuterJoin s pairs
  | .union left right => onBoth made left right fun r s => r.union s
  | .intersection left right => onBoth made left right fun r s => r.intersection s
  | .difference left right => onBoth made left right fun r s => r.difference s
  | .eval operator inputs => (inputs.mapM fun input => made[input]?).map operator.eval

/-- Whether a call is given something with a length: tuples, or a new heading. -/
def checksLength : Call → Bool
  | .ofRows _ _ | .ofSet _ _ _ | .rename _ _ => true
  | .eval operator _ => operator.comparesLength
  | _ => false

/-- The relations that have been made after one more call. -/
def step (made : List Relation) (call : Call) : List Relation :=
  match call.outcome made with
  | some (.ok r) => made ++ [r]
  | _ => made

/-- The relations that a sequence of calls makes. -/
def run (calls : List Call) : List Relation :=
  calls.foldl step []

/-! ## Steps and runs -/

section Step

variable {made : List Relation}

/-- An operation on one relation that has been made has the outcome of an operator. -/
lemma onOne_meets (operator : Operator) {input : Nat} {outcome : Except Error Relation}
    (wellFormed : ∀ r ∈ made, r.WellFormed)
    (h : onOne made input (fun r => operator.eval [r]) = some outcome) :
    Meets Relation.WellFormed (fun e => e.kind = .arity → operator.comparesLength = true)
      outcome := by
  obtain ⟨r, hr, rfl⟩ := Option.map_eq_some_iff.1 h
  refine operator.eval_meets fun s hs => ?_
  rw [List.mem_singleton.1 hs]
  exact wellFormed r (List.mem_of_getElem? hr)

/-- An operation on two relations that have been made has the outcome of an operator. -/
lemma onBoth_meets (operator : Operator) {left right : Nat} {outcome : Except Error Relation}
    (wellFormed : ∀ r ∈ made, r.WellFormed)
    (h : onBoth made left right (fun r s => operator.eval [r, s]) = some outcome) :
    Meets Relation.WellFormed (fun e => e.kind = .arity → operator.comparesLength = true)
      outcome := by
  obtain ⟨r, hr, h⟩ := Option.bind_eq_some_iff.1 h
  obtain ⟨s, hs, rfl⟩ := Option.map_eq_some_iff.1 h
  refine operator.eval_meets fun u hu => ?_
  rcases List.mem_pair.1 hu with rfl | rfl
  · exact wellFormed u (List.mem_of_getElem? hr)
  · exact wellFormed u (List.mem_of_getElem? hs)

/-- Relations that are looked up by their numbers have been made. -/
lemma mem_of_mapM_getElem? {inputs : List Nat} {relations : List Relation}
    (h : (inputs.mapM fun input => made[input]?) = some relations) :
    ∀ r ∈ relations, r ∈ made := by
  induction inputs generalizing relations with
  | nil =>
    obtain rfl := Option.some.inj h
    exact fun r hr => absurd hr List.not_mem_nil
  | cons input inputs ih =>
    rw [List.mapM_cons] at h
    obtain ⟨r, hr, h⟩ := Option.bind_eq_some_iff.1 h
    obtain ⟨rest, hrest, h⟩ := Option.bind_eq_some_iff.1 h
    obtain rfl := Option.some.inj h
    intro s hs
    rcases List.mem_cons.1 hs with rfl | hs
    · exact List.mem_of_getElem? hr
    · exact ih hrest s hs

/-- A call on well-formed relations makes a well-formed relation, and fails with an error of
length only if it is given something with a length. -/
theorem outcome_meets {call : Call} {outcome : Except Error Relation}
    (wellFormed : ∀ r ∈ made, r.WellFormed) (h : call.outcome made = some outcome) :
    Meets Relation.WellFormed (fun e => e.kind = .arity → call.checksLength = true) outcome := by
  cases call with
  | ofRows heading rows =>
    obtain rfl := Option.some.inj h
    exact (Relation.ofRows_meets heading rows).mono (fun _ hu => hu.wellFormed) fun _ _ _ => rfl
  | ofSet heading set ascending =>
    obtain rfl := Option.some.inj h
    exact (Relation.ofSet_meets heading ascending).mono (fun _ hu => hu.wellFormed)
      fun _ _ _ => rfl
  | empty heading =>
    obtain rfl := Option.some.inj h
    exact (Relation.empty_over heading).wellFormed
  | rename input heading => exact onOne_meets (.rename heading) wellFormed h
  | project input attrs => exact onOne_meets (.project attrs) wellFormed h
  | select input predicate => exact onOne_meets (.select predicate) wellFormed h
  | groupBy input keys aggregations =>
    exact onOne_meets (.groupBy keys aggregations) wellFormed h
  | cross left right => exact onBoth_meets .cross wellFormed h
  | naturalJoin left right => exact onBoth_meets .naturalJoin wellFormed h
  | innerJoin left right pairs => exact onBoth_meets (.innerJoin pairs) wellFormed h
  | leftOuterJoin left right pairs => exact onBoth_meets (.leftOuterJoin pairs) wellFormed h
  | union left right => exact onBoth_meets .union wellFormed h
  | intersection left right => exact onBoth_meets .intersection wellFormed h
  | difference left right => exact onBoth_meets .difference wellFormed h
  | eval operator inputs =>
    obtain ⟨relations, hrelations, rfl⟩ := Option.map_eq_some_iff.1 h
    exact operator.eval_meets fun r hr => wellFormed r (mem_of_mapM_getElem? hrelations r hr)

/-- One more call keeps all relations well formed. -/
theorem wellFormed_step (wellFormed : ∀ r ∈ made, r.WellFormed) (call : Call) :
    ∀ r ∈ step made call, r.WellFormed := by
  unfold step
  split
  · next r hcall =>
    intro s hs
    rcases List.mem_append.1 hs with hs | hs
    · exact wellFormed s hs
    · rw [List.mem_singleton.1 hs]
      exact outcome_meets wellFormed hcall
  · exact wellFormed

end Step

/-- A call that succeeds after a run adds its result. -/
lemma run_append_of_ok {calls : List Call} {call : Call} {r : Relation}
    (h : call.outcome (run calls) = some (.ok r)) : run (calls ++ [call]) = run calls ++ [r] := by
  rw [run, List.foldl_append]
  change step (run calls) call = _
  rw [step, h]

/-- All relations of a run are well formed. -/
theorem wellFormed_run (calls : List Call) : ∀ r ∈ run calls, r.WellFormed := by
  have hfold : ∀ made : List Relation, (∀ r ∈ made, r.WellFormed) →
      ∀ r ∈ calls.foldl step made, r.WellFormed := by
    induction calls with
    | nil => exact fun _ hmade => hmade
    | cons call calls ih => exact fun made hmade => ih _ (wellFormed_step hmade call)
  exact hfold [] fun r hr => absurd hr List.not_mem_nil

end Call

/-- Whatever calls are made, in whatever order: every relation that a call returns is one of the
run, and every relation of the run has tuples of the length of its heading in strictly ascending
order, so that no two of them are equal and all values that are read by their positions are
there.  After any run, a call fails with an error of length only if it is given something with a
length.  The operations on two relations of a run do not fail once their headings have been found
disjoint, or the same. -/
theorem run_invariant (calls : List Call) :
    (∀ call r, Call.outcome (Call.run calls) call = some (.ok r) →
      Call.run (calls ++ [call]) = Call.run calls ++ [r]) ∧
    (∀ r ∈ Call.run calls, r.WellFormed ∧
      (r.tuples.Pairwise fun t u => Tuple.equal t u = false) ∧ r.InBounds) ∧
    (∀ call e, Call.outcome (Call.run calls) call = some (.error e) → e.kind = .arity →
      call.checksLength = true) ∧
    ∀ r ∈ Call.run calls, ∀ s ∈ Call.run calls,
      (Heading.ensureDisjoint r.heading s.heading = .ok () → ∃ u, r.cross s = .ok u) ∧
      (Heading.ensureSame r.heading s.heading = .ok () →
        (∃ u, r.union s = .ok u) ∧ (∃ u, r.intersection s = .ok u) ∧
          ∃ u, r.difference s = .ok u) := by
  have wellFormed := Call.wellFormed_run calls
  refine ⟨fun call r hcall => Call.run_append_of_ok hcall, fun r hr => ?_,
    fun call e hcall => ?_, fun r hr s hs => ⟨?_, ?_⟩⟩
  · have h := wellFormed r hr
    exact ⟨h, h.pairwise_not_equal, h.inBounds⟩
  · exact Call.outcome_meets wellFormed hcall
  · intro hcheck
    have hdisjoint := (Heading.ensureDisjoint_meets r.heading s.heading).of_ok hcheck
    have hr := (wellFormed r hr).over
    have hs := (wellFormed s hs).over
    obtain ⟨u, hu, -⟩ := (Relation.cross_meets hr hs).exists_ok fun _ he => he.1 hdisjoint
    exact ⟨u, hu⟩
  · intro hcheck
    have hsame := (Heading.ensureSame_meets r.heading s.heading).of_ok hcheck
    have hr := (wellFormed r hr).over
    have hs := (wellFormed s hs).over
    obtain ⟨u, hu, -⟩ := (Relation.union_meets hr hs).exists_ok fun _ he => he.1 hsame
    obtain ⟨v, hv, -⟩ := (Relation.intersection_meets hr hs).exists_ok fun _ he => he.1 hsame
    obtain ⟨w, hw, -⟩ := (Relation.difference_meets hr hs).exists_ok fun _ he => he.1 hsame
    exact ⟨⟨u, hu⟩, ⟨v, hv⟩, w, hw⟩

-- A call that fails makes nothing, and later calls refer to the relations that are there.
example :
    (Call.run [
      .ofRows [.name "id", .name "city"] [[.int 1, .text "Oslo"], [.int 1, .text "Oslo"]],
      .ofRows [.name "id"] [[.int 1, .null]],
      .ofRows [.name "id"] [[.float (Binary64.ofInt 1)], [.null]],
      .naturalJoin 0 1, .union 0 1, .difference 2 0]) =
    [⟨[.name "id", .name "city"], [[.int 1, .text "Oslo"]]⟩,
      ⟨[.name "id"], [[.null], [.float (Binary64.ofInt 1)]]⟩,
      ⟨[.name "id", .name "city"], [[.int 1, .text "Oslo"]]⟩,
      ⟨[.name "id", .name "city"], []⟩] := by
  decide +kernel

end RelationalAlgebra
