import RelationalAlgebra.Proofs.Decimal.Reading
import RelationalAlgebra.Proofs.Json.Expression

/-!
# What is read can be written

A JSON value may spell a scalar, an attribute or a predicate in many ways: as an object or a list,
with its keys in any order and with others between them.  Whatever the spelling was, the value that
is read from it does not open more, when it is written, than was allowed for the reading, and all
its numbers are finite.  The induction is on what may be opened, since every reader hands less of it
to the readers of the parts.
-/

namespace RelationalAlgebra

open Json

/-! ## Scalars -/

namespace Scalar

/-- A scalar opens at most one object. -/
lemma nesting_toJson_le (v : Scalar) : v.toJson.nesting ≤ 1 := by
  cases v with
  | float x =>
    have hx : x.toJson.nesting = 0 := by
      unfold Binary64.toJson
      split <;> rfl
    simp [toJson, hx]
  | _ => simp [toJson, nesting]

/-- A scalar that is read opens no more than may be opened, and its number is finite. -/
lemma of_ofJson? {depth : Nat} {j : Json} {v : Scalar} (h : ofJson? depth j = some v) :
    v.toJson.nesting ≤ depth ∧ ∀ x ∈ v.floats, x.isFinite = true := by
  have hopen : ∀ {name content}, variant? depth j = some (name, some content) →
      v.toJson.nesting ≤ depth := fun hvariant =>
    v.nesting_toJson_le.trans (depth_pos_of_variant? hvariant)
  unfold ofJson? at h
  split at h
  · obtain rfl := Option.some.inj h
    simp [toJson, floats]
  · obtain rfl := Option.some.inj h
    simp [toJson, floats]
  · next b hvariant =>
    obtain rfl := Option.some.inj h
    exact ⟨hopen hvariant, by simp [floats]⟩
  · next content hvariant =>
    refine ⟨hopen hvariant, ?_⟩
    obtain ⟨n, -, rfl⟩ := Option.map_eq_some_iff.1 h
    simp [floats]
  · next content hvariant =>
    refine ⟨hopen hvariant, ?_⟩
    obtain ⟨x, hx, rfl⟩ := Option.map_eq_some_iff.1 h
    cases content with
    | number n => simpa [floats] using Decimal.isFinite_of_toBinary64? hx
    | _ => cases hx
  · next content hvariant =>
    refine ⟨hopen hvariant, ?_⟩
    obtain ⟨s, -, rfl⟩ := Option.map_eq_some_iff.1 h
    simp [floats]
  · next content hvariant =>
    refine ⟨hopen hvariant, ?_⟩
    obtain ⟨s, -, hdate⟩ := Option.bind_eq_some_iff.1 h
    obtain ⟨d, -, heq⟩ := Option.bind_eq_some_iff.1 hdate
    obtain rfl := Option.some.inj heq
    simp [floats]
  · cases h

end Scalar

/-! ## Attributes -/

namespace Attribute

/-- An attribute that is read opens no more than may be opened. -/
lemma nesting_le_of_ofJson? {depth : Nat} {j : Json} {attr : Attribute}
    (h : ofJson? depth j = some attr) : attr.toJson.nesting ≤ depth := by
  induction depth using Nat.strongRecOn generalizing j attr with
  | ind depth ih =>
    unfold ofJson? at h
    split at h
    · cases h
    · next depth =>
      split at h
      · obtain ⟨s, -, rfl⟩ := Option.map_eq_some_iff.1 h
        simp [toJson]
      · split at h
        · next inner _ attr _ _ =>
          obtain ⟨q, -, hrest⟩ := Option.bind_eq_some_iff.1 h
          obtain ⟨a, ha, heq⟩ := Option.bind_eq_some_iff.1 hrest
          obtain rfl := Option.some.inj heq
          have hinner := ih inner (by omega) ha
          simp [toJson, hinner]
        · cases h
      · cases h

end Attribute

/-! ## Predicates -/

/-- An operand that is read opens no more than may be opened, and its numbers are finite. -/
lemma Operand.of_ofJson? {depth : Nat} {j : Json} {operand : Operand}
    (h : ofJson? depth j = some operand) :
    operand.toJson.nesting ≤ depth ∧ ∀ x ∈ operand.floats, x.isFinite = true := by
  unfold ofJson? at h
  split at h
  · next content hvariant =>
    have hdepth := depth_pos_of_variant? hvariant
    obtain ⟨value, hvalue, rfl⟩ := Option.map_eq_some_iff.1 h
    obtain ⟨hnesting, hfinite⟩ := Scalar.of_ofJson? hvalue
    refine ⟨?_, hfinite⟩
    rw [toJson, nesting_record_singleton]
    omega
  · next content hvariant =>
    have hdepth := depth_pos_of_variant? hvariant
    obtain ⟨attr, hattr, rfl⟩ := Option.map_eq_some_iff.1 h
    have hnesting := Attribute.nesting_le_of_ofJson? hattr
    refine ⟨?_, by simp [floats]⟩
    rw [toJson, nesting_record_singleton]
    omega
  · cases h

namespace Predicate

/-- Several predicates that are read open no more than may be opened, and their numbers are
finite. -/
lemma of_mapM_ofJson? {depth : Nat} {items : List Json} {parts : List Predicate}
    (ih : ∀ {j : Json} {part : Predicate}, ofJson? depth j = some part →
      part.toJson.nesting ≤ depth ∧ ∀ x ∈ part.floats, x.isFinite = true)
    (h : items.mapM (ofJson? depth) = some parts) :
    (Json.array (listToJson parts)).nesting ≤ depth + 1 ∧
      ∀ x ∈ (comparisonsList parts).flatMap Comparison.floats, x.isFinite = true := by
  have hparts : ∀ part ∈ parts,
      part.toJson.nesting ≤ depth ∧ ∀ x ∈ part.floats, x.isFinite = true := by
    intro part hpart
    obtain ⟨j, -, hj⟩ := exists_of_forall₂ (mapM_eq_some_iff.1 h) hpart
    exact ih hj
  constructor
  · rw [listToJson_eq_map, nesting_array_le, List.forall_mem_map]
    exact fun part hpart => (hparts part hpart).1
  · intro x hx
    obtain ⟨part, hpart, hxpart⟩ := mem_floats_list.1 hx
    exact (hparts part hpart).2 x hxpart

/-- A comparison that is read opens no more than may be opened, and its numbers are finite. -/
lemma of_comparison? {depth : Nat} {content : Json} {predicate : Predicate}
    (h : comparison? depth content = some predicate) :
    predicate.toJson.nesting ≤ depth + 1 ∧ ∀ x ∈ predicate.floats, x.isFinite = true := by
  unfold comparison? at h
  split at h
  · next lookupJson lhsJson rhsJson hfields =>
    have hdepth := depth_pos_of_fields? hfields
    obtain ⟨lookup, -, hrest⟩ := Option.bind_eq_some_iff.1 h
    obtain ⟨lhs, hlhs, hrest⟩ := Option.bind_eq_some_iff.1 hrest
    obtain ⟨rhs, hrhs, heq⟩ := Option.bind_eq_some_iff.1 hrest
    obtain rfl := Option.some.inj heq
    obtain ⟨hlnesting, hlfinite⟩ := Operand.of_ofJson? hlhs
    obtain ⟨hrnesting, hrfinite⟩ := Operand.of_ofJson? hrhs
    constructor
    · rw [toJson, nesting_record_singleton, nesting_record_triple, Lookup.nesting_toJson]
      omega
    · simp only [floats, comparisons, List.flatMap_singleton, Comparison.floats,
        List.forall_mem_append]
      exact ⟨hlfinite, hrfinite⟩
  · cases h

/-- A predicate that is read opens no more than may be opened, and its numbers are finite. -/
lemma of_ofJson? {depth : Nat} {j : Json} {predicate : Predicate}
    (h : ofJson? depth j = some predicate) :
    predicate.toJson.nesting ≤ depth ∧ ∀ x ∈ predicate.floats, x.isFinite = true := by
  induction depth using Nat.strongRecOn generalizing j predicate with
  | ind depth ih =>
    unfold ofJson? at h
    split at h
    · cases h
    · next depth =>
      split at h
      · exact of_comparison? h
      · split at h
        · cases h
        · next inner _ =>
          obtain ⟨parts, hparts, rfl⟩ := Option.map_eq_some_iff.1 h
          obtain ⟨hnesting, hfinite⟩ := of_mapM_ofJson? (ih inner (by omega)) hparts
          refine ⟨?_, hfinite⟩
          rw [toJson, nesting_record_singleton]
          omega
      · split at h
        · cases h
        · next inner _ =>
          obtain ⟨parts, hparts, rfl⟩ := Option.map_eq_some_iff.1 h
          obtain ⟨hnesting, hfinite⟩ := of_mapM_ofJson? (ih inner (by omega)) hparts
          refine ⟨?_, hfinite⟩
          rw [toJson, nesting_record_singleton]
          omega
      · obtain ⟨part, hpart, rfl⟩ := Option.map_eq_some_iff.1 h
        obtain ⟨hnesting, hfinite⟩ := ih depth (by omega) hpart
        refine ⟨?_, hfinite⟩
        rw [toJson, nesting_record_singleton]
        omega
      · cases h

end Predicate

/-! ## Aggregates -/

/-- An aggregate that is read opens no more than may be opened. -/
lemma Aggregate.nesting_le_of_ofJson? {depth : Nat} {j : Json} {aggregate : Aggregate}
    (h : ofJson? depth j = some aggregate) : aggregate.toJson.nesting ≤ depth := by
  unfold ofJson? at h
  split at h
  · next kindJson attrJson hfields =>
    have hdepth := depth_pos_of_fields? hfields
    obtain ⟨kind, -, hrest⟩ := Option.bind_eq_some_iff.1 h
    obtain ⟨attr, hattr, heq⟩ := Option.bind_eq_some_iff.1 hrest
    obtain rfl := Option.some.inj heq
    have hnesting := Attribute.nesting_le_of_ofJson? hattr
    rw [toJson, nesting_record_pair, AggregateKind.nesting_toJson]
    dsimp only
    omega
  · cases h

end RelationalAlgebra
