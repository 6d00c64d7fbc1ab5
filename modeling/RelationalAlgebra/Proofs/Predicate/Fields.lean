import Mathlib.Data.List.Induction
import RelationalAlgebra.Proofs.Predicate.Strictness

/-!
# The fields of a predicate

The fields of a predicate are collected by one recursion and used by another one.  Both go through
the comparisons from left to right, so they stay in step: the fields are the attributes to which
comparisons refer, each at its first occurrence, and an evaluation reads the values of just these.

Main statement: the fields decide the outcome.  Records that agree on them have the same outcome,
whatever their headings, and a missing attribute is an error exactly where it is a field.
-/

namespace RelationalAlgebra

variable {record other : Record}

/-! ## First occurrences -/

/-- A list holds the members of another list, each once and in the order in which they are first
met. -/
structure FirstOccurrences (attrs firsts : List Attribute) : Prop where
  mem_iff : ∀ a, a ∈ firsts ↔ a ∈ attrs
  nodup : firsts.Nodup
  ordered : firsts.Pairwise fun a b => attrs.idxOf a < attrs.idxOf b

/-- Members whose first occurrences come one after the other are different. -/
lemma FirstOccurrences.of_ordered {attrs firsts : List Attribute}
    (hmem : ∀ a, a ∈ firsts ↔ a ∈ attrs)
    (hordered : firsts.Pairwise fun a b => attrs.idxOf a < attrs.idxOf b) :
    FirstOccurrences attrs firsts where
  mem_iff := hmem
  nodup := hordered.imp fun hlt heq => Nat.ne_of_lt hlt (congrArg attrs.idxOf heq)
  ordered := hordered

/-- One more attribute is added to the first occurrences, unless it is among them. -/
lemma FirstOccurrences.concat {attrs firsts : List Attribute} (h : FirstOccurrences attrs firsts)
    (a : Attribute) :
    FirstOccurrences (attrs ++ [a]) (Predicate.addField firsts (.field a)) := by
  have hmem : ∀ b, b ∈ Predicate.addField firsts (.field a) ↔ b ∈ attrs ++ [a] := by
    intro b
    rw [Predicate.mem_addField, h.mem_iff, List.mem_append, List.mem_singleton]
  have hkept : ∀ b ∈ firsts, (attrs ++ [a]).idxOf b = attrs.idxOf b := fun b hb =>
    List.idxOf_append_of_mem ((h.mem_iff b).1 hb)
  have hordered : firsts.Pairwise fun b c => (attrs ++ [a]).idxOf b < (attrs ++ [a]).idxOf c := by
    refine h.ordered.imp_of_mem fun {b c} hb hc hlt => ?_
    rwa [hkept b hb, hkept c hc]
  refine .of_ordered hmem ?_
  by_cases ha : a ∈ firsts
  · simpa only [Predicate.addField, Operand.field?, List.contains_iff_mem, ha, if_true]
      using hordered
  · -- A new attribute comes after all that were met before it.
    have hlast : ∀ b ∈ firsts, (attrs ++ [a]).idxOf b < (attrs ++ [a]).idxOf a := by
      intro b hb
      have hlt := List.idxOf_lt_length_of_mem ((h.mem_iff b).1 hb)
      rw [hkept b hb, List.idxOf_append_of_notMem fun hold => ha ((h.mem_iff a).2 hold)]
      omega
    simp only [Predicate.addField, Operand.field?, List.contains_iff_mem, ha, if_false]
    refine List.pairwise_append.2 ⟨hordered, List.pairwise_singleton _ a, fun b hb c hc => ?_⟩
    rw [List.mem_singleton.1 hc]
    exact hlast b hb

namespace Predicate

/-- Collecting references one by one keeps their first occurrences. -/
lemma firstOccurrences_addReferences (attrs : List Attribute) :
    FirstOccurrences attrs (addReferences [] attrs) := by
  induction attrs using List.reverseRecOn with
  | nil => exact ⟨fun _ => Iff.rfl, List.nodup_nil, List.Pairwise.nil⟩
  | append_singleton attrs a ih =>
    rw [addReferences_append]
    exact ih.concat a

/-- The fields of a predicate are the first occurrences of its references. -/
theorem firstOccurrences_fields (predicate : Predicate) :
    FirstOccurrences predicate.references predicate.fields := by
  rw [fields, fieldsAfter_eq_addReferences]
  exact firstOccurrences_addReferences _

end Predicate

/-! ## Records that agree -/

/-- An operand has the same value, or fails alike, on records that agree on what it refers to. -/
lemma Operand.resolve_congr {operand : Operand}
    (h : ∀ a, operand = .field a → record.get a = other.get a) :
    operand.resolve record = operand.resolve other := by
  cases operand with
  | literal value => rfl
  | field attr => exact h attr rfl

namespace Comparison

/-- A comparison refers to the attributes that are its operands. -/
lemma mem_fields {c : Comparison} {a : Attribute} :
    a ∈ c.fields ↔ c.lhs = .field a ∨ c.rhs = .field a := by
  obtain ⟨lookup, lhs, rhs⟩ := c
  cases lhs <;> cases rhs <;> simp [fields, Operand.field?, eq_comm]

/-- A comparison has the same outcome on records that agree on its fields. -/
lemma eval_congr {c : Comparison} (h : ∀ a ∈ c.fields, record.get a = other.get a) :
    c.eval record = c.eval other := by
  have hlhs : c.lhs.resolve record = c.lhs.resolve other :=
    Operand.resolve_congr fun a ha => h a (mem_fields.2 (.inl ha))
  have hrhs : c.rhs.resolve record = c.rhs.resolve other :=
    Operand.resolve_congr fun a ha => h a (mem_fields.2 (.inr ha))
  rw [eval, eval, hlhs, hrhs]

end Comparison

namespace Predicate

/-- A predicate has the same outcome on records that agree on its fields. -/
theorem eval_congr_of_fields {predicate : Predicate}
    (h : ∀ a ∈ predicate.fields, record.get a = other.get a) :
    predicate.eval record = predicate.eval other := by
  have hcomparisons : ∀ c ∈ predicate.comparisons, c.eval record = c.eval other := fun c hc =>
    Comparison.eval_congr fun a ha => h a (mem_fields.2 ⟨c, hc, ha⟩)
  have hvalue : predicate.value (Comparison.holds record) =
      predicate.value (Comparison.holds other) := by
    refine value_congr fun c hc => ?_
    rw [Comparison.holds, Comparison.holds, hcomparisons c hc]
  rw [eval_eq_mapM_comparisons, eval_eq_mapM_comparisons, mapM_congr hcomparisons, hvalue]

/-- What the fields of a predicate say about its evaluation. -/
structure DecidedByFields (predicate : Predicate) : Prop where
  /-- They are the attributes to which comparisons refer. -/
  mem_iff : ∀ a, a ∈ predicate.fields ↔
    ∃ c ∈ predicate.comparisons, c.lhs = .field a ∨ c.rhs = .field a
  /-- Records that agree on the fields have the same outcome. -/
  eval_congr : ∀ r s : Record, (∀ a ∈ predicate.fields, r.get a = s.get a) →
    predicate.eval r = predicate.eval s
  /-- An error about an attribute names a field that the record does not have. -/
  eq_missing : ∀ (r : Record) (e : Error), predicate.eval r = .error e → e.kind = .attributes →
    ∃ a ∈ predicate.fields, a ∉ r.heading ∧ e = .missingAttribute a
  /-- If the record does not have some field, the evaluation fails. -/
  exists_error : ∀ r : Record, ∀ a ∈ predicate.fields, a ∉ r.heading →
    ∃ e, predicate.eval r = .error e

/-- The fields of a predicate are its references, each at its first occurrence, and they decide the
outcome on every record. -/
theorem fields_decide_eval (predicate : Predicate) :
    FirstOccurrences predicate.references predicate.fields ∧ DecidedByFields predicate := by
  refine ⟨firstOccurrences_fields predicate, ?mem_iff, ?eval_congr, ?eq_missing, ?exists_error⟩
  case mem_iff =>
    intro a
    simp only [mem_fields, Comparison.mem_fields]
  case eval_congr => exact fun r s h => eval_congr_of_fields h
  case eq_missing =>
    intro r e he hkind
    rcases (predicate.eval_meets_unfit r).of_error he with hmissing | hmismatch
    · exact hmissing
    · rw [hkind] at hmismatch
      cases hmismatch
  case exists_error =>
    intro r a ha hmissing
    rcases h : predicate.eval r with e | truth
    · exact ⟨e, rfl⟩
    · exact absurd ((predicate.eval_meets_unfit r).of_ok h ha) hmissing

/-- Two records with different headings agree on the fields, of which one is met twice; a third
record lacks it. -/
theorem fields_decide_eval_of_repeated_field :
    let a : Attribute := .name "a"
    let b : Attribute := .qualified "t" (.name "b")
    let predicate : Predicate := any
      [.compare .exact (.field a) (.literal (.int 7)),
        not (all [.compare .gt (.field b) (.field a), any []])]
    let r : Record := ⟨[a, b, .name "c"], [.int 7, .text "x", .null]⟩
    let s : Record := ⟨[b, b, a], [.text "x", .int 9, .int 7]⟩
    let u : Record := ⟨[b], [.int 3]⟩
    predicate.references = [a, b, a] ∧ predicate.fields = [a, b] ∧
      (∀ c ∈ predicate.fields, r.get c = s.get c) ∧ predicate.eval r = predicate.eval s ∧
      predicate.eval s = .error (.typeMismatch "gt" .text .int) ∧
      ∃ e, predicate.eval u = .error e := by
  intro a b predicate r s u
  obtain ⟨-, hdecided⟩ := fields_decide_eval predicate
  have hagree : ∀ c ∈ predicate.fields, r.get c = s.get c := by decide
  exact ⟨rfl, rfl, hagree, hdecided.eval_congr r s hagree, by decide,
    hdecided.exists_error u a (by decide) (by decide)⟩

end Predicate

end RelationalAlgebra
