import RelationalAlgebra.Proofs.Fingerprint.Scalars
import RelationalAlgebra.Proofs.Relation.Equality

/-!
# Fingerprints tell relations apart

The bytes of a relation give its arity before its attributes and its size before its tuples, so
that the lengths of all lists are known when they are read.  Hence the bytes determine the heading
and, up to equality in the order, the scalars of every tuple: they are the same exactly for equal
relations.  The digest adds nothing to this but its own collisions.
-/

namespace RelationalAlgebra

open Fingerprint

/-- Two different inputs with one digest. -/
def Blake3.Collision (x y : List UInt8) : Prop :=
  x ≠ y ∧ digest x = digest y

namespace Relation

variable {r s : Relation}

/-- All lengths that are written for a relation fit in a word. -/
structure Sized (r : Relation) : Prop where
  arity : FitsWord r.arity
  size : FitsWord r.size
  attributes : ∀ attr ∈ r.heading, AttributeSized attr
  scalars : ∀ t ∈ r.tuples, ∀ value ∈ t, ScalarSized value

/-- Values that are the same one by one have the same bytes. -/
lemma flatMap_eq_of_forall₂ {α : Type} {same : α → α → Prop} {write : α → List UInt8}
    (hwrite : ∀ a b, same a b → write a = write b) {xs ys : List α}
    (h : List.Forall₂ same xs ys) : xs.flatMap write = ys.flatMap write := by
  induction h with
  | nil => rfl
  | cons hsame _ ih => rw [List.flatMap_cons, List.flatMap_cons, hwrite _ _ hsame, ih]

/-- Equal relations have the same bytes, whatever scalars they show. -/
theorem relationBytes_eq_of_equal (h : r.equal s = true) : relationBytes r = relationBytes s := by
  obtain ⟨hheading, htuples⟩ := equal_iff_forall₂.1 h
  have hrows : r.tuples.flatMap (fun t => t.flatMap scalarBytes) =
      s.tuples.flatMap fun t => t.flatMap scalarBytes := by
    refine flatMap_eq_of_forall₂ (fun t u htu => ?_) htuples
    exact flatMap_eq_of_forall₂ (fun _ _ hab => scalarBytes_eq_of_compare_eq hab) htu
  rw [relationBytes, relationBytes, arity, arity, size, size, hheading, hrows, htuples.length_eq]

/-- Relations with the same bytes are equal. -/
theorem equal_of_relationBytes_eq (hr : r.WellFormed) (hs : s.WellFormed) (hrsized : r.Sized)
    (hssized : s.Sized) (h : relationBytes r = relationBytes s) : r.equal s = true := by
  rw [relationBytes, relationBytes, List.append_assoc, List.append_assoc] at h
  obtain ⟨harity, h⟩ := readable_wordBytes _ _ hrsized.arity hssized.arity _ _ h
  obtain ⟨hheading, h⟩ := readable_attributeBytes.flatMap r.arity r.heading s.heading
    ⟨rfl, hrsized.attributes⟩ ⟨harity.symm, hssized.attributes⟩ _ _ h
  obtain ⟨hsize, h⟩ := readable_wordBytes _ _ hrsized.size hssized.size _ _ h
  have hread := (readable_scalarBytes.flatMap r.arity).flatMap r.size
  obtain ⟨htuples, -⟩ := hread r.tuples s.tuples
    ⟨rfl, fun t ht => ⟨hr.1 t ht, hrsized.scalars t ht⟩⟩
    ⟨hsize.symm, fun t ht => ⟨(hs.1 t ht).trans harity.symm, hssized.scalars t ht⟩⟩
    [] [] (by rw [List.append_nil, List.append_nil]; exact h)
  exact equal_iff_forall₂.2 ⟨List.forall₂_eq_eq_eq ▸ hheading, htuples⟩

/-- The bytes of two relations are the same exactly if the relations are equal.  So equal relations
have one fingerprint, and unequal ones only through a collision of the digest. -/
theorem relationBytes_eq_iff_equal (hr : r.WellFormed) (hs : s.WellFormed)
    (hrsized : r.Sized) (hssized : s.Sized) :
    (relationBytes r = relationBytes s ↔ r.equal s = true) ∧
      (r.equal s = true → r.fingerprint = s.fingerprint) ∧
      (r.equal s = false → r.fingerprint = s.fingerprint →
        Blake3.Collision (relationBytes r) (relationBytes s)) := by
  have hiff : relationBytes r = relationBytes s ↔ r.equal s = true :=
    ⟨equal_of_relationBytes_eq hr hs hrsized hssized, relationBytes_eq_of_equal⟩
  refine ⟨hiff, fun hequal => ?_, fun hunequal hfingerprint => ⟨fun hbytes => ?_, hfingerprint⟩⟩
  · rw [fingerprint, fingerprint, hiff.2 hequal]
  · rw [hiff.1 hbytes] at hunequal
    cases hunequal

/-- Equal relations that show different scalars, and one that differs from them in a number that
equals no integer. -/
theorem relationBytes_eq_iff_equal_of_representatives :
    let heading : Heading := [.qualified "left" (.name "n"), .name "n"]
    let r : Relation := ⟨heading, [[.int 0, .float ⟨0x3FE0000000000000⟩], [.int 1, .text "é"]]⟩
    let s : Relation :=
      ⟨heading, [[.float (Binary64.zero true), .float ⟨0x3FE0000000000000⟩],
        [.float (Binary64.ofInt 1), .text "é"]]⟩
    let u : Relation := ⟨heading, [[.int 0, .float ⟨0x3FE0000000000001⟩], [.int 1, .text "é"]]⟩
    (r.WellFormed ∧ s.WellFormed ∧ u.WellFormed) ∧ (r.Sized ∧ s.Sized ∧ u.Sized) ∧
      r ≠ s ∧ relationBytes r = relationBytes s ∧ r.fingerprint = s.fingerprint ∧
        relationBytes r ≠ relationBytes u := by
  intro heading r s u
  have hr : r.WellFormed := by decide +kernel
  have hs : s.WellFormed := by decide +kernel
  have hu : u.WellFormed := by decide +kernel
  have hrsized : r.Sized := by constructor <;> decide +kernel
  have hssized : s.Sized := by constructor <;> decide +kernel
  have husized : u.Sized := by constructor <;> decide +kernel
  have hequal : r.equal s = true := by decide +kernel
  have hunequal : r.equal u ≠ true := by decide +kernel
  obtain ⟨hbytes, hfingerprint, -⟩ := relationBytes_eq_iff_equal hr hs hrsized hssized
  obtain ⟨hother, -⟩ := relationBytes_eq_iff_equal hr hu hrsized husized
  exact ⟨⟨hr, hs, hu⟩, ⟨hrsized, hssized, husized⟩, by decide +kernel, hbytes.2 hequal,
    hfingerprint hequal, fun h => hunequal (hother.1 h)⟩

end Relation

end RelationalAlgebra
