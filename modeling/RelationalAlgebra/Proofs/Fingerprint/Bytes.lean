import Mathlib.Algebra.Group.Nat.Defs
import Mathlib.Data.List.Forall2
import RelationalAlgebra.Relation.Fingerprint

/-!
# Reading back what a fingerprint is made from

A fingerprint is the digest of a stream of bytes without separators.  That the stream determines
what was written is a property of each writer on its own, provided it is stated for a stream that
goes on: `Readable` says that two streams which begin with written values are equal only if the
values are the same and the streams go on in the same way.  It passes from the parts to the whole,
and to lists whose length is known.

Lengths are written as words of 64 bits, so all of this holds of values whose lengths fit in a
word.
-/

namespace RelationalAlgebra

namespace Fingerprint

section

variable {α : Type} {sized : α → Prop} {same : α → α → Prop} {write : α → List UInt8}

/-- The values of a class can be read back from a stream that begins with their bytes, up to a
relation. -/
def Readable (sized : α → Prop) (same : α → α → Prop) (write : α → List UInt8) : Prop :=
  ∀ a b, sized a → sized b → ∀ s t, write a ++ s = write b ++ t → same a b ∧ s = t

namespace Readable

/-- The values of a list can be read back if the length of the list is known. -/
lemma flatMap (h : Readable sized same write) (length : Nat) :
    Readable (fun xs => xs.length = length ∧ ∀ x ∈ xs, sized x) (List.Forall₂ same)
      fun xs => xs.flatMap write := by
  rintro xs ys ⟨hxs, hsized⟩ ⟨hys, hsized'⟩ s t heq
  induction xs generalizing ys length with
  | nil =>
    obtain rfl : ys = [] := List.length_eq_zero_iff.1 (hys.trans hxs.symm)
    exact ⟨.nil, heq⟩
  | cons x xs ih =>
    obtain ⟨y, ys, rfl⟩ := List.exists_cons_of_length_eq_add_one (hys.trans hxs.symm)
    simp only [List.flatMap_cons, List.append_assoc] at heq
    rw [List.forall_mem_cons] at hsized hsized'
    obtain ⟨hsame, hrest⟩ := h x y hsized.1 hsized'.1 _ _ heq
    obtain ⟨htail, hend⟩ := ih xs.length ys rfl hsized.2
      (Nat.succ.inj (hys.trans hxs.symm)) hsized'.2 hrest
    exact ⟨.cons hsame htail, hend⟩

end Readable

end

/-! ## Words and texts -/

/-- The number of bytes that are written for a number. -/
@[simp] lemma length_littleEndian (count n : Nat) : (littleEndian count n).length = count := by
  induction count generalizing n with
  | zero => rfl
  | succ count ih => simp [littleEndian, ih]

/-- A number that fits in some bytes is determined by them. -/
lemma littleEndian_inj {count m n : Nat} (hm : m < 256 ^ count) (hn : n < 256 ^ count)
    (h : littleEndian count m = littleEndian count n) : m = n := by
  induction count generalizing m n with
  | zero =>
    rw [Nat.pow_zero] at hm hn
    omega
  | succ count ih =>
    rw [littleEndian, littleEndian, List.cons.injEq, ← UInt8.toNat_inj, UInt8.toNat_ofNat',
      UInt8.toNat_ofNat'] at h
    obtain ⟨hbyte, hrest⟩ := h
    have hdiv : m / 256 = n / 256 := ih (by omega) (by omega) hrest
    omega

/-- The numbers that a word can hold. -/
def FitsWord (n : Nat) : Prop :=
  n < 2 ^ 64

instance (n : Nat) : Decidable (FitsWord n) :=
  inferInstanceAs (Decidable (n < 2 ^ 64))

/-- Words can be read back. -/
lemma readable_wordBytes : Readable FitsWord (· = ·) wordBytes := by
  intro m n hm hn s t heq
  obtain ⟨hword, hrest⟩ := List.append_inj heq (by simp [wordBytes])
  exact ⟨littleEndian_inj hm hn hword, hrest⟩

/-- The number of bytes of a text fits in a word. -/
def TextSized (s : String) : Prop :=
  FitsWord s.utf8ByteSize

instance (s : String) : Decidable (TextSized s) :=
  inferInstanceAs (Decidable (FitsWord _))

/-- Texts can be read back: their length stands in front. -/
lemma readable_textBytes : Readable TextSized (· = ·) textBytes := by
  intro a b ha hb s t heq
  rw [textBytes, textBytes, List.append_assoc, List.append_assoc] at heq
  obtain ⟨hsize, hrest⟩ := readable_wordBytes _ _ ha hb _ _ heq
  have hbytes : ∀ c : String, c.toUTF8.data.toList.length = c.utf8ByteSize := fun _ => rfl
  obtain ⟨htext, hend⟩ := List.append_inj hrest (by rw [hbytes, hbytes, hsize])
  refine ⟨String.toByteArray_inj.1 (ByteArray.ext ?_), hend⟩
  exact Array.toList_inj.1 htext

/-! ## Attributes -/

/-- The texts of all parts of an attribute have lengths that fit in a word. -/
def AttributeSized : Attribute → Prop
  | .name text => TextSized text
  | .qualified qualifier inner => TextSized qualifier ∧ AttributeSized inner

instance decidableAttributeSized : (attr : Attribute) → Decidable (AttributeSized attr)
  | .name text => inferInstanceAs (Decidable (TextSized text))
  | .qualified _ inner =>
    have := decidableAttributeSized inner
    inferInstanceAs (Decidable (_ ∧ _))

/-- Attributes can be read back: a tag tells whether another part follows. -/
lemma readable_attributeBytes : Readable AttributeSized (· = ·) attributeBytes := by
  intro a b ha hb s t heq
  induction a generalizing b with
  | name text =>
    cases b with
    | name other =>
      simp only [attributeBytes, List.cons_append, List.cons.injEq, true_and] at heq
      obtain ⟨rfl, hend⟩ := readable_textBytes _ _ ha hb _ _ heq
      exact ⟨rfl, hend⟩
    | qualified other rest => simp [attributeBytes] at heq
  | qualified qualifier inner ih =>
    cases b with
    | name other => simp [attributeBytes] at heq
    | qualified other rest =>
      simp only [attributeBytes, List.cons_append, List.append_assoc, List.cons.injEq,
        true_and] at heq
      obtain ⟨rfl, hinner⟩ := readable_textBytes _ _ ha.1 hb.1 _ _ heq
      obtain ⟨rfl, hend⟩ := ih rest ha.2 hb.2 hinner
      exact ⟨rfl, hend⟩

end Fingerprint

end RelationalAlgebra
