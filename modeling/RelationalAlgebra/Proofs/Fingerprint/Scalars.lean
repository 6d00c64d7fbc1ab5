import RelationalAlgebra.Proofs.Date.Text
import RelationalAlgebra.Proofs.Fingerprint.Bytes
import RelationalAlgebra.Proofs.Scalar.Agreement

/-!
# Equal scalars have the same bytes

Scalars that are equal in the order are written alike, and no others.  Both halves go through one
scalar that stands for all scalars equal to it: a number that equals a 64-bit integer is replaced
by the integer, and everything else stands for itself.  Among the numbers that stand for themselves
the order tells all bit patterns apart, since the two zeros are not among them.

Main statement: scalars can be read back from their bytes, up to equality in the order.
-/

namespace RelationalAlgebra

open Fingerprint

namespace Binary64

/-! ## Numbers that are written as integers -/

/-- A not-a-number equals no integer, although its bits may look integral. -/
lemma fitsInt64_of_isNaN {x : Binary64} (h : x.isNaN = true) : fitsInt64 x = false := by
  have hbeyond := place_beyond_range (isFinite_eq_false_of_isNaN h)
  rw [fitsInt64, compare_eq_compare_place, compare_eq_compare_place, place_twoPow63,
    place_neg_twoPow63]
  cases hsign : x.isNegative
  · rw [hsign, if_neg Bool.false_ne_true] at hbeyond
    rw [Int.compare_eq_gt.2 hbeyond]
    exact Bool.and_false _
  · rw [hsign, if_pos rfl] at hbeyond
    rw [Int.compare_eq_lt.2 hbeyond]
    simp

/-- An integer is equal to a number exactly if the number is written as that integer. -/
lemma compareInt_eq_iff (n : Int64) (x : Binary64) :
    compareInt n x = .eq ↔ fitsInt64 x = true ∧ x.toInt64 = n := by
  by_cases hnan : x.isNaN = true
  · rw [compareInt, if_pos hnan, fitsInt64_of_isNaN hnan]
    cases x.isNegative <;> simp
  have hparts : (Ord.compare n x.toInt64).then (Ord.compare 0 x.fractionUnits) = .eq ↔
      x.isIntegral = true ∧ x.toInt64 = n := by
    rw [Ordering.then_eq_eq, Std.LawfulEqOrd.compare_eq_iff_eq, Int.compare_eq_eq, isIntegral,
      beq_iff_eq]
    exact ⟨fun h => ⟨h.2.symm, h.1.symm⟩, fun h => ⟨h.2.symm, h.1.symm⟩⟩
  rw [compareInt, if_neg hnan, fitsInt64]
  -- Both sides compare the number with the ends of the range.
  cases x.compare twoPow63 <;> cases x.compare twoPow63.neg
  case lt.eq | lt.gt =>
    rw [Bool.and_assoc]
    exact hparts.trans (by simp)
  all_goals simp

/-- A zero is written as an integer. -/
lemma fitsInt64_of_magnitude_eq_zero {x : Binary64} (h : x.magnitude = 0) :
    fitsInt64 x = true := by
  have hplace : x.place = placeOfInt (0 : Int64).toInt := by
    rw [place_eq_signed, h, distanceAt_zero, Int64.toInt_zero, placeOfInt, Int.zero_mul]
    cases x.isNegative <;> rfl
  have hzero : compareInt 0 x = .eq := by
    rw [compareInt_eq_compare_place, hplace, Int.compare_eq_eq]
  exact ((compareInt_eq_iff 0 x).1 hzero).1

/-- Two numbers that are equal and equal no integer have the same bits. -/
lemma eq_of_compare_eq_of_not_fitsInt64 {x y : Binary64} (hx : fitsInt64 x = false)
    (h : x.compare y = .eq) : x = y := by
  have hpos : x.magnitude ≠ 0 := by
    intro hzero
    rw [fitsInt64_of_magnitude_eq_zero hzero] at hx
    cases hx
  rw [compare, Int.compare_eq_eq, signedMagnitude, signedMagnitude] at h
  have hsign : x.isNegative = y.isNegative := by
    cases hxs : x.isNegative <;> cases hys : y.isNegative <;>
      simp only [hxs, hys, Bool.false_eq_true, if_true, if_false] at h ⊢ <;> omega
  refine eq_of_isNegative_of_magnitude hsign ?_
  rw [hsign] at h
  split at h <;> omega

end Binary64

/-- Equal days have the same parts. -/
lemma Date.eq_of_compare_eq {d e : Date} (h : d.compare e = .eq) : d = e := by
  simp only [Date.compare, Ordering.then_eq_eq, Std.LawfulEqOrd.compare_eq_iff_eq] at h
  obtain ⟨hyear, hmonth, hday⟩ := h
  cases d
  cases e
  congr

namespace Scalar

/-! ## The scalar that stands for all equal ones -/

/-- The scalar that stands for all scalars equal to it: a number that equals a 64-bit integer is
that integer. -/
def canonical : Scalar → Scalar
  | .float x => if fitsInt64 x then .int x.toInt64 else .float x
  | value => value

/-- A scalar is equal to the one that stands for it. -/
lemma compare_canonical (value : Scalar) : value.compare value.canonical = .eq := by
  cases value
  case float x =>
    cases hfits : fitsInt64 x
    · rw [canonical, hfits]
      exact Std.ReflCmp.compare_self
    · rw [canonical, hfits]
      change (Binary64.compareInt x.toInt64 x).swap = .eq
      rw [Ordering.swap_eq_eq, Binary64.compareInt_eq_iff]
      exact ⟨hfits, rfl⟩
  all_goals exact Std.ReflCmp.compare_self

/-- Only a number that equals no integer stands for itself. -/
lemma canonical_float_eq {x : Binary64} :
    (Scalar.float x).canonical = .float x ↔ fitsInt64 x = false := by
  cases hfits : fitsInt64 x <;> simp [canonical, hfits]

/-- What stands for equal scalars stands for itself. -/
lemma canonical_canonical (value : Scalar) : value.canonical.canonical = value.canonical := by
  cases value
  case float x =>
    cases hfits : fitsInt64 x
    · rw [canonical_float_eq.2 hfits, canonical_float_eq.2 hfits]
    · simp [canonical, hfits]
  all_goals rfl

/-- Among the scalars that stand for themselves no two are equal. -/
lemma eq_of_compare_eq {a b : Scalar} (ha : a.canonical = a) (hb : b.canonical = b)
    (h : a.compare b = .eq) : a = b := by
  cases a <;> cases b
  case int.float n x =>
    have hfits := ((Binary64.compareInt_eq_iff n x).1 h).1
    rw [canonical_float_eq.1 hb] at hfits
    cases hfits
  case float.int x n =>
    have hfits := ((Binary64.compareInt_eq_iff n x).1 (Ordering.swap_eq_eq.1 h)).1
    rw [canonical_float_eq.1 ha] at hfits
    cases hfits
  case float.float x y =>
    rw [Binary64.eq_of_compare_eq_of_not_fitsInt64 (canonical_float_eq.1 ha) h]
  case date.date d e => rw [Date.eq_of_compare_eq h]
  case bool.bool p q => rw [Std.LawfulEqOrd.eq_of_compare h]
  case int.int m n => rw [Std.LawfulEqOrd.eq_of_compare h]
  case text.text s t => rw [Std.LawfulEqOrd.eq_of_compare h]
  case null.null => rfl
  all_goals cases h

/-- Two scalars are equal exactly if the same scalar stands for them. -/
theorem compare_eq_iff_canonical (a b : Scalar) :
    a.compare b = .eq ↔ a.canonical = b.canonical := by
  have hleft : a.compare b = a.canonical.compare b := Std.TransCmp.congr_left (compare_canonical a)
  have hright : a.canonical.compare b = a.canonical.compare b.canonical :=
    Std.TransCmp.congr_right (compare_canonical b)
  rw [hleft, hright]
  constructor
  · exact eq_of_compare_eq (canonical_canonical a) (canonical_canonical b)
  · intro h
    rw [h]
    exact Std.ReflCmp.compare_self

end Scalar

namespace Fingerprint

/-! ## The bytes of scalars -/

/-- The same bytes are written for a scalar and for the one that stands for it. -/
lemma scalarBytes_canonical (value : Scalar) :
    scalarBytes value.canonical = scalarBytes value := by
  cases value
  case float x =>
    cases hfits : fitsInt64 x <;>
      simp [Scalar.canonical, hfits, scalarBytes, floatBytes, Scalar.rank]
  all_goals rfl

/-- The length of a text fits in a word; scalars of the other kinds are short. -/
def ScalarSized : Scalar → Prop
  | .text s => TextSized s
  | _ => True

instance : (value : Scalar) → Decidable (ScalarSized value)
  | .text s => inferInstanceAs (Decidable (TextSized s))
  | .null | .bool _ | .int _ | .float _ | .date _ => inferInstanceAs (Decidable True)

/-- What stands for a scalar is no longer than the scalar. -/
lemma scalarSized_canonical {value : Scalar} (h : ScalarSized value) :
    ScalarSized value.canonical := by
  cases value
  case float x => cases hfits : fitsInt64 x <;> simp [Scalar.canonical, hfits, ScalarSized]
  all_goals exact h

/-- No character is written with more than four bytes. -/
lemma utf8ByteSize_ofList_le (chars : List Char) :
    (String.ofList chars).utf8ByteSize ≤ 4 * chars.length := by
  rw [← String.size_toByteArray, String.toByteArray_ofList]
  induction chars with
  | nil => simp
  | cons c chars ih =>
    have hchar : [c].utf8Encode.size ≤ 4 := by
      rw [List.utf8Encode_singleton]
      simpa using Char.utf8Size_le_four c
    rw [List.utf8Encode_cons, ByteArray.size_append, List.length_cons]
    omega

/-- Integers can be read back. -/
lemma readable_intBytes : Readable (fun _ => True) (· = ·) intBytes := by
  intro m n _ _ s t heq
  simp only [intBytes, List.cons_append, List.cons.injEq, true_and] at heq
  obtain ⟨hword, hend⟩ :=
    readable_wordBytes _ _ (UInt64.toNat_lt _) (UInt64.toNat_lt _) _ _ heq
  cases m
  cases n
  exact ⟨congrArg Int64.ofUInt64 (UInt64.toNat_inj.1 hword), hend⟩

/-- Numbers that equal no integer can be read back. -/
lemma readable_floatBytes : Readable (fun x => fitsInt64 x = false) (· = ·) floatBytes := by
  intro x y hx hy s t heq
  simp only [floatBytes, hx, hy, Bool.false_eq_true, if_false, List.cons_append, List.cons.injEq,
    true_and] at heq
  obtain ⟨hword, hend⟩ :=
    readable_wordBytes _ _ (UInt64.toNat_lt _) (UInt64.toNat_lt _) _ _ heq
  cases x
  cases y
  exact ⟨congrArg Binary64.mk (UInt64.toNat_inj.1 hword), hend⟩

/-- Dates can be read back: their texts are short, and different dates have different ones. -/
lemma readable_dateBytes :
    Readable (fun _ => True) (· = ·) fun d => textBytes (Scalar.date d).display := by
  intro d e _ _ s t heq
  have hsized : ∀ d : Date, TextSized (Scalar.date d).display := by
    intro d
    have hbytes := utf8ByteSize_ofList_le d.text
    have hlength := d.length_text_le
    change (String.ofList d.text).utf8ByteSize < 2 ^ 64
    omega
  obtain ⟨htext, hend⟩ := readable_textBytes _ _ (hsized d) (hsized e) _ _ heq
  exact ⟨Date.text_injective (String.ofList_injective htext), hend⟩

/-- Scalars that stand for themselves can be read back: a tag tells their kind. -/
lemma eq_of_scalarBytes_append {a b : Scalar} (ha : a.canonical = a) (hb : b.canonical = b)
    (hasized : ScalarSized a) (hbsized : ScalarSized b) {s t : List UInt8}
    (heq : scalarBytes a ++ s = scalarBytes b ++ t) : a = b ∧ s = t := by
  cases a <;> cases b <;>
    simp only [scalarBytes, Scalar.rank, List.cons_append, List.cons.injEq, true_and] at heq
  case null.null => exact ⟨rfl, heq⟩
  case bool.bool p q =>
    cases p <;> cases q <;> simp_all
  case int.int m n =>
    obtain ⟨rfl, hend⟩ := readable_intBytes _ _ trivial trivial _ _ heq
    exact ⟨rfl, hend⟩
  case float.float x y =>
    obtain ⟨rfl, hend⟩ := readable_floatBytes _ _ (Scalar.canonical_float_eq.1 ha)
      (Scalar.canonical_float_eq.1 hb) _ _ heq
    exact ⟨rfl, hend⟩
  case text.text =>
    obtain ⟨rfl, hend⟩ := readable_textBytes _ _ hasized hbsized _ _ heq
    exact ⟨rfl, hend⟩
  case date.date d e =>
    obtain ⟨rfl, hend⟩ := readable_dateBytes _ _ trivial trivial _ _ heq
    exact ⟨rfl, hend⟩
  case int.float n x => simp [intBytes, floatBytes, Scalar.canonical_float_eq.1 hb] at heq
  case float.int x n => simp [intBytes, floatBytes, Scalar.canonical_float_eq.1 ha] at heq
  all_goals exact absurd heq.1 (by decide)

/-- Scalars can be read back, up to equality in the order. -/
theorem readable_scalarBytes :
    Readable ScalarSized (fun a b => a.compare b = .eq) scalarBytes := by
  intro a b ha hb s t heq
  rw [← scalarBytes_canonical a, ← scalarBytes_canonical b] at heq
  obtain ⟨hsame, hend⟩ := eq_of_scalarBytes_append a.canonical_canonical b.canonical_canonical
    (scalarSized_canonical ha) (scalarSized_canonical hb) heq
  exact ⟨(Scalar.compare_eq_iff_canonical a b).2 hsame, hend⟩

/-- Equal scalars have the same bytes. -/
theorem scalarBytes_eq_of_compare_eq {a b : Scalar} (h : a.compare b = .eq) :
    scalarBytes a = scalarBytes b := by
  rw [← scalarBytes_canonical a, ← scalarBytes_canonical b,
    (Scalar.compare_eq_iff_canonical a b).1 h]

end Fingerprint

end RelationalAlgebra
