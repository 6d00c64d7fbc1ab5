import Mathlib.Algebra.Group.Int.Defs
import Mathlib.Algebra.Group.Nat.Defs
import Mathlib.Order.Monotone.Basic
import RelationalAlgebra.Binary64.Basic

/-!
# The places of binary64 numbers

The order of all bit patterns compares signed magnitudes, while the comparison with an integer
looks at the exact value of a number.  This file relates the two: the size of a finite number is
a strictly increasing function of its magnitude, and so is the distance of any number from zero
on the line of places.  Main statement: `compare` is the order of the places.

The order is also split as the format defines it: by value between finite numbers
(`compare_eq_compare_units`), and by the total order of the bits where a not-a-number is involved
(`compare_eq_compare_totalKey`).
-/

namespace RelationalAlgebra.Binary64

/-! ## Powers -/

/-- The powers in the definitions are those of the arithmetic. -/
lemma natPow_eq (b n : Nat) : Nat.pow b n = b ^ n := rfl

/-! ## Sizes and distances as functions of the magnitude -/

/-- The exact size of the finite number with a given magnitude, in units of `2 ^ (-1074)`. -/
def sizeAt (magnitude : Nat) : Nat :=
  (magnitude % 2 ^ 52 + if magnitude < 2 ^ 52 then 0 else 2 ^ 52) *
    2 ^ (max 1 (magnitude / 2 ^ 52) - 1)

/-- The distance from zero, on the line of places, of the number with a given magnitude. -/
def distanceAt (magnitude : Nat) : Nat :=
  if magnitude < infinityMagnitude then sizeAt magnitude
  else sizeAt infinityMagnitude + (magnitude - infinityMagnitude)

/-- A size with the sign of a number. -/
def signed (negative : Bool) (size : Nat) : Int :=
  if negative then -(size : Int) else size

/-- The size of a number is the size at its magnitude. -/
lemma unitSize_eq_sizeAt (x : Binary64) : x.unitSize = sizeAt x.magnitude := rfl

/-- The exact value of a number is its size with its sign. -/
lemma units_eq_signed (x : Binary64) : x.units = signed x.isNegative x.unitSize := rfl

/-- The size that the magnitude of the infinities would have as a finite number. -/
lemma sizeAt_infinityMagnitude {e : Nat} (he : e = 2098) : sizeAt infinityMagnitude = 2 ^ e := by
  have hmod : infinityMagnitude % 2 ^ 52 = 0 := by decide
  have hdiv : infinityMagnitude / 2 ^ 52 = 2047 := by decide
  have hnormal : ¬ infinityMagnitude < 2 ^ 52 := by decide
  have hexp : 52 + (max 1 2047 - 1) = e := by omega
  unfold sizeAt
  rw [hmod, hdiv, if_neg hnormal, Nat.zero_add, ← Nat.pow_add, hexp]

/-- The place of a number is its distance from zero with its sign. -/
lemma place_eq_signed (x : Binary64) :
    x.place = signed x.isNegative (distanceAt x.magnitude) := by
  obtain ⟨e, he⟩ : ∃ e, e = 2098 := ⟨_, rfl⟩
  unfold place distanceAt isFinite signed
  simp only [decide_eq_true_eq, unitSize_eq_sizeAt, sizeAt_infinityMagnitude he, natPow_eq, ← he]

/-- The place of a finite number is its exact value. -/
lemma place_of_isFinite {x : Binary64} (h : x.isFinite = true) : x.place = x.units := by
  unfold place units
  rw [if_pos h]

/-- A not-a-number is not finite. -/
lemma isFinite_eq_false_of_isNaN {x : Binary64} (h : x.isNaN = true) : x.isFinite = false := by
  simp only [isNaN, isFinite, decide_eq_true_eq, decide_eq_false_iff_not] at h ⊢
  omega

/-! ## Greater magnitudes are greater sizes -/

/-- One more in the magnitude is one more unit of the number's own exponent. -/
lemma sizeAt_succ (m : Nat) :
    sizeAt (m + 1) = sizeAt m + 2 ^ (max 1 (m / 2 ^ 52) - 1) := by
  by_cases hcarry : m % 2 ^ 52 + 1 = 2 ^ 52
  · have hmod : (m + 1) % 2 ^ 52 = 0 := by omega
    have hdiv : (m + 1) / 2 ^ 52 = m / 2 ^ 52 + 1 := by omega
    have hlarge : ¬ m + 1 < 2 ^ 52 := by omega
    unfold sizeAt
    rw [hmod, hdiv, if_neg hlarge]
    rcases Nat.eq_zero_or_pos (m / 2 ^ 52) with hzero | hpos
    · have hsmall : m < 2 ^ 52 := by omega
      rw [hzero, if_pos hsmall]
      change (0 + 2 ^ 52) * 2 ^ 0 = (m % 2 ^ 52 + 0) * 2 ^ 0 + 2 ^ 0
      omega
    · have hnormal : ¬ m < 2 ^ 52 := by omega
      have hexp : max 1 (m / 2 ^ 52 + 1) - 1 = (max 1 (m / 2 ^ 52) - 1) + 1 := by omega
      have hfull : (m % 2 ^ 52 + 2 ^ 52).succ = 2 ^ 52 * 2 := by omega
      rw [if_neg hnormal, hexp, ← Nat.succ_mul, hfull, Nat.zero_add]
      generalize max 1 (m / 2 ^ 52) - 1 = e
      rw [Nat.pow_succ 2 e, Nat.mul_assoc, Nat.mul_comm 2]
  · have hmod : (m + 1) % 2 ^ 52 = m % 2 ^ 52 + 1 := by omega
    have hdiv : (m + 1) / 2 ^ 52 = m / 2 ^ 52 := by omega
    have hsame : m + 1 < 2 ^ 52 ↔ m < 2 ^ 52 := by omega
    unfold sizeAt
    rw [hmod, hdiv, ← Nat.succ_mul]
    simp only [hsame]
    congr 1
    omega

/-- A greater magnitude is a greater size. -/
lemma sizeAt_strictMono : StrictMono sizeAt := by
  apply strictMono_nat_of_lt_succ
  intro m
  rw [sizeAt_succ]
  exact Nat.lt_add_of_pos_right (Nat.two_pow_pos _)

/-- A greater magnitude is a greater distance from zero. -/
lemma distanceAt_strictMono : StrictMono distanceAt := by
  intro m n hmn
  unfold distanceAt
  by_cases hn : n < infinityMagnitude
  · rw [if_pos hn, if_pos (hmn.trans hn)]
    exact sizeAt_strictMono hmn
  · rw [if_neg hn]
    by_cases hm : m < infinityMagnitude
    · rw [if_pos hm]
      exact Nat.lt_add_right _ (sizeAt_strictMono hm)
    · rw [if_neg hm]
      exact Nat.add_lt_add_left (Nat.sub_lt_sub_right (Nat.not_lt.1 hm) hmn) _

/-- The number with magnitude zero lies at zero. -/
lemma sizeAt_zero : sizeAt 0 = 0 := rfl

/-- The number with magnitude zero lies at zero on the line of places. -/
lemma distanceAt_zero : distanceAt 0 = 0 := by
  unfold distanceAt
  rw [if_pos (by decide), sizeAt_zero]

/-! ## The order of places -/

/-- A strictly increasing change of sizes that keeps zero keeps the order of signed sizes. -/
lemma signed_lt_signed {f : Nat → Nat} (hf : StrictMono f) (h0 : f 0 = 0) (s t : Bool)
    (m n : Nat) : signed s (f m) < signed t (f n) ↔ signed s m < signed t n := by
  have hlt : f m < f n ↔ m < n := hf.lt_iff_lt
  have hgt : f n < f m ↔ n < m := hf.lt_iff_lt
  have hm : 0 < f m ↔ 0 < m := by simpa only [h0] using hf.lt_iff_lt (a := 0) (b := m)
  have hn : 0 < f n ↔ 0 < n := by simpa only [h0] using hf.lt_iff_lt (a := 0) (b := n)
  cases s <;> cases t <;> simp only [signed, Bool.false_eq_true, if_true, if_false] <;> omega

/-- Signed sizes compare alike before and after such a change. -/
lemma compare_signed {f : Nat → Nat} (hf : StrictMono f) (h0 : f 0 = 0) (s t : Bool)
    (m n : Nat) :
    Ord.compare (signed s (f m)) (signed t (f n)) = Ord.compare (signed s m) (signed t n) := by
  simp only [Int.compare_eq_ite_lt, signed_lt_signed hf h0]

/-- The order of all bit patterns is the order of their places. -/
theorem compare_eq_compare_place (x y : Binary64) :
    x.compare y = Ord.compare x.place y.place := by
  rw [place_eq_signed, place_eq_signed, compare_signed distanceAt_strictMono distanceAt_zero]
  rfl

/-- The order of two finite numbers is the order of their exact values. -/
theorem compare_eq_compare_units {x y : Binary64} (hx : x.isFinite = true)
    (hy : y.isFinite = true) : x.compare y = Ord.compare x.units y.units := by
  rw [compare_eq_compare_place, place_of_isFinite hx, place_of_isFinite hy]

/-- The place of a number in the total order of the format, in which all bits differ: the negative
zero comes right before the positive one. -/
def totalKey (x : Binary64) : Int :=
  if x.isNegative then -1 - (x.magnitude : Int) else x.magnitude

/-- A not-a-number has bits besides its sign. -/
lemma magnitude_pos_of_isNaN {x : Binary64} (h : x.isNaN = true) : 0 < x.magnitude := by
  have hbeyond : infinityMagnitude < x.magnitude := of_decide_eq_true h
  exact Nat.zero_lt_of_lt hbeyond

/-- Away from the zeros, signed magnitudes are ordered as in the total order of the format. -/
lemma signedMagnitude_lt_iff {x y : Binary64} (h : 0 < x.magnitude ∨ 0 < y.magnitude) :
    x.signedMagnitude < y.signedMagnitude ↔ x.totalKey < y.totalKey := by
  unfold signedMagnitude totalKey
  cases x.isNegative <;> cases y.isNegative <;>
    simp only [Bool.false_eq_true, if_true, if_false] <;> omega

/-- Where a not-a-number is involved, the order is the total order of the format. -/
theorem compare_eq_compare_totalKey {x y : Binary64} (h : x.isNaN = true ∨ y.isNaN = true) :
    x.compare y = Ord.compare x.totalKey y.totalKey := by
  have hpos : 0 < x.magnitude ∨ 0 < y.magnitude :=
    h.imp magnitude_pos_of_isNaN magnitude_pos_of_isNaN
  have hlt := signedMagnitude_lt_iff hpos
  have hgt := signedMagnitude_lt_iff hpos.symm
  rw [compare, Int.compare_eq_ite_lt, Int.compare_eq_ite_lt]
  simp only [hlt, hgt]

end RelationalAlgebra.Binary64
