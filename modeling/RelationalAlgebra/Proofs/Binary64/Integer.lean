import RelationalAlgebra.Proofs.Binary64.Place

/-!
# Binary64 numbers among the integers

Integers have a place on the same line as binary64 numbers: `n` lies `n` times `unitsPerOne` from
zero.  Main statement: the exact comparison of a 64-bit integer with a number is the comparison
of their places, whatever the number is (`compareInt_eq_compare_place`).  Its case of a finite
number within the 64-bit integers rests on two facts: the integer part lies in the range, so the
conversion does not wrap (`toInt_toInt64`), and what is left is smaller than one.
-/

namespace RelationalAlgebra

/-- The order of 64-bit integers is that of their values. -/
lemma int64_compare_eq_compare_toInt (m n : Int64) :
    Ord.compare m n = Ord.compare m.toInt n.toInt := by
  change compareOfLessAndEq m n = compareOfLessAndEq m.toInt n.toInt
  simp only [compareOfLessAndEq, Int64.lt_iff_toInt_lt, Int64.toInt_inj]

namespace Binary64

/-- The place of an integer on the line of places. -/
def placeOfInt (n : Int) : Int :=
  n * unitsPerOne

/-- One is a power of two, in units. -/
lemma unitsPerOne_eq {e : Nat} (he : e = 1074) : unitsPerOne = 2 ^ e := by
  unfold unitsPerOne
  rw [← he, natPow_eq]

/-- One is more than nothing. -/
lemma unitsPerOne_pos : 0 < unitsPerOne := by
  obtain ⟨e, he⟩ : ∃ e, e = 1074 := ⟨_, rfl⟩
  rw [unitsPerOne_eq he]
  exact Nat.two_pow_pos e

/-- One is a positive integer number of units. -/
lemma unitsPerOne_pos_int : 0 < (unitsPerOne : Int) :=
  Int.natCast_pos.2 unitsPerOne_pos

/-- Integers compare as their places do. -/
lemma compare_placeOfInt (m n : Int) :
    Ord.compare (placeOfInt m) (placeOfInt n) = Ord.compare m n := by
  have hlt : ∀ a b : Int, placeOfInt a < placeOfInt b ↔ a < b := fun a b =>
    Int.mul_lt_mul_right unitsPerOne_pos_int
  simp only [Int.compare_eq_ite_lt, hlt]

/-- Whole parts are compared first, and what is beyond them only where they are the same. -/
lemma compare_mul_add {u f : Int} (hlow : -u < f) (hhigh : f < u) (m n : Int) :
    Ord.compare (m * u) (n * u + f) = (Ord.compare m n).then (Ord.compare 0 f) := by
  have hu : 0 ≤ u := by omega
  rcases lt_trichotomy m n with h | h | h
  · have hstep : (m + 1) * u ≤ n * u := Int.mul_le_mul_of_nonneg_right h hu
    rw [Int.add_mul, Int.one_mul] at hstep
    rw [Int.compare_eq_lt.2 h, Int.compare_eq_lt.2 (by omega)]
    rfl
  · subst h
    have hlt : m * u < m * u + f ↔ 0 < f := by omega
    have hgt : m * u + f < m * u ↔ f < 0 := by omega
    rw [Int.compare_eq_eq.2 rfl, Int.compare_eq_ite_lt, Int.compare_eq_ite_lt]
    simp only [hlt, hgt, Ordering.then]
  · have hstep : (n + 1) * u ≤ m * u := Int.mul_le_mul_of_nonneg_right h hu
    rw [Int.add_mul, Int.one_mul] at hstep
    rw [Int.compare_eq_gt.2 h, Int.compare_eq_gt.2 (by omega)]
    rfl

/-! ## The ends of the range of 64-bit integers -/

/-- The size of `2 ^ 63`. -/
lemma distanceAt_twoPow63 : (distanceAt twoPow63.magnitude : Int) = placeOfInt (2 ^ 63) := by
  have hfinite : twoPow63.magnitude < infinityMagnitude := by decide
  have hmod : twoPow63.magnitude % 2 ^ 52 = 0 := by decide
  have hdiv : twoPow63.magnitude / 2 ^ 52 = 1086 := by decide
  have hnormal : ¬ twoPow63.magnitude < 2 ^ 52 := by decide
  obtain ⟨e, he⟩ : ∃ e, e = 1074 := ⟨_, rfl⟩
  have hexp : 52 + (max 1 1086 - 1) = 63 + e := by omega
  have hsize : distanceAt twoPow63.magnitude = 2 ^ 63 * unitsPerOne := by
    unfold distanceAt sizeAt
    rw [if_pos hfinite, hmod, hdiv, if_neg hnormal, Nat.zero_add, ← Nat.pow_add, hexp,
      unitsPerOne_eq he, Nat.pow_add]
  rw [hsize, placeOfInt, Int.natCast_mul]
  rfl

/-- The place of `2 ^ 63`. -/
lemma place_twoPow63 : twoPow63.place = placeOfInt (2 ^ 63) := by
  have hsign : twoPow63.isNegative = false := by decide
  rw [place_eq_signed, hsign, ← distanceAt_twoPow63]
  rfl

/-- The place of `-(2 ^ 63)`. -/
lemma place_neg_twoPow63 : twoPow63.neg.place = placeOfInt (-(2 ^ 63)) := by
  have hsign : twoPow63.neg.isNegative = true := by decide
  have hmagnitude : twoPow63.neg.magnitude = twoPow63.magnitude := by decide
  rw [place_eq_signed, hsign, hmagnitude, placeOfInt, Int.neg_mul, ← placeOfInt,
    ← distanceAt_twoPow63]
  rfl

/-- Every 64-bit integer lies within the range. -/
lemma placeOfInt_toInt_bounds (n : Int64) :
    placeOfInt (-(2 ^ 63)) ≤ placeOfInt n.toInt ∧
      placeOfInt n.toInt < placeOfInt (2 ^ 63) := by
  have hlow : -(2 ^ 63) ≤ n.toInt := n.le_toInt
  have hhigh : n.toInt < 2 ^ 63 := n.toInt_lt
  exact ⟨Int.mul_le_mul_of_nonneg_right hlow unitsPerOne_pos_int.le,
    Int.mul_lt_mul_of_pos_right hhigh unitsPerOne_pos_int⟩

/-- Infinities and not-a-numbers lie beyond the range, on the side of their sign. -/
lemma place_beyond_range {x : Binary64} (h : x.isFinite = false) :
    if x.isNegative then x.place < placeOfInt (-(2 ^ 63))
    else placeOfInt (2 ^ 63) < x.place := by
  have hfinite : ¬ x.magnitude < infinityMagnitude := by simpa [isFinite] using h
  have hrange : twoPow63.magnitude < infinityMagnitude := by decide
  have hbeyond : distanceAt twoPow63.magnitude < distanceAt x.magnitude :=
    distanceAt_strictMono (by omega)
  have hplace : placeOfInt (2 ^ 63) < distanceAt x.magnitude := by
    rw [← distanceAt_twoPow63]
    exact_mod_cast hbeyond
  rw [place_eq_signed]
  cases x.isNegative
  · exact hplace
  · change -(distanceAt x.magnitude : Int) < placeOfInt (-(2 ^ 63))
    rw [placeOfInt, Int.neg_mul, ← placeOfInt]
    exact Int.neg_lt_neg hplace

/-- A number within the range, or at its end, is finite. -/
lemma isFinite_of_place_bounds {x : Binary64} (hlow : placeOfInt (-(2 ^ 63)) ≤ x.place)
    (hhigh : x.place ≤ placeOfInt (2 ^ 63)) : x.isFinite = true := by
  by_contra hinfinite
  have hbeyond := place_beyond_range (by simpa using hinfinite)
  split at hbeyond <;> omega

/-- A number at an integer of at most 64 bits is finite. -/
lemma isFinite_of_place_eq {x : Binary64} {n : Int} (hn : n.natAbs ≤ 2 ^ 63)
    (hx : x.place = placeOfInt n) : x.isFinite = true := by
  have hone := unitsPerOne_pos_int.le
  refine isFinite_of_place_bounds ?_ ?_ <;> rw [hx]
  · exact Int.mul_le_mul_of_nonneg_right (by omega) hone
  · exact Int.mul_le_mul_of_nonneg_right (by omega) hone

/-! ## Integer part and fraction -/

/-- The integer part and the fraction of a number have its sign, and the fraction is smaller than
one. -/
lemma truncate_fractionUnits_bounds (x : Binary64) :
    (0 ≤ x.truncate ∧ 0 ≤ x.fractionUnits ∧ x.fractionUnits < unitsPerOne) ∨
      (x.truncate ≤ 0 ∧ x.fractionUnits ≤ 0 ∧ -(unitsPerOne : Int) < x.fractionUnits) := by
  have hrest : x.unitSize % unitsPerOne < unitsPerOne :=
    Nat.mod_lt _ unitsPerOne_pos
  unfold truncate fractionUnits
  generalize x.unitSize / unitsPerOne = whole
  generalize x.unitSize % unitsPerOne = rest at hrest ⊢
  generalize unitsPerOne = one at hrest ⊢
  cases x.isNegative
  · left
    simp only [Bool.false_eq_true, if_false]
    omega
  · right
    simp only [if_true]
    omega

/-- The integer part of a finite number within the range of 64-bit integers lies in the range
itself, so that its conversion gives it back. -/
lemma toInt_toInt64 {x : Binary64} (hlow : placeOfInt (-(2 ^ 63)) ≤ x.units)
    (hhigh : x.units < placeOfInt (2 ^ 63)) : x.toInt64.toInt = x.truncate := by
  have hunits := x.truncate_add_fractionUnits
  have hone := unitsPerOne_pos_int
  unfold placeOfInt at hlow hhigh
  have hbounds : -(2 ^ 63) ≤ x.truncate ∧ x.truncate < 2 ^ 63 := by
    rcases x.truncate_fractionUnits_bounds with ⟨ht, hf, hf'⟩ | ⟨ht, hf, hf'⟩
    · refine ⟨by omega, ?_⟩
      refine Int.lt_of_mul_lt_mul_right (a := (unitsPerOne : Int)) ?_ hone.le
      omega
    · refine ⟨?_, by omega⟩
      have hnext : -(2 ^ 63) * (unitsPerOne : Int) < (x.truncate + 1) * unitsPerOne := by
        rw [Int.add_mul, Int.one_mul]
        omega
      have := Int.lt_of_mul_lt_mul_right hnext hone.le
      omega
  exact Int64.toInt_ofInt_of_le hbounds.1 hbounds.2

/-! ## The comparison with integers -/

/-- The comparison of a 64-bit integer with a number is the order of their places. -/
theorem compareInt_eq_compare_place (n : Int64) (x : Binary64) :
    compareInt n x = Ord.compare (placeOfInt n.toInt) x.place := by
  obtain ⟨hlow, hhigh⟩ := placeOfInt_toInt_bounds n
  unfold compareInt
  by_cases hnan : x.isNaN = true
  · rw [if_pos hnan]
    have hbeyond := place_beyond_range (isFinite_eq_false_of_isNaN hnan)
    cases hsign : x.isNegative
    · rw [hsign] at hbeyond
      simp only [Bool.false_eq_true, if_false] at hbeyond ⊢
      exact (Int.compare_eq_lt.2 (hhigh.trans hbeyond)).symm
    · rw [hsign] at hbeyond
      simp only [if_true] at hbeyond ⊢
      exact (Int.compare_eq_gt.2 (hbeyond.trans_le hlow)).symm
  rw [if_neg hnan, compare_eq_compare_place, compare_eq_compare_place, place_twoPow63,
    place_neg_twoPow63]
  by_cases hge : placeOfInt (2 ^ 63) ≤ x.place
  · rw [if_pos (Int.isGE_compare.2 hge)]
    exact (Int.compare_eq_lt.2 (hhigh.trans_le hge)).symm
  rw [if_neg (fun h => hge (Int.isGE_compare.1 h))]
  by_cases hlt : x.place < placeOfInt (-(2 ^ 63))
  · rw [if_pos (by rw [Int.compare_eq_lt.2 hlt]; rfl)]
    exact (Int.compare_eq_gt.2 (hlt.trans_le hlow)).symm
  rw [if_neg (fun h => hlt (Int.compare_eq_lt.1 (by simpa using h)))]
  have hfinite := isFinite_of_place_bounds (Int.not_lt.1 hlt) (Int.not_le.1 hge).le
  rw [place_of_isFinite hfinite] at hge hlt ⊢
  have hwhole := toInt_toInt64 (by omega) (by omega : x.units < placeOfInt (2 ^ 63))
  have hsmall : -(unitsPerOne : Int) < x.fractionUnits ∧ x.fractionUnits < unitsPerOne := by
    have := x.truncate_fractionUnits_bounds
    have := unitsPerOne_pos_int
    omega
  rw [int64_compare_eq_compare_toInt, hwhole, ← compare_mul_add hsmall.1 hsmall.2,
    truncate_add_fractionUnits]
  rfl

end Binary64

end RelationalAlgebra
