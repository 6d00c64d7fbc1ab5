import Mathlib.Data.EReal.Operations
import RelationalAlgebra.Proofs.Binary64.WholePart

/-!
# Integers compare with the values of binary64 numbers

A number that is no not-a-number stands for an extended real number (`value`).  Integers are
compared with this value, without rounding: main statement, `compareInt_exact`.  Within the range
of 64-bit integers the comparison may be computed with the operations of the format, on the whole
part and on what it leaves (`SplitExactly`), because nothing is lost there: the whole part is
integral and in the range, so that it is converted to exactly the integer that it is, and it is
subtracted exactly.  Beyond the range, and for a not-a-number, the sign decides, and an integer
stands to a not-a-number as every number does.
-/

namespace RelationalAlgebra.Binary64

/-! ## Values -/

/-- The extended real number that a number stands for: its significand times a power of two, or an
infinity, with its sign. -/
noncomputable def value (x : Binary64) : EReal :=
  let size : EReal :=
    if x.isFinite then ((x.significand * 2 ^ ((x.exponentField : ℤ) - 1075) : ℝ) : EReal) else ⊤
  if x.isNegative then -size else size

variable {x : Binary64}

/-- The value of a finite number is its number of units, each `2 ^ (-1074)`. -/
lemma value_of_isFinite (hx : x.isFinite = true) :
    x.value = ((x.units / unitsPerOne : ℝ) : EReal) := by
  obtain ⟨d, hd⟩ : ∃ d, d = 1074 := ⟨_, rfl⟩
  obtain ⟨e, he⟩ : ∃ e, x.exponentField = e + 1 :=
    ⟨x.exponentField - 1, (Nat.sub_add_cancel (Nat.le_max_left _ _)).symm⟩
  have hexp : ((x.exponentField : ℤ) - 1075) = (e : ℤ) - d := by omega
  have hsize : (x.significand * 2 ^ ((x.exponentField : ℤ) - 1075) : ℝ) =
      x.unitSize / unitsPerOne := by
    rw [hexp, zpow_sub₀ two_ne_zero, zpow_natCast, zpow_natCast, unitSize, natPow_eq, he,
      Nat.add_sub_cancel, unitsPerOne_eq hd, ← mul_div_assoc]
    push_cast
    rfl
  rw [value, if_pos hx, hsize, units]
  cases x.isNegative
  · simp only [Bool.false_eq_true, if_false, Int.cast_natCast]
  · simp only [if_true, Int.cast_neg, Int.cast_natCast, neg_div, EReal.coe_neg]

/-- The value of an integral number is the integer. -/
lemma value_of_units_eq {n : Int} (hx : x.isFinite = true) (h : x.units = placeOfInt n) :
    x.value = ((n : ℝ) : EReal) := by
  have hone : (unitsPerOne : ℝ) ≠ 0 := Nat.cast_ne_zero.2 unitsPerOne_pos.ne'
  rw [value_of_isFinite hx, h, placeOfInt, Int.cast_mul, Int.cast_natCast,
    mul_div_cancel_right₀ _ hone]

/-- A number that is not finite stands for the infinity of its sign. -/
lemma value_of_not_isFinite (hx : x.isFinite = false) :
    x.value = if x.isNegative then ⊥ else ⊤ := by
  simp only [value, hx, Bool.false_eq_true, if_false, EReal.neg_top]

/-! ## The comparison -/

/-- Places that are ordered as two values are compare as the values. -/
lemma compare_eq_cmp {α : Type*} [LinearOrder α] {a b : Int} {c d : α} (hlt : a < b ↔ c < d)
    (hgt : b < a ↔ d < c) : Ord.compare a b = cmp c d := by
  rcases lt_trichotomy a b with h | h | h
  · rw [Int.compare_eq_lt.2 h, (cmp_eq_lt_iff _ _).2 (hlt.1 h)]
  · have heq : c = d := by
      refine le_antisymm (not_lt.1 fun hd => ?_) (not_lt.1 fun hc => ?_)
      · exact (hgt.2 hd).ne' h
      · exact (hlt.2 hc).ne h
    rw [Int.compare_eq_eq.2 h, (cmp_eq_eq_iff _ _).2 heq]
  · rw [Int.compare_eq_gt.2 h, (cmp_eq_gt_iff _ _).2 (hgt.1 h)]

/-- An integer is compared with the value of a number. -/
lemma compareInt_eq_cmp_value (n : Int64) (x : Binary64) :
    compareInt n x = cmp ((n.toInt : ℝ) : EReal) x.value := by
  rw [compareInt_eq_compare_place]
  by_cases hfinite : x.isFinite = true
  · have hone : (0 : ℝ) < unitsPerOne := Nat.cast_pos.2 unitsPerOne_pos
    rw [place_of_isFinite hfinite, value_of_isFinite hfinite]
    refine compare_eq_cmp ?_ ?_
    · rw [EReal.coe_lt_coe_iff, lt_div_iff₀ hone, placeOfInt]
      exact_mod_cast Iff.rfl
    · rw [EReal.coe_lt_coe_iff, div_lt_iff₀ hone, placeOfInt]
      exact_mod_cast Iff.rfl
  · have hinfinite : x.isFinite = false := by simpa using hfinite
    have hbeyond := place_beyond_range hinfinite
    obtain ⟨hlow, hhigh⟩ := placeOfInt_toInt_bounds n
    have hvalue := value_of_not_isFinite hinfinite
    cases hsign : x.isNegative
    · simp only [hsign, Bool.false_eq_true, if_false] at hbeyond hvalue
      rw [hvalue, Int.compare_eq_lt.2 (hhigh.trans hbeyond),
        (cmp_eq_lt_iff _ _).2 (EReal.coe_lt_top _)]
    · simp only [hsign, if_true] at hbeyond hvalue
      rw [hvalue, Int.compare_eq_gt.2 (hbeyond.trans_le hlow),
        (cmp_eq_gt_iff _ _).2 (EReal.bot_lt_coe _)]

/-- A number within the range of 64-bit integers is split into its whole part and the rest, and
nothing is lost: the whole part is an integer within the range, it is converted to that integer,
and it is subtracted without rounding. -/
structure SplitExactly (x : Binary64) : Prop where
  isIntegral_wholePart : x.wholePart.isIntegral = true
  le_wholePart : ((-(2 ^ 63) : ℝ) : EReal) ≤ x.wholePart.value
  wholePart_lt : x.wholePart.value < ((2 ^ 63 : ℝ) : EReal)
  toInt64_wholePart : ((x.wholePart.toInt64.toInt : ℝ) : EReal) = x.wholePart.value
  value_rest : (x.add x.wholePart.neg).value = x.value - x.wholePart.value

/-- What the tests of the range leave over lies within the range. -/
lemma units_within_range (hhigh : (x.compare twoPow63).isGE = false)
    (hlow : (x.compare twoPow63.neg).isLT = false) :
    x.isFinite = true ∧ placeOfInt (-(2 ^ 63)) ≤ x.units ∧ x.units < placeOfInt (2 ^ 63) := by
  rw [compare_eq_compare_place, place_twoPow63, ← Bool.not_eq_true, Int.isGE_compare] at hhigh
  rw [compare_eq_compare_place, place_neg_twoPow63, ← Bool.not_eq_true,
    Ordering.isLT_iff_eq_lt, Int.compare_eq_lt] at hlow
  have hfinite := isFinite_of_place_bounds (Int.not_lt.1 hlow) (Int.not_le.1 hhigh).le
  rw [place_of_isFinite hfinite] at hhigh hlow
  exact ⟨hfinite, Int.not_lt.1 hlow, Int.not_le.1 hhigh⟩

/-- A number within the range is split exactly, and the split decides the comparison. -/
lemma splitExactly_of_within_range (n : Int64) (hnan : x.isNaN = false)
    (hhigh : (x.compare twoPow63).isGE = false) (hlow : (x.compare twoPow63.neg).isLT = false) :
    SplitExactly x ∧ compareInt n x = (Ord.compare n x.wholePart.toInt64).then
      ((zero false).compare (x.add x.wholePart.neg)) := by
  obtain ⟨hx, hle, hlt⟩ := units_within_range hhigh hlow
  obtain ⟨hwhole, hunits⟩ := wholePart_spec hx
  obtain ⟨hrest, hfraction⟩ := add_neg_wholePart hx
  obtain ⟨htruncate, hintegral⟩ := truncate_of_units_eq hunits
  have hinteger : x.toInt64.toInt = x.truncate := toInt_toInt64 hle hlt
  have hsame : x.wholePart.toInt64 = x.toInt64 := by rw [toInt64, htruncate, toInt64]
  have hvalue : x.wholePart.value = ((x.truncate : ℝ) : EReal) := value_of_units_eq hwhole hunits
  refine ⟨⟨hintegral, ?_, ?_, by rw [hsame, hinteger, hvalue], ?_⟩, ?_⟩
  · rw [hvalue, EReal.coe_le_coe_iff, ← hinteger]
    exact_mod_cast x.toInt64.le_toInt
  · rw [hvalue, EReal.coe_lt_coe_iff, ← hinteger]
    exact_mod_cast x.toInt64.toInt_lt
  · have hone : (unitsPerOne : ℝ) ≠ 0 := Nat.cast_ne_zero.2 unitsPerOne_pos.ne'
    rw [value_of_isFinite hrest, hfraction, value_of_isFinite hx, hvalue, ← EReal.coe_sub,
      ← x.truncate_add_fractionUnits, Int.cast_add, Int.cast_mul, Int.cast_natCast, add_div,
      mul_div_cancel_right₀ _ hone, add_sub_cancel_left]
  · have hzero : (zero false).isFinite = true := by decide
    have hunits_zero : (zero false).units = 0 := by rw [← place_of_isFinite hzero, place_zero]
    unfold compareInt
    rw [hnan, hhigh, hlow, hsame, compare_eq_compare_units hzero hrest, hfraction, hunits_zero]
    rfl

/-- Every number stands to a not-a-number as the sign of that says. -/
lemma compare_of_isNaN {y : Binary64} (hx : x.isNaN = true) (hy : y.isNaN = false) :
    y.compare x = if x.isNegative then .gt else .lt := by
  have hmagnitude : y.magnitude < x.magnitude := by
    simp only [isNaN, decide_eq_true_eq, decide_eq_false_iff_not] at hx hy
    omega
  have hdistance := distanceAt_strictMono hmagnitude
  rw [compare_eq_compare_place, place_eq_signed, place_eq_signed]
  cases x.isNegative <;> cases y.isNegative <;>
    simp only [signed, Bool.false_eq_true, if_true, if_false, Int.compare_eq_lt,
      Int.compare_eq_gt] <;> omega

/-- Integers are compared exactly with the values of numbers; within the range, this is what the
operations of the format give, on numbers that are split exactly. To a not-a-number an integer
stands as all numbers do. -/
theorem compareInt_exact (n : Int64) (x : Binary64) :
    (x.isNaN = false → compareInt n x = cmp ((n.toInt : ℝ) : EReal) x.value) ∧
    (x.isNaN = false → (x.compare twoPow63).isGE = false →
      (x.compare twoPow63.neg).isLT = false →
        SplitExactly x ∧ compareInt n x = (Ord.compare n x.wholePart.toInt64).then
          ((zero false).compare (x.add x.wholePart.neg))) ∧
    (x.isNaN = true → compareInt n x = (if x.isNegative then .gt else .lt) ∧
      ∀ y : Binary64, y.isNaN = false → y.compare x = compareInt n x) := by
  refine ⟨fun _ => compareInt_eq_cmp_value n x, splitExactly_of_within_range n, fun hnan => ?_⟩
  have hsign : compareInt n x = if x.isNegative then .gt else .lt := by
    rw [compareInt, if_pos hnan]
  exact ⟨hsign, fun y hy => (compare_of_isNaN hnan hy).trans hsign.symm⟩

/-- The greatest 64-bit integer is less than `2 ^ 63`, to which it would be rounded. The integer
`-1` is greater than `-1.5`, whose whole part it is, and greater than a not-a-number with the
sign, as an infinity is. -/
theorem compareInt_exact_of_ties_and_ends :
    let x : Binary64 := ⟨0xBFF8000000000000⟩
    (twoPow63.isNaN = false ∧ compareInt Int64.maxValue twoPow63 = .lt ∧
      cmp ((Int64.maxValue.toInt : ℝ) : EReal) twoPow63.value = .lt) ∧
    (x.isNaN = false ∧ (x.compare twoPow63).isGE = false ∧
      (x.compare twoPow63.neg).isLT = false ∧ SplitExactly x ∧ x.wholePart.toInt64 = -1 ∧
      compareInt (-1) x = .gt ∧ (Ord.compare (-1) x.wholePart.toInt64).then
        ((zero false).compare (x.add x.wholePart.neg)) = .gt) ∧
    (indefinite.isNaN = true ∧ (infinity true).isNaN = false ∧ compareInt (-1) indefinite = .gt ∧
      (infinity true).compare indefinite = .gt) := by
  intro x
  have hend : compareInt Int64.maxValue twoPow63 = .lt := by decide +kernel
  have htie : compareInt (-1) x = .gt := by decide +kernel
  obtain ⟨hvalue, -⟩ := compareInt_exact Int64.maxValue twoPow63
  obtain ⟨-, hsplit, -⟩ := compareInt_exact (-1) x
  obtain ⟨-, -, hplaced⟩ := compareInt_exact (-1) indefinite
  have hbounded : twoPow63.isNaN = false := by decide
  have hnan : x.isNaN = false := by decide
  have hhigh : (x.compare twoPow63).isGE = false := by decide
  have hlow : (x.compare twoPow63.neg).isLT = false := by decide
  have hindefinite : indefinite.isNaN = true := by decide
  have hinfinity : (infinity true).isNaN = false := by decide
  obtain ⟨hexactly, hcompare⟩ := hsplit hnan hhigh hlow
  obtain ⟨hsign, hothers⟩ := hplaced hindefinite
  have hnegative : compareInt (-1) indefinite = .gt := hsign.trans (by decide)
  exact ⟨⟨hbounded, hend, (hvalue hbounded).symm.trans hend⟩,
    ⟨hnan, hhigh, hlow, hexactly, by decide +kernel, htie, hcompare.symm.trans htie⟩,
    hindefinite, hinfinity, hnegative, (hothers _ hinfinity).trans hnegative⟩

end RelationalAlgebra.Binary64
