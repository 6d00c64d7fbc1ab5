import RelationalAlgebra.Proofs.Scalar.Agreement

/-!
# Addition and division at equal places

Two numbers at one place are the same number or are both zeros, so sums and quotients of numbers
at equal places stand at equal places again.  The sum of two numbers that are integers is the exact
sum of the integers, rounded once (`place_add_of_integers`): to be in units does not change the
rounding, since a ratio is rounded as its multiples are.
-/

namespace RelationalAlgebra.Binary64

variable {x x' y y' : Binary64}

/-! ## Numbers at one place -/

/-- A number at zero has no magnitude. -/
lemma place_eq_zero_iff : x.place = 0 ↔ x.magnitude = 0 := by
  have hdistance : distanceAt x.magnitude = 0 ↔ x.magnitude = 0 := by
    conv_lhs => rw [← distanceAt_zero]
    exact distanceAt_strictMono.injective.eq_iff
  rw [place_eq_signed, signed, ← hdistance]
  cases x.isNegative <;> simp

/-- Only the two zeros are different numbers at one place. -/
lemma eq_or_zeros_of_place_eq (h : x.place = y.place) :
    x = y ∨ (x.magnitude = 0 ∧ y.magnitude = 0) := by
  by_cases hzero : x.place = 0
  · exact .inr ⟨place_eq_zero_iff.1 hzero, place_eq_zero_iff.1 (h.symm.trans hzero)⟩
  left
  have hmagnitude : x.magnitude = y.magnitude := by
    rw [place_eq_signed, place_eq_signed] at h
    have hdistance := congrArg Int.natAbs h
    rw [natAbs_signed, natAbs_signed] at hdistance
    exact distanceAt_strictMono.injective hdistance
  refine eq_of_isNegative_of_magnitude ?_ hmagnitude
  rw [place_eq_signed] at hzero
  rw [place_eq_signed, place_eq_signed, ← hmagnitude] at h
  cases hx : x.isNegative <;> cases hy : y.isNegative <;>
    simp only [hx, hy, signed, Bool.false_eq_true, if_true, if_false] at h hzero ⊢ <;> omega

/-- A zero is finite. -/
lemma isFinite_of_magnitude_eq_zero (h : x.magnitude = 0) : x.isFinite = true := by
  unfold isFinite
  rw [h]
  decide

/-- A finite number is a number. -/
lemma isNaN_eq_false_of_isFinite (h : x.isFinite = true) : x.isNaN = false := by
  simp only [isFinite, isNaN, decide_eq_true_eq, decide_eq_false_iff_not] at h ⊢
  omega

/-- A finite number is not infinite. -/
lemma isInfinite_eq_false_of_isFinite (h : x.isFinite = true) : x.isInfinite = false := by
  simp only [isFinite, isInfinite, decide_eq_true_eq, beq_eq_false_iff_ne] at h ⊢
  omega

/-- A zero has no exact size. -/
lemma unitSize_of_magnitude_eq_zero (h : x.magnitude = 0) : x.unitSize = 0 := by
  rw [unitSize_eq_sizeAt, h, sizeAt_zero]

/-- A zero stands at zero. -/
lemma place_zero (negative : Bool) : (zero negative).place = 0 :=
  place_eq_zero_iff.2 (magnitude_ofMagnitude negative (by decide))

/-! ## Sums and quotients -/

/-- Finite numbers are added by their exact values. -/
lemma add_of_isFinite (hx : x.isFinite = true) (hy : y.isFinite = true) :
    x.add y = if x.units + y.units = 0 then zero (x.isNegative && y.isNegative)
      else ofRatio (x.units + y.units < 0) (x.units + y.units).natAbs unitsPerOne := by
  unfold add
  simp only [isNaN_eq_false_of_isFinite hx, isNaN_eq_false_of_isFinite hy,
    isInfinite_eq_false_of_isFinite hx, isInfinite_eq_false_of_isFinite hy, Bool.false_eq_true,
    if_false]

/-- To zero, a number is added that stays the same or is finite. -/
lemma add_eq_of_zeros (hx : x.magnitude = 0) (hx' : x'.magnitude = 0) :
    (x.add y).place = (x'.add y).place ∧ (y.add x).place = (y.add x').place := by
  have hfinite := isFinite_of_magnitude_eq_zero hx
  have hfinite' := isFinite_of_magnitude_eq_zero hx'
  by_cases hy : y.isFinite = true
  · have hunits : x.units = x'.units := by
      rw [← place_of_isFinite hfinite, ← place_of_isFinite hfinite', place_eq_zero_iff.2 hx,
        place_eq_zero_iff.2 hx']
    rw [add_of_isFinite hfinite hy, add_of_isFinite hfinite' hy, add_of_isFinite hy hfinite,
      add_of_isFinite hy hfinite', hunits]
    constructor
    · by_cases htotal : x'.units + y.units = 0
      · rw [if_pos htotal, if_pos htotal, place_zero, place_zero]
      · rw [if_neg htotal, if_neg htotal]
    · by_cases htotal : y.units + x'.units = 0
      · rw [if_pos htotal, if_pos htotal, place_zero, place_zero]
      · rw [if_neg htotal, if_neg htotal]
  · have hspecial : y.isNaN = true ∨ y.isInfinite = true := by
      simp only [isFinite, isNaN, isInfinite, decide_eq_true_eq, beq_iff_eq] at hy ⊢
      omega
    unfold add
    simp only [isNaN_eq_false_of_isFinite hfinite, isNaN_eq_false_of_isFinite hfinite',
      isInfinite_eq_false_of_isFinite hfinite, isInfinite_eq_false_of_isFinite hfinite',
      Bool.false_eq_true, if_false, Bool.false_and]
    rcases hspecial with hnan | hinfinite
    · simp only [hnan, if_true, and_self]
    · simp only [hinfinite, if_true, and_self]

/-- Sums of numbers at equal places stand at equal places. -/
theorem place_add_congr (hx : x.place = x'.place) (hy : y.place = y'.place) :
    (x.add y).place = (x'.add y').place := by
  have hleft : (x.add y).place = (x'.add y).place := by
    rcases eq_or_zeros_of_place_eq hx with rfl | ⟨hzero, hzero'⟩
    · rfl
    · exact (add_eq_of_zeros hzero hzero').1
  have hright : (x'.add y).place = (x'.add y').place := by
    rcases eq_or_zeros_of_place_eq hy with rfl | ⟨hzero, hzero'⟩
    · rfl
    · exact (add_eq_of_zeros hzero hzero').2
  exact hleft.trans hright

/-- Nothing is rounded to nothing. -/
lemma ofRatio_zero (negative : Bool) (den : Nat) : ofRatio negative 0 den = zero negative := by
  unfold ofRatio
  rw [if_pos (.inl rfl)]

/-- Quotients of numbers at one place by one number stand at one place. -/
theorem place_div_congr (hx : x.place = x'.place) (y : Binary64) :
    (x.div y).place = (x'.div y).place := by
  rcases eq_or_zeros_of_place_eq hx with rfl | ⟨hzero, hzero'⟩
  · rfl
  have hfinite := isFinite_of_magnitude_eq_zero hzero
  have hfinite' := isFinite_of_magnitude_eq_zero hzero'
  have hisZero : x.isZero = true := beq_iff_eq.2 hzero
  have hisZero' : x'.isZero = true := beq_iff_eq.2 hzero'
  unfold div
  simp only [isNaN_eq_false_of_isFinite hfinite, isNaN_eq_false_of_isFinite hfinite',
    isInfinite_eq_false_of_isFinite hfinite, isInfinite_eq_false_of_isFinite hfinite',
    unitSize_of_magnitude_eq_zero hzero, unitSize_of_magnitude_eq_zero hzero', hisZero, hisZero',
    ofRatio_zero, Bool.false_eq_true, if_false, if_true]
  by_cases hnan : y.isNaN = true
  · rw [if_pos hnan, if_pos hnan]
  rw [if_neg hnan, if_neg hnan]
  by_cases hinfinite : y.isInfinite = true
  · rw [if_pos hinfinite, if_pos hinfinite, place_zero, place_zero]
  rw [if_neg hinfinite, if_neg hinfinite]
  by_cases hy : y.isZero = true
  · rw [if_pos hy, if_pos hy]
  · rw [if_neg hy, if_neg hy, place_zero, place_zero]

/-! ## Sums of integers -/

/-- A multiple of a ratio is rounded as the ratio. -/
lemma roundHalfEven_mul_right (num den : Nat) {c : Nat} (hc : 0 < c) :
    roundHalfEven (num * c) (den * c) = roundHalfEven num den := by
  have hrest : 2 * (num % den * c) = 2 * (num % den) * c := (Nat.mul_assoc _ _ _).symm
  unfold roundHalfEven
  simp only [Nat.mul_div_mul_right num den hc, Nat.mul_mod_mul_right c num den, hrest,
    Nat.mul_lt_mul_right hc]

/-- A multiple of an integer has the leading digit of the integer, as a ratio. -/
lemma leadingExponent_mul_pow {n e : Nat} (hn : n ≠ 0) :
    leadingExponent (n * 2 ^ e) (2 ^ e) = leadingExponent n 1 := by
  have hpos := Nat.two_pow_pos e
  have hlog : (n * 2 ^ e).log2 = n.log2 + e := by
    rw [Nat.log2_eq_iff (Nat.mul_ne_zero hn hpos.ne'), Nat.pow_add, Nat.add_right_comm,
      Nat.pow_add]
    exact ⟨Nat.mul_le_mul_right _ (Nat.log2_self_le hn),
      Nat.mul_lt_mul_of_pos_right Nat.lt_log2_self hpos⟩
  have hestimate : (((n.log2 + e : Nat) : Int) - e) = n.log2 := by omega
  have hexp : (-(n.log2 : Int)).toNat = 0 := by omega
  have hle : 2 ^ e * 2 ^ n.log2 ≤ n * 2 ^ e := by
    rw [Nat.mul_comm]
    exact Nat.mul_le_mul_right _ (Nat.log2_self_le hn)
  rw [leadingExponent_one hn]
  unfold leadingExponent
  simp only [hlog, Nat.log2_two_pow, hestimate, hexp, Int.toNat_natCast, natPow_eq, Nat.pow_zero,
    Nat.mul_one]
  rw [if_neg (by omega)]

/-- An integer in units is rounded as the integer. -/
lemma ofRatio_mul_unitsPerOne (negative : Bool) {n : Nat} (hn : n ≠ 0) :
    ofRatio negative (n * unitsPerOne) unitsPerOne = ofRatio negative n 1 := by
  obtain ⟨e, he⟩ : ∃ e, e = 1074 := ⟨_, rfl⟩
  have hpos := Nat.two_pow_pos e
  have hone : ¬ (n = 0 ∨ 1 = 0) := by omega
  have hunits : ¬ (n * 2 ^ e = 0 ∨ 2 ^ e = 0) := by
    rw [Nat.mul_eq_zero]
    omega
  rw [unitsPerOne_eq he]
  unfold ofRatio
  rw [if_neg hone, if_neg hunits, leadingExponent_mul_pow hn]
  simp only [Nat.mul_right_comm n (2 ^ e), Nat.mul_comm (2 ^ e), Nat.one_mul,
    roundHalfEven_mul_right _ _ hpos]

/-- What stands at an integer of at most 64 bits is finite and has its value. -/
lemma units_eq_of_place_eq {n : Int} (hn : n.natAbs ≤ 2 ^ 63) (hx : x.place = placeOfInt n) :
    x.isFinite = true ∧ x.units = placeOfInt n := by
  have hfinite := isFinite_of_place_eq hn hx
  exact ⟨hfinite, by rw [← place_of_isFinite hfinite, hx]⟩

/-- The sum of two numbers that are integers stands where their exact sum is rounded to. -/
theorem place_add_of_integers {m n : Int} (hm : m.natAbs ≤ 2 ^ 63) (hn : n.natAbs ≤ 2 ^ 63)
    (hx : x.place = placeOfInt m) (hy : y.place = placeOfInt n) :
    (x.add y).place = (ofInt (m + n)).place := by
  obtain ⟨hxfinite, hxunits⟩ := units_eq_of_place_eq hm hx
  obtain ⟨hyfinite, hyunits⟩ := units_eq_of_place_eq hn hy
  have htotal : x.units + y.units = (m + n) * unitsPerOne := by
    rw [hxunits, hyunits, placeOfInt, placeOfInt, Int.add_mul]
  rw [add_of_isFinite hxfinite hyfinite, htotal]
  unfold ofInt
  by_cases hzero : m + n = 0
  · rw [hzero, Int.zero_mul, if_pos rfl, Int.natAbs_zero, ofRatio_zero, place_zero, place_zero]
  · have hne : (m + n) * (unitsPerOne : Int) ≠ 0 :=
      Int.mul_ne_zero hzero unitsPerOne_pos_int.ne'
    have hsign : (m + n) * (unitsPerOne : Int) < 0 ↔ m + n < 0 := by
      conv_rhs => rw [← Int.mul_lt_mul_right unitsPerOne_pos_int, Int.zero_mul]
    have hsize : ((m + n) * (unitsPerOne : Int)).natAbs = (m + n).natAbs * unitsPerOne := by
      rw [Int.natAbs_mul, Int.natAbs_natCast]
    have habs : (m + n).natAbs ≠ 0 := by omega
    rw [if_neg hne, hsize, ofRatio_mul_unitsPerOne _ habs, decide_eq_decide.2 hsign]

/-- The sum of two numbers that are integers is exact if it is representable. -/
lemma place_add_of_isRepresentable {m n : Int} (hm : m.natAbs ≤ 2 ^ 63) (hn : n.natAbs ≤ 2 ^ 63)
    (hsum : (m + n).natAbs ≤ 2 ^ 63) (hrepresentable : IsRepresentable (m + n))
    (hx : x.place = placeOfInt m) (hy : y.place = placeOfInt n) :
    (x.add y).place = placeOfInt (m + n) := by
  rw [place_add_of_integers hm hn hx hy]
  exact (place_ofInt_iff hsum).2 hrepresentable

end RelationalAlgebra.Binary64
