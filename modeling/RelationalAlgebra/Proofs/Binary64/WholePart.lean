import Mathlib.Data.Set.Operations
import RelationalAlgebra.Proofs.Binary64.Bounds

/-!
# Whole parts are exact

A size with at most 53 digits is the size of some number, and such a number is what its size is
rounded to (`ofRatio_sizeAt`).  To cut a size off at a power of two leaves no more digits than
there were, neither in the part that is kept nor in the rest.  So the whole part of a finite number
is a number itself, and it is subtracted without rounding: what remains is exactly the fraction.
-/

namespace RelationalAlgebra.Binary64

/-! ## Sizes of few digits -/

/-- At most 53 digits, with any exponent, make the size of some magnitude. -/
lemma mul_pow_mem_range_sizeAt {s : Nat} (e : Nat) (hs : s < 2 ^ 53) :
    s * 2 ^ e ∈ Set.range sizeAt := by
  induction e generalizing s with
  | zero =>
    rcases Nat.lt_or_ge s (2 ^ 52) with hsmall | hlarge
    · refine ⟨s, ?_⟩
      have hmod : s % 2 ^ 52 = s := Nat.mod_eq_of_lt hsmall
      have hdiv : s / 2 ^ 52 = 0 := Nat.div_eq_of_lt hsmall
      rw [sizeAt, hmod, hdiv, if_pos hsmall]
      rfl
    · exact ⟨0 * 2 ^ 52 + s, sizeAt_normal hlarge hs⟩
  | succ e ih =>
    rcases Nat.lt_or_ge s (2 ^ 52) with hsmall | hlarge
    · obtain ⟨m, hm⟩ := ih (s := s * 2) (by omega)
      exact ⟨m, by rw [hm, Nat.pow_succ', Nat.mul_assoc]⟩
    · exact ⟨(e + 1) * 2 ^ 52 + s, sizeAt_normal hlarge hs⟩

/-- To cut a size off at a power of two gives two sizes: what is kept, and the rest. -/
lemma cut_mem_range_sizeAt (m d : Nat) :
    sizeAt m / 2 ^ d * 2 ^ d ∈ Set.range sizeAt ∧ sizeAt m % 2 ^ d ∈ Set.range sizeAt := by
  obtain ⟨s, e, hs, hsize⟩ := exists_sizeAt_eq m
  rw [hsize]
  rcases Nat.le_total d e with hle | hle
  · -- All digits of the size stand in front of the cut.
    obtain ⟨j, rfl⟩ : ∃ j, e = j + d := ⟨e - d, by omega⟩
    rw [Nat.pow_add, ← Nat.mul_assoc, Nat.mul_div_cancel _ (Nat.two_pow_pos d), Nat.mul_mod_left,
      Nat.mul_assoc, ← Nat.pow_add]
    exact ⟨mul_pow_mem_range_sizeAt _ hs, 0, sizeAt_zero⟩
  · obtain ⟨j, rfl⟩ : ∃ j, d = j + e := ⟨d - e, by omega⟩
    rw [Nat.pow_add, Nat.mul_div_mul_right _ _ (Nat.two_pow_pos e), Nat.mul_mod_mul_right,
      ← Nat.pow_add]
    exact ⟨mul_pow_mem_range_sizeAt _ ((Nat.div_le_self _ _).trans_lt hs),
      mul_pow_mem_range_sizeAt _ ((Nat.mod_le _ _).trans_lt hs)⟩

/-! ## Rounding to the number itself -/

/-- On its grid, the size at a magnitude is rounded to that magnitude. -/
lemma grid_magnitude_eq {m p g k d : Nat} (hgrid : p + k = g + d)
    (hupper : sizeAt m * 2 ^ p < 2 ^ 53 * (2 ^ d * 2 ^ g))
    (hlower : k = 0 ∨ 2 ^ 52 * (2 ^ d * 2 ^ g) ≤ sizeAt m * 2 ^ p) :
    k * 2 ^ 52 + roundHalfEven (sizeAt m * 2 ^ p) (2 ^ d * 2 ^ g) = m := by
  obtain ⟨s, e, hs, hnormal, hm, hsize⟩ := exists_significand_exponent m
  have hden : 2 ^ d * 2 ^ g = 2 ^ k * 2 ^ p := by
    rw [← Nat.pow_add, ← Nat.pow_add, Nat.add_comm d, Nat.add_comm k, hgrid]
  have hpos := Nat.two_pow_pos p
  rw [hden, hsize] at hupper hlower ⊢
  rw [← Nat.mul_assoc, Nat.mul_lt_mul_right hpos] at hupper
  rw [← Nat.mul_assoc, Nat.mul_le_mul_right_iff hpos] at hlower
  -- The steps of the grid are at most those of the number, since that has at most 53 digits.
  have hfine : k ≤ e := by
    rcases hlower with rfl | hlower
    · exact Nat.zero_le e
    · have hlt : 2 ^ (52 + k) < 2 ^ (53 + e) := by
        rw [Nat.pow_add, Nat.pow_add]
        exact hlower.trans_lt (Nat.mul_lt_mul_of_pos_right hs (Nat.two_pow_pos e))
      have := (Nat.pow_lt_pow_iff_right (by decide)).1 hlt
      omega
  obtain ⟨j, rfl⟩ : ∃ j, e = k + j := ⟨e - k, by omega⟩
  have hsplit : s * 2 ^ (k + j) = s * 2 ^ j * 2 ^ k := by
    rw [Nat.add_comm, Nat.pow_add, Nat.mul_assoc]
  rw [hsplit, Nat.mul_lt_mul_right (Nat.two_pow_pos k)] at hupper
  rw [hsplit, Nat.mul_assoc, roundHalfEven_mul _ (Nat.mul_pos (Nat.two_pow_pos k) hpos)]
  -- Nor are they smaller, since the number would have more than 53 digits on a finer grid.
  rcases Nat.eq_zero_or_pos j with rfl | hj
  · rw [Nat.pow_zero, Nat.mul_one, hm, Nat.add_zero]
  · have hdouble : s * 2 ≤ s * 2 ^ j := Nat.mul_le_mul_left s (Nat.le_pow hj)
    omega

/-- The size of a finite number is rounded to that number. -/
theorem ofRatio_sizeAt (negative : Bool) {m : Nat} (hm : m < infinityMagnitude) :
    ofRatio negative (sizeAt m) unitsPerOne = ofMagnitude negative m := by
  rcases Nat.eq_zero_or_pos m with rfl | hpos
  · rw [sizeAt_zero, ofRatio_zero]
    rfl
  obtain ⟨d, hd⟩ : ∃ d, d = 1074 := ⟨_, rfl⟩
  have hsize : sizeAt m ≠ 0 := (sizeAt_zero ▸ sizeAt_strictMono hpos).ne'
  obtain ⟨p, g, k, hgrid, hupper, hlower, hrounded⟩ :=
    exists_grid negative hsize unitsPerOne_pos.ne'
  rw [unitsPerOne_eq hd] at hupper hlower hrounded ⊢
  rw [hrounded, grid_magnitude_eq (hd ▸ hgrid) hupper hlower, Nat.min_eq_left hm.le]

/-- A size is rounded to a finite number that has it. -/
lemma ofRatio_of_mem_range_sizeAt (negative : Bool) {n : Nat} {x : Binary64}
    (hx : x.isFinite = true) (hle : n ≤ x.unitSize) (hn : n ∈ Set.range sizeAt) :
    (ofRatio negative n unitsPerOne).isFinite = true ∧
      (ofRatio negative n unitsPerOne).units = signed negative n := by
  obtain ⟨m, rfl⟩ := hn
  have hmagnitude : m < infinityMagnitude :=
    (sizeAt_strictMono.le_iff_le.1 hle).trans_lt (of_decide_eq_true hx)
  have hinfinity : infinityMagnitude < 2 ^ 63 := by decide
  have hbits := magnitude_ofMagnitude negative (hmagnitude.trans hinfinity)
  rw [ofRatio_sizeAt negative hmagnitude]
  constructor
  · rw [isFinite, hbits]
    exact decide_eq_true hmagnitude
  · rw [units_eq_signed, unitSize_eq_sizeAt, hbits,
      isNegative_ofMagnitude negative (hmagnitude.trans hinfinity)]

/-! ## Whole parts -/

/-- An integer is its size with its sign. -/
lemma signed_natAbs (n : Int) : signed (n < 0) n.natAbs = n := by
  by_cases hneg : n < 0
  · rw [decide_eq_true hneg, signed, if_pos rfl]
    omega
  · rw [decide_eq_false hneg, signed, if_neg Bool.false_ne_true]
    omega

/-- The integral number between zero and a number that is nearest to the number. -/
def wholePart (x : Binary64) : Binary64 :=
  if x.isFinite then ofRatio x.isNegative (x.unitSize / unitsPerOne) 1 else x

variable {x : Binary64}

/-- The whole part of a finite number is a finite number and exactly the integer part. -/
lemma wholePart_spec (hx : x.isFinite = true) :
    x.wholePart.isFinite = true ∧ x.wholePart.units = placeOfInt x.truncate := by
  obtain ⟨d, hd⟩ : ∃ d, d = 1074 := ⟨_, rfl⟩
  have hunits : placeOfInt x.truncate =
      signed x.isNegative (x.unitSize / unitsPerOne * unitsPerOne) := by
    unfold placeOfInt truncate signed
    rw [Int.natCast_mul]
    cases x.isNegative
    · simp only [Bool.false_eq_true, if_false]
    · simp only [if_true, Int.neg_mul]
  have hkept : x.unitSize / unitsPerOne * unitsPerOne ∈ Set.range sizeAt := by
    rw [unitsPerOne_eq hd]
    exact (cut_mem_range_sizeAt x.magnitude d).1
  have hpart : x.wholePart =
      ofRatio x.isNegative (x.unitSize / unitsPerOne * unitsPerOne) unitsPerOne := by
    rw [wholePart, if_pos hx]
    by_cases hzero : x.unitSize / unitsPerOne = 0
    · rw [hzero, Nat.zero_mul, ofRatio_zero, ofRatio_zero]
    · rw [ofRatio_mul_unitsPerOne _ hzero]
  rw [hpart, hunits]
  exact ofRatio_of_mem_range_sizeAt _ hx (Nat.div_mul_le_self _ _) hkept

/-- The integer part of an integral number is the number. -/
lemma truncate_of_units_eq {n : Int} (h : x.units = placeOfInt n) :
    x.truncate = n ∧ x.isIntegral = true := by
  have hunits := x.truncate_add_fractionUnits
  have hbounds := x.truncate_fractionUnits_bounds
  have hone := unitsPerOne_pos_int
  rw [h, placeOfInt] at hunits
  have hsmall : x.fractionUnits.natAbs < (unitsPerOne : Int).natAbs := by omega
  have hdvd : (unitsPerOne : Int) ∣ x.fractionUnits :=
    ⟨n - x.truncate, by rw [Int.mul_comm, Int.sub_mul]; omega⟩
  have hfraction : x.fractionUnits = 0 := Int.eq_zero_of_dvd_of_natAbs_lt_natAbs hdvd hsmall
  rw [hfraction, Int.add_zero] at hunits
  exact ⟨Int.eq_of_mul_eq_mul_right hone.ne' hunits, beq_iff_eq.2 hfraction⟩

/-- The number of the other sign has the opposite value. -/
lemma units_neg (hx : x.isFinite = true) : x.neg.units = -x.units := by
  have hinfinity : infinityMagnitude < 2 ^ 63 := by decide
  have hmagnitude : x.magnitude < 2 ^ 63 := (of_decide_eq_true hx : _ < _).trans hinfinity
  rw [units_eq_signed, units_eq_signed, unitSize_eq_sizeAt, unitSize_eq_sizeAt, neg,
    magnitude_ofMagnitude _ hmagnitude, isNegative_ofMagnitude _ hmagnitude]
  cases x.isNegative <;> simp [signed]

/-- A finite number less its whole part is exactly its fraction. -/
theorem add_neg_wholePart (hx : x.isFinite = true) :
    (x.add x.wholePart.neg).isFinite = true ∧
      (x.add x.wholePart.neg).units = x.fractionUnits := by
  obtain ⟨hfinite, hunits⟩ := wholePart_spec hx
  obtain ⟨d, hd⟩ : ∃ d, d = 1074 := ⟨_, rfl⟩
  have hrest : x.unitSize % unitsPerOne ∈ Set.range sizeAt := by
    rw [unitsPerOne_eq hd]
    exact (cut_mem_range_sizeAt x.magnitude d).2
  have habs : x.fractionUnits.natAbs = x.unitSize % unitsPerOne :=
    natAbs_signed x.isNegative _
  have htotal : x.units + x.wholePart.neg.units = x.fractionUnits := by
    have hsplit := x.truncate_add_fractionUnits
    rw [units_neg hfinite, hunits, placeOfInt]
    omega
  rw [add_of_isFinite hx (isFinite_neg hfinite), htotal]
  by_cases hzero : x.fractionUnits = 0
  · rw [if_pos hzero, hzero]
    have hfinite : (zero (x.isNegative && x.wholePart.neg.isNegative)).isFinite = true :=
      isFinite_of_magnitude_eq_zero (magnitude_ofMagnitude _ (by decide))
    exact ⟨hfinite, by rw [← place_of_isFinite hfinite, place_zero]⟩
  · rw [if_neg hzero, habs]
    obtain ⟨hresult, hvalue⟩ := ofRatio_of_mem_range_sizeAt (x.fractionUnits < 0) hx
      (Nat.mod_le _ unitsPerOne) hrest
    exact ⟨hresult, by rw [hvalue, ← habs, signed_natAbs]⟩

end RelationalAlgebra.Binary64
