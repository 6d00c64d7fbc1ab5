import RelationalAlgebra.Binary64.Arithmetic
import RelationalAlgebra.Proofs.Binary64.Integer

/-!
# Which integers rounding leaves alone

An integer is rounded to the nearest binary64 number before it meets one in an equality or a sum.
Main statement: rounding moves no integer of at most 64 bits that is the value of some binary64
number (`place_ofInt`), in particular none up to `2 ^ 53` in size.  So an integer that rounding
does move has no binary64 number at its own place.
-/

namespace RelationalAlgebra.Binary64

/-- An integer that is the exact value of some binary64 number. -/
def IsRepresentable (n : Int) : Prop :=
  ∃ x : Binary64, x.place = placeOfInt n

/-! ## Building numbers from sign and magnitude -/

/-- The magnitude of a number that is built from a sign and a magnitude. -/
lemma magnitude_ofMagnitude (negative : Bool) {m : Nat} (hm : m < 2 ^ 63) :
    (ofMagnitude negative m).magnitude = m := by
  unfold ofMagnitude magnitude
  rw [UInt64.toNat_ofNat', natPow_eq]
  cases negative <;> simp only [Bool.false_eq_true, if_true, if_false] <;> omega

/-- The sign of a number that is built from a sign and a magnitude. -/
lemma isNegative_ofMagnitude (negative : Bool) {m : Nat} (hm : m < 2 ^ 63) :
    (ofMagnitude negative m).isNegative = negative := by
  unfold ofMagnitude isNegative
  rw [UInt64.toNat_ofNat', natPow_eq]
  cases negative <;> simp only [Bool.false_eq_true, if_true, if_false, decide_eq_true_eq,
    decide_eq_false_iff_not] <;> omega

/-- The place of a number that is built from a sign and a magnitude. -/
lemma place_ofMagnitude (negative : Bool) {m : Nat} (hm : m < 2 ^ 63) :
    (ofMagnitude negative m).place = signed negative (distanceAt m) := by
  rw [place_eq_signed, magnitude_ofMagnitude negative hm, isNegative_ofMagnitude negative hm]

/-- The place of an integer is its size with its sign. -/
lemma placeOfInt_eq_signed (n : Int) :
    placeOfInt n = signed (n < 0) (n.natAbs * unitsPerOne) := by
  unfold placeOfInt signed
  rw [Int.natCast_mul]
  by_cases hneg : n < 0
  · rw [decide_eq_true hneg, if_pos rfl, ← Int.neg_mul]
    congr 1
    omega
  · rw [decide_eq_false hneg, if_neg Bool.false_ne_true]
    congr 1
    omega

/-! ## Rounding that has nothing to do -/

/-- A ratio that is an integer is not rounded. -/
lemma roundHalfEven_mul (q : Nat) {d : Nat} (hd : 0 < d) : roundHalfEven (q * d) d = q := by
  unfold roundHalfEven
  simp only [Nat.mul_div_cancel q hd, Nat.mul_mod_left, Nat.mul_zero]
  rw [if_pos hd]

/-- The leading binary digit of an integer. -/
lemma leadingExponent_one {n : Nat} (hn : n ≠ 0) : leadingExponent n 1 = n.log2 := by
  have hle : 2 ^ n.log2 ≤ n := Nat.log2_self_le hn
  have hone : Nat.log2 1 = 0 := by decide
  unfold leadingExponent
  simp only [hone, Int.natCast_zero, Int.sub_zero, Int.toNat_natCast, Nat.one_mul]
  rw [if_neg]
  have hexp : (-(n.log2 : Int)).toNat = 0 := by omega
  rw [hexp, natPow_eq, natPow_eq]
  omega

/-- A significand of 53 bits with an exponent is the size at the magnitude that it makes. -/
lemma sizeAt_normal {e r : Nat} (hlow : 2 ^ 52 ≤ r) (hhigh : r < 2 ^ 53) :
    sizeAt (e * 2 ^ 52 + r) = r * 2 ^ e := by
  have hmod : (e * 2 ^ 52 + r) % 2 ^ 52 = r - 2 ^ 52 := by omega
  have hdiv : (e * 2 ^ 52 + r) / 2 ^ 52 = e + 1 := by omega
  have hnormal : ¬ e * 2 ^ 52 + r < 2 ^ 52 := by omega
  have hexp : max 1 (e + 1) - 1 = e := by omega
  unfold sizeAt
  rw [hmod, hdiv, if_neg hnormal, hexp, Nat.sub_add_cancel hlow]

/-- The significand `r` of an integer `n` with leading digit `l`, on the grid `2 ^ (b - a)`. -/
lemma significand_bounds {n r a b : Nat} (hn : n ≠ 0) (hgrid : b + 52 = n.log2 + a)
    (hr : n * 2 ^ a = r * 2 ^ b) : 2 ^ 52 ≤ r ∧ r < 2 ^ 53 := by
  have hlow : 2 ^ n.log2 * 2 ^ a ≤ n * 2 ^ a := Nat.mul_le_mul_right _ (Nat.log2_self_le hn)
  have hhigh : n * 2 ^ a < 2 ^ (n.log2 + 1) * 2 ^ a :=
    Nat.mul_lt_mul_of_pos_right Nat.lt_log2_self (Nat.two_pow_pos _)
  have hup : n.log2 + 1 + a = 53 + b := by omega
  rw [← Nat.pow_add, ← hgrid, hr, Nat.add_comm, Nat.pow_add] at hlow
  rw [← Nat.pow_add, hup, hr, Nat.pow_add] at hhigh
  exact ⟨Nat.le_of_mul_le_mul_right hlow (Nat.two_pow_pos _),
    Nat.lt_of_mul_lt_mul_right hhigh⟩

/-- The grid of an integer with few significant digits hits the integer. -/
lemma exists_significand {n s k a b : Nat} (hn : n ≠ 0) (hs : s < 2 ^ 53)
    (hk : n = s * 2 ^ k) (hgrid : b + 52 = n.log2 + a) (hfree : a = 0 ∨ b = 0) :
    ∃ r, n * 2 ^ a = r * 2 ^ b := by
  rcases hfree with ha | hb
  · have hlow : 2 ^ n.log2 ≤ n := Nat.log2_self_le hn
    have hhigh : n < 2 ^ (53 + k) := by
      rw [hk, Nat.pow_add]
      exact Nat.mul_lt_mul_of_pos_right hs (Nat.two_pow_pos _)
    have hlog : n.log2 < 53 + k := (Nat.pow_lt_pow_iff_right (by decide)).1 (hlow.trans_lt hhigh)
    have hsplit : k = (k - b) + b := by omega
    refine ⟨s * 2 ^ (k - b), ?_⟩
    rw [ha, Nat.pow_zero, Nat.mul_one, Nat.mul_assoc, ← Nat.pow_add, ← hsplit, hk]
  · exact ⟨n * 2 ^ a, by rw [hb, Nat.pow_zero, Nat.mul_one]⟩

/-! ## Rounding of integers -/

/-- The rounding of a positive integer that lies on its grid `2 ^ (b - a)`. -/
lemma ofRatio_one {n r a b e : Nat} (negative : Bool) (hn : n ≠ 0) (hlog : n.log2 < 64)
    (ha : a = 52 - n.log2) (hb : b = n.log2 - 52) (he : e + a = b + 1074)
    (hr : n * 2 ^ a = r * 2 ^ b) (hhigh : r < 2 ^ 53) :
    ofRatio negative n 1 = ofMagnitude negative (e * 2 ^ 52 + r) := by
  have hnonzero : ¬ (n = 0 ∨ 1 = 0) := by omega
  have hgrid : max ((n.log2 : Int) - 52) (-1074) = (n.log2 : Int) - 52 := by omega
  have hdown : (-((n.log2 : Int) - 52)).toNat = a := by omega
  have hup : ((n.log2 : Int) - 52).toNat = b := by omega
  have hexp : ((n.log2 : Int) - 52 + 1074).toNat = e := by omega
  have hfinite : e * 2 ^ 52 + r ≤ infinityMagnitude := by
    rw [infinityMagnitude, natPow_eq]
    omega
  unfold ofRatio
  rw [if_neg hnonzero, leadingExponent_one hn]
  simp only [hgrid, hdown, hup, hexp, natPow_eq, hr, Nat.one_mul]
  rw [roundHalfEven_mul r (Nat.two_pow_pos b), Nat.min_eq_left hfinite]

/-- An integer of at most 64 bits with few significant digits is not rounded. -/
lemma place_ofInt_of_eq_mul_pow {n : Int} {s k : Nat} (hs : s < 2 ^ 53)
    (hn : n.natAbs = s * 2 ^ k) (hrange : n.natAbs < 2 ^ 64) :
    (ofInt n).place = placeOfInt n := by
  rw [placeOfInt_eq_signed]
  by_cases hzero : n = 0
  · subst hzero
    have hnumber : ofInt 0 = ofMagnitude false 0 := rfl
    rw [hnumber, place_ofMagnitude false (by decide), distanceAt_zero, Int.natAbs_zero,
      Nat.zero_mul]
    rfl
  have hne : n.natAbs ≠ 0 := by omega
  have hlog : n.natAbs.log2 < 64 := (Nat.log2_lt hne).2 hrange
  -- The grid is `2 ^ (b - a)`, where one of `a` and `b` is zero.
  obtain ⟨a, ha⟩ : ∃ a, a = 52 - n.natAbs.log2 := ⟨_, rfl⟩
  obtain ⟨b, hb⟩ : ∃ b, b = n.natAbs.log2 - 52 := ⟨_, rfl⟩
  have hgrid : b + 52 = n.natAbs.log2 + a := by omega
  obtain ⟨r, hr⟩ := exists_significand hne hs hn hgrid (by omega)
  obtain ⟨hlow, hhigh⟩ := significand_bounds hne hgrid hr
  obtain ⟨d, hd⟩ : ∃ d, d = 1074 := ⟨_, rfl⟩
  obtain ⟨e, he⟩ : ∃ e, e + a = b + d := ⟨b + d - a, by omega⟩
  have hfinite : e * 2 ^ 52 + r < infinityMagnitude := by
    rw [infinityMagnitude, natPow_eq]
    omega
  have hmagnitude : e * 2 ^ 52 + r < 2 ^ 63 := by omega
  have hexp : e + a = b + 1074 := by omega
  have hsize : r * 2 ^ e = n.natAbs * unitsPerOne := by
    apply Nat.eq_of_mul_eq_mul_right (Nat.two_pow_pos a)
    rw [unitsPerOne_eq hd, Nat.mul_assoc, ← Nat.pow_add, he, Nat.pow_add, ← Nat.mul_assoc, ← hr,
      Nat.mul_assoc, Nat.mul_comm (2 ^ a), Nat.mul_assoc]
  unfold ofInt
  rw [ofRatio_one _ hne hlog ha hb hexp hr hhigh, place_ofMagnitude _ hmagnitude, distanceAt,
    if_pos hfinite, sizeAt_normal hlow hhigh, hsize]

/-! ## Representable integers -/

/-- The size of a signed size. -/
lemma natAbs_signed (negative : Bool) (m : Nat) : (signed negative m).natAbs = m := by
  cases negative
  · exact Int.natAbs_natCast m
  · exact (Int.natAbs_neg _).trans (Int.natAbs_natCast m)

/-- Every size is a significand of 53 bits with an exponent. -/
lemma exists_sizeAt_eq (m : Nat) : ∃ s e, s < 2 ^ 53 ∧ sizeAt m = s * 2 ^ e := by
  refine ⟨_, _, ?_, rfl⟩
  split <;> omega

/-- A representable integer of at most 64 bits has few significant digits. -/
lemma exists_eq_mul_pow {n : Int} (hrange : n.natAbs ≤ 2 ^ 63) (h : IsRepresentable n) :
    ∃ s k, s < 2 ^ 53 ∧ n.natAbs = s * 2 ^ k := by
  obtain ⟨x, hx⟩ := h
  have hfinite := isFinite_of_place_eq hrange hx
  have hsize : sizeAt x.magnitude = n.natAbs * unitsPerOne := by
    rw [place_of_isFinite hfinite, units_eq_signed, unitSize_eq_sizeAt,
      placeOfInt_eq_signed] at hx
    simpa only [natAbs_signed] using congrArg Int.natAbs hx
  obtain ⟨s, e, hs, hse⟩ := exists_sizeAt_eq x.magnitude
  obtain ⟨d, hd⟩ : ∃ d, d = 1074 := ⟨_, rfl⟩
  rw [hse, unitsPerOne_eq hd] at hsize
  by_cases hlarge : d ≤ e
  · obtain ⟨k, rfl⟩ : ∃ k, e = k + d := ⟨e - d, by omega⟩
    refine ⟨s, k, hs, ?_⟩
    rw [Nat.pow_add, ← Nat.mul_assoc] at hsize
    exact (Nat.eq_of_mul_eq_mul_right (Nat.two_pow_pos d) hsize).symm
  · obtain ⟨k, hk⟩ : ∃ k, d = k + e := ⟨d - e, by omega⟩
    refine ⟨n.natAbs, 0, ?_, by rw [Nat.pow_zero, Nat.mul_one]⟩
    rw [hk, Nat.pow_add, ← Nat.mul_assoc] at hsize
    have hcancel := Nat.eq_of_mul_eq_mul_right (Nat.two_pow_pos e) hsize
    have hle : n.natAbs ≤ s := by
      rw [hcancel]
      exact Nat.le_mul_of_pos_right _ (Nat.two_pow_pos _)
    omega

/-- Rounding leaves an integer of at most 64 bits alone exactly if it is representable. -/
theorem place_ofInt_iff {n : Int} (hrange : n.natAbs ≤ 2 ^ 63) :
    (ofInt n).place = placeOfInt n ↔ IsRepresentable n := by
  constructor
  · intro h
    exact ⟨ofInt n, h⟩
  · intro h
    obtain ⟨s, k, hs, hk⟩ := exists_eq_mul_pow hrange h
    exact place_ofInt_of_eq_mul_pow hs hk (by omega)

/-- Every integer up to `2 ^ 53` in size is representable. -/
theorem isRepresentable_of_natAbs_le {n : Int} (h : n.natAbs ≤ 2 ^ 53) :
    IsRepresentable n := by
  refine ⟨ofInt n, ?_⟩
  by_cases hend : n.natAbs = 2 ^ 53
  · exact place_ofInt_of_eq_mul_pow (s := 1) (k := 53) (by decide) (by omega) (by omega)
  · exact place_ofInt_of_eq_mul_pow (s := n.natAbs) (k := 0) (by omega) (by omega) (by omega)

end RelationalAlgebra.Binary64
