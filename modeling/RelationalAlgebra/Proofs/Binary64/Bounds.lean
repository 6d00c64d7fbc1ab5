import RelationalAlgebra.Proofs.Binary64.Addition

/-!
# Rounding does not pass a number

A ratio that is at most some binary64 number is rounded to at most that number
(`magnitude_ofRatio_le`).  The grid of the rounding either is finer than that of the number, and
then the number is a multiple of its steps, or it is coarser, and then the leading digit of the
ratio already stands above the number.

It follows that a finite number stays finite when it is divided by a finite number that is at least
one.
-/

namespace RelationalAlgebra.Binary64

/-! ## The leading digit of a ratio -/

/-- Two numbers compare alike however a power of two is shared between their sides. -/
lemma mul_pow_le_mul_pow_iff {a b p g p' g' : Nat} (h : p + g' = p' + g) :
    b * 2 ^ g ≤ a * 2 ^ p ↔ b * 2 ^ g' ≤ a * 2 ^ p' := by
  calc b * 2 ^ g ≤ a * 2 ^ p
      ↔ b * 2 ^ g * 2 ^ g' ≤ a * 2 ^ p * 2 ^ g' :=
        (Nat.mul_le_mul_right_iff (Nat.two_pow_pos g')).symm
    _ ↔ b * 2 ^ g' * 2 ^ g ≤ a * 2 ^ p' * 2 ^ g := by
        rw [Nat.mul_right_comm, Nat.mul_assoc a, Nat.mul_assoc a, ← Nat.pow_add, ← Nat.pow_add, h]
    _ ↔ b * 2 ^ g' ≤ a * 2 ^ p' := Nat.mul_le_mul_right_iff (Nat.two_pow_pos g)

/-- The leading digit of a positive ratio stands at its leading exponent: the ratio is at least
this power of two, and less than the next. -/
lemma leadingExponent_spec {a b : Nat} (ha : a ≠ 0) (hb : b ≠ 0) {p g : Nat} :
    (p + leadingExponent a b = g → b * 2 ^ g ≤ a * 2 ^ p) ∧
      (p + leadingExponent a b + 1 = g → a * 2 ^ p < b * 2 ^ g) := by
  have halow : 2 ^ a.log2 ≤ a := Nat.log2_self_le ha
  have hahigh : a < 2 ^ (a.log2 + 1) := Nat.lt_log2_self
  have hblow : 2 ^ b.log2 ≤ b := Nat.log2_self_le hb
  have hbhigh : b < 2 ^ (b.log2 + 1) := Nat.lt_log2_self
  unfold leadingExponent
  dsimp only [natPow_eq]
  split
  · next hless =>
    constructor
    · intro hg
      have hexp : b.log2 + 1 + g = a.log2 + p := by omega
      calc b * 2 ^ g ≤ 2 ^ (b.log2 + 1) * 2 ^ g := Nat.mul_le_mul_right _ hbhigh.le
        _ = 2 ^ a.log2 * 2 ^ p := by rw [← Nat.pow_add, ← Nat.pow_add, hexp]
        _ ≤ a * 2 ^ p := Nat.mul_le_mul_right _ halow
    · intro hg
      rw [← Nat.not_le] at hless ⊢
      rwa [mul_pow_le_mul_pow_iff]
      omega
  · next hless =>
    constructor
    · intro hg
      rw [Nat.not_lt] at hless
      rwa [mul_pow_le_mul_pow_iff]
      omega
    · intro hg
      have hexp : a.log2 + 1 + p = b.log2 + g := by omega
      calc a * 2 ^ p < 2 ^ (a.log2 + 1) * 2 ^ p :=
            Nat.mul_lt_mul_of_pos_right hahigh (Nat.two_pow_pos p)
        _ = 2 ^ b.log2 * 2 ^ g := by rw [← Nat.pow_add, ← Nat.pow_add, hexp]
        _ ≤ b * 2 ^ g := Nat.mul_le_mul_right _ hblow

/-! ## Rounding to a grid -/

/-- A ratio that is at most an integer is rounded to at most that integer. -/
lemma roundHalfEven_le {num den q : Nat} (hden : 0 < den) (h : num ≤ q * den) :
    roundHalfEven num den ≤ q := by
  have hquotient : num / den ≤ q := Nat.div_le_of_le_mul (by rwa [Nat.mul_comm])
  unfold roundHalfEven
  dsimp only
  rcases Nat.eq_or_lt_of_le hquotient with heq | hlt
  · -- Then the ratio is the integer, and nothing is left to round up.
    have hdiv : den * q + num % den = num := heq ▸ Nat.div_add_mod num den
    rw [Nat.mul_comm] at hdiv
    have hrest : num % den = 0 := by omega
    rw [hrest, heq, if_pos hden]
  · split
    · exact hquotient
    · split <;> omega

/-- The significand and the exponent that make a magnitude. -/
lemma exists_significand_exponent (m : Nat) :
    ∃ s e, s < 2 ^ 53 ∧ (e = 0 ∨ 2 ^ 52 ≤ s) ∧ m = e * 2 ^ 52 + s ∧ sizeAt m = s * 2 ^ e := by
  refine ⟨_, _, ?_, ?_, ?_, rfl⟩
  · split <;> omega
  · split <;> omega
  · split <;> omega

/-- The magnitude that a ratio is rounded to, on the grid `2 ^ (k - d)`, is at most that of every
number that is at least the ratio. -/
lemma grid_magnitude_le {a b m p g k d : Nat} (hb : 0 < b) (hgrid : p + k = g + d)
    (hupper : a * 2 ^ p < 2 ^ 53 * (b * 2 ^ g))
    (hlower : k = 0 ∨ 2 ^ 52 * (b * 2 ^ g) ≤ a * 2 ^ p) (h : a * 2 ^ d ≤ sizeAt m * b) :
    k * 2 ^ 52 + roundHalfEven (a * 2 ^ p) (b * 2 ^ g) ≤ m := by
  obtain ⟨s, e, hs, hnormal, hm, hsize⟩ := exists_significand_exponent m
  have hden : 0 < b * 2 ^ g := Nat.mul_pos hb (Nat.two_pow_pos g)
  have hscale : a * 2 ^ p * 2 ^ k = a * 2 ^ d * 2 ^ g := by
    rw [Nat.mul_assoc, Nat.mul_assoc, ← Nat.pow_add, ← Nat.pow_add, hgrid, Nat.add_comm g]
  have hle : a * 2 ^ p * 2 ^ k ≤ s * 2 ^ e * b * 2 ^ g := by
    rw [hscale, ← hsize]
    exact Nat.mul_le_mul_right _ h
  rcases Nat.lt_or_ge e k with hcoarse | hfine
  · -- The leading digit of the ratio stands above all digits of the number.
    exfalso
    have hlead : 2 ^ 52 * (b * 2 ^ g) ≤ a * 2 ^ p := hlower.resolve_left (by omega)
    have hexp : 53 + e ≤ 52 + k := by omega
    have hlt : a * 2 ^ p * 2 ^ k < a * 2 ^ p * 2 ^ k := by
      calc a * 2 ^ p * 2 ^ k ≤ s * 2 ^ e * b * 2 ^ g := hle
        _ = s * 2 ^ e * (b * 2 ^ g) := Nat.mul_assoc _ _ _
        _ < 2 ^ 53 * 2 ^ e * (b * 2 ^ g) :=
          Nat.mul_lt_mul_of_pos_right
            (Nat.mul_lt_mul_of_pos_right hs (Nat.two_pow_pos e)) hden
        _ ≤ 2 ^ 52 * 2 ^ k * (b * 2 ^ g) := by
          rw [← Nat.pow_add, ← Nat.pow_add]
          exact Nat.mul_le_mul_right _ (Nat.pow_le_pow_right (by decide) hexp)
        _ = 2 ^ 52 * (b * 2 ^ g) * 2 ^ k := Nat.mul_right_comm _ _ _
        _ ≤ a * 2 ^ p * 2 ^ k := Nat.mul_le_mul_right _ hlead
    exact Nat.lt_irrefl _ hlt
  · -- The number is a multiple of the steps of the grid.
    obtain ⟨j, rfl⟩ : ∃ j, e = k + j := ⟨e - k, by omega⟩
    have hmultiple : a * 2 ^ p ≤ s * 2 ^ j * (b * 2 ^ g) := by
      apply Nat.le_of_mul_le_mul_right (c := 2 ^ k) _ (Nat.two_pow_pos k)
      calc a * 2 ^ p * 2 ^ k ≤ s * 2 ^ (k + j) * b * 2 ^ g := hle
        _ = s * 2 ^ j * (b * 2 ^ g) * 2 ^ k := by
          rw [Nat.add_comm k, Nat.pow_add, ← Nat.mul_assoc, Nat.mul_assoc,
            Nat.mul_right_comm _ (2 ^ k)]
    have hrounded := roundHalfEven_le hden hmultiple
    rcases Nat.eq_zero_or_pos j with rfl | hj
    · rw [Nat.pow_zero, Nat.mul_one] at hrounded
      omega
    · have hfull := roundHalfEven_le hden hupper.le
      omega

/-- The grid of a ratio is at most 53 digits finer than its leading digit, and if it is not the
finest grid of all, exactly 53. -/
lemma ratio_bounds_of_grid {a b p g : Nat} (ha : a ≠ 0) (hb : b ≠ 0) {grid : Int}
    (hgrid : p + grid = g) :
    (leadingExponent a b - 52 ≤ grid → a * 2 ^ p < 2 ^ 53 * (b * 2 ^ g)) ∧
      (leadingExponent a b - 52 = grid → 2 ^ 52 * (b * 2 ^ g) ≤ a * 2 ^ p) := by
  have hshift : ∀ n, 2 ^ n * (b * 2 ^ g) = b * 2 ^ (g + n) := by
    intro n
    rw [Nat.pow_add, ← Nat.mul_assoc b, Nat.mul_comm (2 ^ n)]
  rw [hshift, hshift]
  constructor
  · intro hle
    obtain ⟨t, ht⟩ : ∃ t : Nat, (p + t : Nat) + leadingExponent a b + 1 = (g + 53 : Nat) :=
      ⟨(g + 53 - p - (leadingExponent a b + 1)).toNat, by omega⟩
    calc a * 2 ^ p ≤ a * 2 ^ (p + t) :=
          Nat.mul_le_mul_left a (Nat.pow_le_pow_right (by decide) (Nat.le_add_right p t))
      _ < b * 2 ^ (g + 53) := (leadingExponent_spec ha hb).2 ht
  · intro heq
    exact (leadingExponent_spec ha hb).1 (by omega)

/-- A positive ratio is rounded on a grid `2 ^ (k - 1074)`, where it has at most 53 digits, and
exactly 53 unless the grid is the finest. -/
lemma exists_grid (negative : Bool) {a b : Nat} (ha : a ≠ 0) (hb : b ≠ 0) :
    ∃ p g k, p + k = g + 1074 ∧ a * 2 ^ p < 2 ^ 53 * (b * 2 ^ g) ∧
      (k = 0 ∨ 2 ^ 52 * (b * 2 ^ g) ≤ a * 2 ^ p) ∧
      ofRatio negative a b = ofMagnitude negative
        (min (k * 2 ^ 52 + roundHalfEven (a * 2 ^ p) (b * 2 ^ g)) infinityMagnitude) := by
  obtain ⟨grid, hgrid⟩ : ∃ grid, grid = max (leadingExponent a b - 52) (-1074) := ⟨_, rfl⟩
  obtain ⟨p, hp⟩ : ∃ p, p = (-grid).toNat := ⟨_, rfl⟩
  obtain ⟨g, hg⟩ : ∃ g, g = grid.toNat := ⟨_, rfl⟩
  obtain ⟨k, hk⟩ : ∃ k, k = (grid + 1074).toNat := ⟨_, rfl⟩
  obtain ⟨hupper, hlower⟩ := @ratio_bounds_of_grid a b p g ha hb grid (by omega)
  refine ⟨p, g, k, by omega, hupper (by omega), ?_, ?_⟩
  · rcases Nat.eq_zero_or_pos k with hzero | hpos
    · exact .inl hzero
    · exact .inr (hlower (by omega))
  · unfold ofRatio
    rw [if_neg (not_or.2 ⟨ha, hb⟩)]
    dsimp only [natPow_eq]
    rw [← hgrid, ← hp, ← hg, ← hk]

/-- A ratio that is at most the size at a magnitude is rounded to at most that magnitude. -/
theorem magnitude_ofRatio_le (negative : Bool) {a b m : Nat}
    (h : a * unitsPerOne ≤ sizeAt m * b) : (ofRatio negative a b).magnitude ≤ m := by
  by_cases hzero : a = 0 ∨ b = 0
  · unfold ofRatio
    rw [if_pos hzero]
    exact (magnitude_ofMagnitude negative (by decide)).trans_le (Nat.zero_le m)
  obtain ⟨ha, hb⟩ := not_or.1 hzero
  obtain ⟨d, hd⟩ : ∃ d, d = 1074 := ⟨_, rfl⟩
  obtain ⟨p, g, k, hgrid, hupper, hlower, hrounded⟩ := exists_grid negative ha hb
  rw [unitsPerOne_eq hd] at h
  have hle : k * 2 ^ 52 + roundHalfEven (a * 2 ^ p) (b * 2 ^ g) ≤ m :=
    grid_magnitude_le (Nat.pos_of_ne_zero hb) (hd ▸ hgrid) hupper hlower h
  have hinfinity : infinityMagnitude < 2 ^ 63 := by decide
  rw [hrounded, magnitude_ofMagnitude negative ((Nat.min_le_right _ _).trans_lt hinfinity)]
  exact (Nat.min_le_left _ _).trans hle

/-! ## Finite results -/

/-- A rounded ratio is a number, perhaps infinite. -/
lemma isNaN_ofRatio (negative : Bool) (a b : Nat) : (ofRatio negative a b).isNaN = false := by
  have hle : (ofRatio negative a b).magnitude ≤ infinityMagnitude := by
    unfold ofRatio
    split
    · exact (magnitude_ofMagnitude negative (by decide)).trans_le (Nat.zero_le _)
    · have hinfinity : infinityMagnitude < 2 ^ 63 := by decide
      dsimp only
      rw [magnitude_ofMagnitude negative ((Nat.min_le_right _ _).trans_lt hinfinity)]
      exact Nat.min_le_right _ _
  exact decide_eq_false (Nat.not_lt.2 hle)

/-- A ratio that is at most a finite number is rounded to a finite number. -/
lemma isFinite_ofRatio (negative : Bool) {a b : Nat} {x : Binary64} (hx : x.isFinite = true)
    (h : a * unitsPerOne ≤ x.unitSize * b) : (ofRatio negative a b).isFinite = true := by
  have hle : (ofRatio negative a b).magnitude ≤ x.magnitude := magnitude_ofRatio_le negative h
  simp only [isFinite, decide_eq_true_eq] at hx ⊢
  exact hle.trans_lt hx

/-- The quotient of a finite number and a finite number that is at least one is finite. -/
theorem isFinite_div {x y : Binary64} (hx : x.isFinite = true) (hy : y.isFinite = true)
    (hone : unitsPerOne ≤ y.unitSize) : (x.div y).isFinite = true := by
  have hnonzero : y.isZero = false := by
    rw [isZero, beq_eq_false_iff_ne]
    intro hzero
    have hsize := unitSize_of_magnitude_eq_zero hzero
    have hpos := unitsPerOne_pos
    omega
  have hdiv : x.div y = ofRatio (x.isNegative != y.isNegative) x.unitSize y.unitSize := by
    unfold div
    simp only [isNaN_eq_false_of_isFinite hx, isNaN_eq_false_of_isFinite hy,
      isInfinite_eq_false_of_isFinite hx, isInfinite_eq_false_of_isFinite hy, hnonzero,
      Bool.false_eq_true, if_false]
  rw [hdiv]
  exact isFinite_ofRatio _ hx (Nat.mul_le_mul_left _ hone)

/-- The product of two finite numbers is finite if it is not infinite. -/
theorem isFinite_mul {x y : Binary64} (hx : x.isFinite = true) (hy : y.isFinite = true)
    (h : (x.mul y).isInfinite = false) : (x.mul y).isFinite = true := by
  have hmul : x.mul y = ofRatio (x.isNegative != y.isNegative) (x.unitSize * y.unitSize)
      (unitsPerOne * unitsPerOne) := by
    unfold mul
    simp only [isNaN_eq_false_of_isFinite hx, isNaN_eq_false_of_isFinite hy,
      isInfinite_eq_false_of_isFinite hx, isInfinite_eq_false_of_isFinite hy, Bool.or_false,
      Bool.false_eq_true, if_false]
  have hnan : (x.mul y).isNaN = false := by
    rw [hmul]
    exact isNaN_ofRatio _ _ _
  simp only [isFinite, isNaN, isInfinite, decide_eq_true_eq, decide_eq_false_iff_not,
    beq_eq_false_iff_ne] at h hnan ⊢
  omega

/-- The number of the other sign is finite as well. -/
lemma isFinite_neg {x : Binary64} (hx : x.isFinite = true) : x.neg.isFinite = true := by
  simp only [isFinite, decide_eq_true_eq] at hx ⊢
  have hinfinity : infinityMagnitude < 2 ^ 63 := by decide
  unfold neg
  rwa [magnitude_ofMagnitude _ (hx.trans hinfinity)]

/-- The size of a number that is at least one. -/
lemma unitsPerOne_le_unitSize {x : Binary64} (h : 1023 * 2 ^ 52 ≤ x.magnitude) :
    unitsPerOne ≤ x.unitSize := by
  obtain ⟨d, hd⟩ : ∃ d, d = 1074 := ⟨_, rfl⟩
  obtain ⟨e, he⟩ : ∃ e, e = 1022 := ⟨_, rfl⟩
  have hone : 1023 * 2 ^ 52 = e * 2 ^ 52 + 2 ^ 52 := by omega
  have hexp : d = 52 + e := by omega
  calc unitsPerOne = 2 ^ 52 * 2 ^ e := by rw [unitsPerOne_eq hd, hexp, Nat.pow_add]
    _ = sizeAt (e * 2 ^ 52 + 2 ^ 52) := (sizeAt_normal (by decide) (by decide)).symm
    _ ≤ x.unitSize := by
      rw [unitSize_eq_sizeAt, ← hone]
      exact sizeAt_strictMono.monotone h

end RelationalAlgebra.Binary64
