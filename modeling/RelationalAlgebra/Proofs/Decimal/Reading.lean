import RelationalAlgebra.Decimal.Numeral
import RelationalAlgebra.Proofs.Binary64.Bounds

/-!
# Numerals are read as finite numbers

The digits that are collected fit into 64 bits, so they make a finite number.  A product with a
power of ten is checked, and a quotient by a power of ten, which is at least one, stays finite
(`isFinite_of_toBinary64?`).
-/

namespace RelationalAlgebra.Decimal

open Binary64

/-! ## Collected digits -/

/-- The number that digits are collected into fits into 64 bits. -/
lemma collect_lt {n : Nat} (hn : n < 2 ^ 64) (ds : List Digit) : (collect n ds).1 < 2 ^ 64 := by
  induction ds generalizing n with
  | nil => exact hn
  | cons d ds ih =>
    rw [collect]
    split
    · next hfits => exact ih hfits
    · exact hn

/-- An integer of 64 bits is rounded to a finite number. -/
lemma isFinite_ofInt {n : Nat} (hn : n < 2 ^ 64) : (Binary64.ofInt n).isFinite = true := by
  obtain ⟨d, hd⟩ : ∃ d, d = 1074 := ⟨_, rfl⟩
  have hsize : n * unitsPerOne ≤ sizeAt ((d + 12) * 2 ^ 52 + 2 ^ 52) * 1 := by
    have hpow : 2 ^ 52 * 2 ^ (d + 12) = 2 ^ 64 * 2 ^ d := by
      rw [Nat.add_comm, ← Nat.pow_add, ← Nat.pow_add, ← Nat.add_assoc]
    rw [sizeAt_normal (by decide) (by decide), hpow, Nat.mul_one, unitsPerOne_eq hd]
    exact Nat.mul_le_mul_right _ hn.le
  have hle : (Binary64.ofInt n).magnitude ≤ (d + 12) * 2 ^ 52 + 2 ^ 52 :=
    magnitude_ofRatio_le _ hsize
  rw [isFinite, decide_eq_true_eq, infinityMagnitude, natPow_eq]
  omega

/-! ## Powers of ten -/

/-- Every power of ten that is used is a finite number, and at least one. -/
lemma powerOfTen_bounds : ∀ e < greatestPower + 1,
    1023 * 2 ^ 52 ≤ (powerOfTen e).magnitude ∧ (powerOfTen e).isFinite = true := by
  decide +kernel

/-- A finite number divided by a power of ten that is used is finite. -/
lemma isFinite_div_powerOfTen {x : Binary64} (hx : x.isFinite = true) {e : Nat}
    (he : e ≤ greatestPower) : (x.div (powerOfTen e)).isFinite = true := by
  obtain ⟨hone, hfinite⟩ := powerOfTen_bounds e (Nat.lt_succ_of_le he)
  exact isFinite_div hx hfinite (unitsPerOne_le_unitSize hone)

/-- A finite number divided by any power of ten is finite. -/
lemma isFinite_divideByPower {x : Binary64} (hx : x.isFinite = true) (steps e : Nat) :
    (divideByPower steps x e).isFinite = true := by
  induction steps generalizing x e with
  | zero => exact hx
  | succ steps ih =>
    rw [divideByPower]
    split
    · next he => exact isFinite_div_powerOfTen hx he
    · split
      · exact hx
      · exact ih (isFinite_div_powerOfTen hx (Nat.le_refl _)) _

/-- A finite number multiplied by a power of ten is finite, if there is a product. -/
lemma isFinite_of_multiplyByPower {x y : Binary64} (hx : x.isFinite = true) {e : Nat}
    (h : multiplyByPower x e = some y) : y.isFinite = true := by
  unfold multiplyByPower at h
  split at h
  · exact Option.some.inj h ▸ hx
  · split at h
    · cases h
    · next he =>
      dsimp only at h
      split at h
      · cases h
      · next hproduct =>
        obtain ⟨-, hpower⟩ := powerOfTen_bounds e (Nat.lt_succ_of_le (Nat.not_lt.1 he))
        obtain rfl := Option.some.inj h
        exact isFinite_mul hx hpower (eq_false_of_ne_true hproduct)

/-- A number that is read from a numeral is finite. -/
theorem isFinite_of_toBinary64? {n : Numeral} {x : Binary64} (h : n.toBinary64? = some x) :
    x.isFinite = true := by
  unfold Numeral.toBinary64? at h
  dsimp only at h
  obtain ⟨size, hsize, rfl⟩ := Option.map_eq_some_iff.1 h
  have hstart := isFinite_ofInt
    (collect_lt (collect_lt (Nat.two_pow_pos 64) n.whole) n.fraction)
  have hfinite : size.isFinite = true := by
    split at hsize
    · exact isFinite_of_multiplyByPower hstart hsize
    · exact Option.some.inj hsize ▸ isFinite_divideByPower hstart _ _
  split
  · exact isFinite_neg hfinite
  · exact hfinite

end RelationalAlgebra.Decimal
