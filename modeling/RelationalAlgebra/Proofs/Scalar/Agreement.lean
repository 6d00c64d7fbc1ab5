import RelationalAlgebra.Lookup
import RelationalAlgebra.Proofs.Binary64.Rounding
import RelationalAlgebra.Proofs.Scalar.Order

/-!
# The equality of conditions against the equality of sets

A condition tests two values for equality by `exact`, and a set of tuples by the order of
scalars.  The two tests differ: `exact` rounds an integer to a binary64 number before it compares
it with one, and finds no not-a-number equal to anything, while the order compares exactly and
finds a not-a-number equal to itself.

`Scalar.Discordant` says of which pairs of scalars this is, and the main statement is that it is
of no others: on every pair that is not discordant `exact` is the equality of the order, so that
exactly one of `lt`, `exact` and `gt` holds where values can be ordered at all.  On every
discordant pair both fail.
-/

namespace RelationalAlgebra

namespace Binary64

/-! ## Agreement is equality of places between numbers -/

/-- Two numbers agree if both are numbers and stand at one place. -/
lemma agrees_iff (x y : Binary64) :
    x.agrees y = true ↔ x.isNaN = false ∧ y.isNaN = false ∧ x.place = y.place := by
  unfold agrees
  rw [compare_eq_compare_place]
  simp only [Bool.and_eq_true, Bool.not_eq_true', beq_iff_eq, Int.compare_eq_eq, and_assoc]

/-- Agreement does not depend on the order of the numbers. -/
lemma agrees_comm (x y : Binary64) : x.agrees y = y.agrees x := by
  rw [Bool.eq_iff_iff, agrees_iff, agrees_iff]
  constructor
  · rintro ⟨hx, hy, h⟩
    exact ⟨hy, hx, h.symm⟩
  · rintro ⟨hy, hx, h⟩
    exact ⟨hx, hy, h.symm⟩

/-- A number is given by its sign and its magnitude. -/
lemma eq_of_isNegative_of_magnitude {x y : Binary64} (hs : x.isNegative = y.isNegative)
    (hm : x.magnitude = y.magnitude) : x = y := by
  have hx := x.bits.toNat_lt
  have hy := y.bits.toNat_lt
  have hbits : x.bits.toNat = y.bits.toNat := by
    have hside : 2 ^ 63 ≤ x.bits.toNat ↔ 2 ^ 63 ≤ y.bits.toNat := decide_eq_decide.1 hs
    rw [magnitude, magnitude, natPow_eq] at hm
    omega
  cases x
  cases y
  exact congrArg Binary64.mk (UInt64.toNat_inj.1 hbits)

/-- No other bits stand at the place of a not-a-number. -/
lemma eq_of_place_eq_of_isNaN {x y : Binary64} (hx : x.isNaN = true)
    (h : x.place = y.place) : x = y := by
  rw [place_eq_signed, place_eq_signed] at h
  have hm : x.magnitude = y.magnitude := by
    have hdistance := congrArg Int.natAbs h
    rw [natAbs_signed, natAbs_signed] at hdistance
    exact distanceAt_strictMono.injective hdistance
  have hpos : 0 < distanceAt x.magnitude := by
    rw [← distanceAt_zero]
    apply distanceAt_strictMono
    simp only [isNaN, decide_eq_true_eq] at hx
    omega
  refine eq_of_isNegative_of_magnitude ?_ hm
  rw [← hm] at h
  cases hsx : x.isNegative <;> cases hsy : y.isNegative <;>
    simp only [hsx, hsy, signed, Bool.false_eq_true, if_true, if_false] at h ⊢ <;> omega

/-- What stands at the place of a 64-bit integer is a number. -/
lemma isNaN_eq_false_of_place_eq {x : Binary64} {n : Int64} (h : x.place = placeOfInt n.toInt) :
    x.isNaN = false := by
  by_contra hnan
  rw [Bool.not_eq_false] at hnan
  obtain ⟨hlow, hhigh⟩ := placeOfInt_toInt_bounds n
  have hbeyond := place_beyond_range (isFinite_eq_false_of_isNaN hnan)
  split at hbeyond <;> omega

/-- The size of a 64-bit integer. -/
lemma natAbs_toInt_le (n : Int64) : n.toInt.natAbs ≤ 2 ^ 63 := by
  have hlow : -(2 ^ 63) ≤ n.toInt := n.le_toInt
  have hhigh : n.toInt < 2 ^ 63 := n.toInt_lt
  omega

/-- A representable integer agrees, once rounded, with the numbers at its own place. -/
lemma ofInt_agrees_iff {n : Int64} (hn : IsRepresentable n.toInt) (x : Binary64) :
    (ofInt n.toInt).agrees x = true ↔ compareInt n x = .eq := by
  have hplace := (place_ofInt_iff (natAbs_toInt_le n)).2 hn
  rw [agrees_iff, compareInt_eq_compare_place, Int.compare_eq_eq, hplace]
  constructor
  · exact fun h => h.2.2
  · exact fun h =>
      ⟨isNaN_eq_false_of_place_eq hplace, isNaN_eq_false_of_place_eq h.symm, h⟩

/-- Nothing stands at the place of an integer that is not representable. -/
lemma compareInt_ne_eq {n : Int64} (hn : ¬ IsRepresentable n.toInt) (x : Binary64) :
    compareInt n x ≠ .eq := by
  rw [compareInt_eq_compare_place, Ne, Int.compare_eq_eq]
  exact fun h => hn ⟨x, h.symm⟩

end Binary64

/-! ## Discordant pairs -/

namespace Scalar

/-- The pairs of scalars that one of the two equalities holds of and the other does not: a
not-a-number and itself, and an integer that is no binary64 number and the number that it is
rounded to. -/
def Discordant : Scalar → Scalar → Prop
  | .float x, .float y => x.isNaN = true ∧ x = y
  | .int n, .float x =>
    ¬ Binary64.IsRepresentable n.toInt ∧ (Binary64.ofInt n.toInt).agrees x = true
  | .float x, .int n =>
    ¬ Binary64.IsRepresentable n.toInt ∧ (Binary64.ofInt n.toInt).agrees x = true
  | _, _ => False

/-- Whether an integer is discordant with a number: one of the two equalities fails on them. -/
lemma agrees_iff_compareInt (n : Int64) (x : Binary64) :
    ((Binary64.ofInt n.toInt).agrees x = true ↔ Binary64.compareInt n x = .eq) ↔
      ¬ (¬ Binary64.IsRepresentable n.toInt ∧ (Binary64.ofInt n.toInt).agrees x = true) := by
  by_cases hn : Binary64.IsRepresentable n.toInt
  · simp only [hn, not_true_eq_false, false_and, not_false_eq_true, iff_true]
    exact Binary64.ofInt_agrees_iff hn x
  · have hne := Binary64.compareInt_ne_eq hn x
    simp only [hn, hne, iff_false, not_false_eq_true, true_and]

/-- Whether a number is discordant with another one: both are one not-a-number. -/
lemma agrees_iff_compare_float (x y : Binary64) :
    (x.agrees y = true ↔ x.compare y = .eq) ↔ ¬ (x.isNaN = true ∧ x = y) := by
  rw [Binary64.agrees_iff, Binary64.compare_eq_compare_place, Int.compare_eq_eq]
  constructor
  · rintro h ⟨hnan, rfl⟩
    exact Bool.false_ne_true ((h.2 rfl).1.symm.trans hnan)
  · intro h
    have hleft : x.place = y.place → x.isNaN = false := by
      intro hplace
      by_contra hnan
      have htrue : x.isNaN = true := by simpa using hnan
      exact h ⟨htrue, Binary64.eq_of_place_eq_of_isNaN htrue hplace⟩
    have hright : x.place = y.place → y.isNaN = false := by
      intro hplace
      by_contra hnan
      have htrue : y.isNaN = true := by simpa using hnan
      have hsame := Binary64.eq_of_place_eq_of_isNaN htrue hplace.symm
      exact h ⟨hsame ▸ htrue, hsame.symm⟩
    exact ⟨fun hagrees => hagrees.2.2, fun hplace => ⟨hleft hplace, hright hplace, hplace⟩⟩

/-- The two equalities are one on a pair of scalars exactly if the pair is not discordant. -/
lemma agrees_iff_compare (a b : Scalar) :
    (a.agrees b = true ↔ a.compare b = .eq) ↔ ¬ a.Discordant b := by
  cases a <;> cases b
  case int.float n x => exact agrees_iff_compareInt n x
  case float.int x n =>
    have hswap : (Binary64.compareInt n x).swap = .eq ↔ Binary64.compareInt n x = .eq :=
      Ordering.swap_eq_eq
    change (x.agrees (Binary64.ofInt n.toInt) = true ↔
      (Binary64.compareInt n x).swap = .eq) ↔ _
    rw [Binary64.agrees_comm, hswap]
    exact agrees_iff_compareInt n x
  case float.float x y => exact agrees_iff_compare_float x y
  case int.int m n =>
    simp only [agrees, compare, Discordant, beq_iff_eq, Std.LawfulEqOrd.compare_eq_iff_eq,
      not_false_eq_true]
  all_goals simp only [agrees, equal, Discordant, beq_iff_eq, not_false_eq_true]

/-- Values agree in either order. -/
lemma agrees_comm (a b : Scalar) : a.agrees b = b.agrees a := by
  have hequal : a.equal b = b.equal a := by
    rw [Bool.eq_iff_iff, equal, equal, beq_iff_eq, beq_iff_eq]
    exact ⟨Std.OrientedCmp.eq_symm, Std.OrientedCmp.eq_symm⟩
  cases a <;> cases b
  case int.int m n => exact Bool.beq_comm
  case int.float n x => exact Binary64.agrees_comm _ x
  case float.int x n => exact Binary64.agrees_comm x _
  case float.float x y => exact Binary64.agrees_comm x y
  all_goals exact hequal

/-- No integer up to `2 ^ 53` in size is discordant with any number. -/
theorem not_discordant_of_natAbs_le {n : Int64} (h : n.toInt.natAbs ≤ 2 ^ 53) (x : Binary64) :
    ¬ (Scalar.int n).Discordant (.float x) :=
  fun hd => hd.1 (Binary64.isRepresentable_of_natAbs_le h)

end Scalar

/-! ## The three tests of a condition -/

namespace Lookup

/-- The lookup `exact` never fails. -/
lemma exact_apply (a b : Scalar) : exact.apply a b = .ok (a.agrees b) := rfl

/-- Where a condition can order two values, `lt` and `gt` say how they are ordered. -/
lemma lt_gt_apply {operation : String} {a b : Scalar} {order : Ordering}
    (h : a.compareWithin operation b = .ok order) :
    a.compare b = order ∧ lt.apply a b = .ok order.isLT ∧ gt.apply a b = .ok order.isGT := by
  unfold Scalar.compareWithin at h
  by_cases hkinds : a.kind.comparable b.kind = true
  · rw [if_pos hkinds] at h
    have horder : a.compare b = order := Except.ok.inj h
    refine ⟨horder, ?_, ?_⟩ <;>
      simp only [apply, onOrder, Scalar.compareWithin, hkinds, if_true, horder] <;> rfl
  · rw [if_neg hkinds] at h
    cases h

/-- Of the tests for less, equal and greater exactly one holds if the middle one is right. -/
lemma count_tests (order : Ordering) (same : Bool) :
    [order.isLT, same, order.isGT].count true = 1 ↔ (same = true ↔ order = .eq) := by
  cases order <;> cases same <;> decide

/-- The lookup `exact` is the equality of sets of tuples exactly on the pairs that are not
discordant.  On these, exactly one of `lt`, `exact` and `gt` holds where they do not fail, and
values that are equal in a set cannot be told apart. -/
theorem exact_iff_compare_eq (a b : Scalar) :
    ((exact.apply a b = .ok true ↔ a.compare b = .eq) ↔ ¬ a.Discordant b) ∧
      (∀ operation order, a.compareWithin operation b = .ok order →
        ∃ below same above, lt.apply a b = .ok below ∧ exact.apply a b = .ok same ∧
          gt.apply a b = .ok above ∧
            ([below, same, above].count true = 1 ↔ ¬ a.Discordant b)) ∧
      (a.compare b = .eq → ∀ c, ¬ a.Discordant c → ¬ b.Discordant c →
        exact.apply a c = exact.apply b c) := by
  refine ⟨?_, ?_, ?_⟩
  · rw [exact_apply, Except.ok.injEq]
    exact Scalar.agrees_iff_compare a b
  · intro operation order h
    obtain ⟨horder, hlt, hgt⟩ := lt_gt_apply h
    refine ⟨_, _, _, hlt, exact_apply a b, hgt, ?_⟩
    rw [count_tests, ← horder]
    exact Scalar.agrees_iff_compare a b
  · intro heq c ha hb
    have hac := (Scalar.agrees_iff_compare a c).2 ha
    have hbc := (Scalar.agrees_iff_compare b c).2 hb
    have hsame : a.compare c = b.compare c := Std.TransCmp.congr_left heq
    rw [exact_apply, exact_apply, Except.ok.injEq, Bool.eq_iff_iff, hac, hbc, hsame]

/-- An integer and the number it is rounded to are `exact`ly equal and yet ordered, and a
not-a-number is equal to itself in a set and not `exact`ly. -/
theorem exact_ne_compare_eq_at_two_pow_53_add_one :
    let n : Scalar := .int 9007199254740993
    let x : Scalar := .float ⟨0x4340000000000000⟩
    let y : Scalar := .float Binary64.nan
    (exact.apply n x = .ok true ∧ n.compare x = .gt ∧ gt.apply n x = .ok true) ∧
      (exact.apply y y = .ok false ∧ y.compare y = .eq ∧ lt.apply y y = .ok false ∧
        gt.apply y y = .ok false) := by
  decide +kernel

end Lookup

end RelationalAlgebra
