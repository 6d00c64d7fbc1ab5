import Mathlib.Algebra.Order.BigOperators.Group.List
import Mathlib.Algebra.Ring.Int.Defs
import Mathlib.Algebra.Ring.Nat
import Mathlib.Data.List.Induction
import Mathlib.Data.List.Infix
import RelationalAlgebra.Aggregate.Basic

/-!
# Sums of integers

A sum is taken from the first value to the last.  As long as the running totals of integers fit
into 64 bits the sum is exact; at the first one that does not it becomes a floating-point number,
and it stays one even if the whole total would fit.  So the sum of integers is their exact total if
all running totals fit, and a floating-point number otherwise, and only orders with running totals
that fit are sure to have one sum.

No order leaves the range if neither the negative nor the positive values do by themselves, since
every running total lies between these two.
-/

namespace RelationalAlgebra

namespace Scalar

/-- An integer that fits into 64 bits. -/
def InRange (n : Int) : Prop :=
  Int64.minValue.toInt ≤ n ∧ n ≤ Int64.maxValue.toInt

instance (n : Int) : Decidable (InRange n) :=
  inferInstanceAs (Decidable (_ ∧ _))

/-- The total of integers, however large. -/
def exactTotal (values : List Int64) : Int :=
  (values.map Int64.toInt).sum

/-- All running totals fit into 64 bits. -/
def RunsInRange (values : List Int64) : Prop :=
  ∀ start, start <+: values → InRange (exactTotal start)

instance (values : List Int64) : Decidable (RunsInRange values) :=
  decidable_of_iff (∀ start ∈ values.inits, InRange (exactTotal start)) <| by
    simp only [List.mem_inits, RunsInRange]

/-- Adding integers to a floating-point number, one after the other. -/
def addAll (x : Binary64) (values : List Int64) : Binary64 :=
  values.foldl (fun x n => x.add (Binary64.ofInt n.toInt)) x

/-! ## Totals -/

/-- The first value adds to the total of the others. -/
lemma exactTotal_cons (n : Int64) (values : List Int64) :
    exactTotal (n :: values) = n.toInt + exactTotal values := rfl

/-- The last value adds to the total of the others. -/
lemma exactTotal_concat (values : List Int64) (n : Int64) :
    exactTotal (values ++ [n]) = exactTotal values + n.toInt := by
  rw [exactTotal, List.map_append, List.sum_append, List.map_singleton, List.sum_singleton,
    exactTotal]

/-- The total does not depend on the order. -/
lemma exactTotal_perm {values other : List Int64} (h : other.Perm values) :
    exactTotal other = exactTotal values :=
  (h.map Int64.toInt).sum_eq

/-- The start of values whose running totals fit has running totals that fit. -/
lemma RunsInRange.of_start {values start : List Int64} (h : RunsInRange values)
    (hstart : start <+: values) : RunsInRange start :=
  fun _ hinit => h _ (hinit.trans hstart)

/-- One more value keeps the running totals in range if the whole total is. -/
lemma RunsInRange.concat {values : List Int64} {n : Int64} (h : RunsInRange values)
    (htotal : InRange (exactTotal (values ++ [n]))) : RunsInRange (values ++ [n]) := by
  intro start hstart
  rcases List.prefix_concat_iff.1 hstart with rfl | hinit
  · exact htotal
  · exact h start hinit

/-- If not all running totals fit, there is a first one that does not. -/
lemma exists_first_overflow {values : List Int64} (h : ¬ RunsInRange values) :
    ∃ start n rest, values = start ++ n :: rest ∧ RunsInRange start ∧
      ¬ InRange (exactTotal (start ++ [n])) := by
  induction values using List.reverseRecOn with
  | nil =>
    refine absurd (fun start hstart => ?_) h
    rw [List.prefix_nil.1 hstart]
    decide
  | append_singleton values n ih =>
    by_cases hvalues : RunsInRange values
    · refine ⟨values, n, [], rfl, hvalues, fun htotal => ?_⟩
      exact h (hvalues.concat htotal)
    · obtain ⟨start, m, rest, rfl, hstart, hm⟩ := ih hvalues
      refine ⟨start, m, rest ++ [n], ?_, hstart, hm⟩
      rw [List.append_assoc, List.cons_append]

/-! ## Sums -/

/-- An integer is a scalar exactly if it is in range. -/
lemma ofInt?_eq (n : Int) : ofInt? n = if InRange n then some (.int (Int64.ofInt n)) else none :=
  rfl

/-- Integers whose sum fits into 64 bits are added exactly. -/
lemma plus_int_of_inRange (operation : String) {a b : Int64}
    (h : InRange (a.toInt + b.toInt)) :
    plus operation (.int a) (.int b) = .ok (.int (Int64.ofInt (a.toInt + b.toInt))) := by
  rw [plus, ofInt?_eq, if_pos h, Option.getD_some]

/-- Integers whose sum does not fit into 64 bits are added as floating-point numbers. -/
lemma plus_int_of_not_inRange (operation : String) {a b : Int64}
    (h : ¬ InRange (a.toInt + b.toInt)) :
    plus operation (.int a) (.int b) =
      .ok (.float ((Binary64.ofInt a.toInt).add (Binary64.ofInt b.toInt))) := by
  rw [plus, ofInt?_eq, if_neg h, Option.getD_none]

/-- An integer in range is the value of the 64-bit integer made from it. -/
lemma toInt_ofInt_of_inRange {n : Int} (h : InRange n) : (Int64.ofInt n).toInt = n :=
  Int64.toInt_ofInt_of_le h.1 (Int.lt_add_one_iff.2 h.2)

/-- Values are summed in parts, one after the other. -/
lemma total_append (operation : String) (values rest : List Scalar) :
    total operation (values ++ rest) =
      total operation values >>= fun sum => rest.foldlM (plus operation) sum :=
  List.foldlM_append

/-- Integers are summed exactly as long as the running totals fit. -/
lemma total_of_runsInRange (operation : String) {values : List Int64} (h : RunsInRange values) :
    total operation (values.map .int) = .ok (.int (Int64.ofInt (exactTotal values))) := by
  induction values using List.reverseRecOn with
  | nil => rfl
  | append_singleton values n ih =>
    have hstart : RunsInRange values := h.of_start (List.prefix_append _ _)
    have hvalues : (Int64.ofInt (exactTotal values)).toInt = exactTotal values :=
      toInt_ofInt_of_inRange (hstart values List.prefix_rfl)
    have hsum : InRange ((Int64.ofInt (exactTotal values)).toInt + n.toInt) := by
      rw [hvalues, ← exactTotal_concat]
      exact h _ List.prefix_rfl
    rw [List.map_append, total_append, ih hstart]
    change (plus operation (.int (Int64.ofInt (exactTotal values))) (.int n) >>= pure) = _
    rw [plus_int_of_inRange operation hsum, hvalues, ← exactTotal_concat]
    rfl

/-- Integers that are added to a floating-point number give one. -/
lemma foldlM_plus_float (operation : String) (x : Binary64) (values : List Int64) :
    (values.map .int).foldlM (plus operation) (.float x) = .ok (.float (addAll x values)) := by
  induction values generalizing x with
  | nil => rfl
  | cons n values ih =>
    rw [List.map_cons, List.foldlM_cons]
    exact ih (x.add (Binary64.ofInt n.toInt))

/-- From the first running total on that does not fit, a sum is a floating-point number. -/
lemma total_of_overflow (operation : String) {start : List Int64} {n : Int64}
    (hstart : RunsInRange start) (hn : ¬ InRange (exactTotal (start ++ [n]))) (rest : List Int64) :
    total operation ((start ++ n :: rest).map .int) =
      .ok (.float (addAll
        ((Binary64.ofInt (exactTotal start)).add (Binary64.ofInt n.toInt)) rest)) := by
  have hvalue : (Int64.ofInt (exactTotal start)).toInt = exactTotal start :=
    toInt_ofInt_of_inRange (hstart start List.prefix_rfl)
  have hsum : ¬ InRange ((Int64.ofInt (exactTotal start)).toInt + n.toInt) := by
    rwa [hvalue, ← exactTotal_concat]
  rw [List.map_append, total_append, total_of_runsInRange operation hstart, List.map_cons]
  change ((rest.map .int).foldlM (plus operation) =<<
    plus operation (.int (Int64.ofInt (exactTotal start))) (.int n)) = _
  rw [plus_int_of_not_inRange operation hsum, hvalue]
  exact foldlM_plus_float operation _ rest

/-! ## Orders without an overflow -/

/-- The total of the negative values. -/
def negativeTotal (values : List Int64) : Int :=
  (values.map fun n => min n.toInt 0).sum

/-- The total of the positive values. -/
def positiveTotal (values : List Int64) : Int :=
  (values.map fun n => max n.toInt 0).sum

/-- Every running total lies between the total of all negative and that of all positive values. -/
lemma exactTotal_bounds {start values : List Int64} (h : start <+: values) :
    negativeTotal values ≤ exactTotal start ∧ exactTotal start ≤ positiveTotal values := by
  obtain ⟨rest, rfl⟩ := h
  have hzeros : (rest.map fun _ => (0 : Int)).sum = 0 := by simp
  have hnegative : (rest.map fun n => min n.toInt 0).sum ≤ (rest.map fun _ => (0 : Int)).sum :=
    List.sum_le_sum fun n _ => min_le_right _ _
  have hpositive : (rest.map fun _ => (0 : Int)).sum ≤ (rest.map fun n => max n.toInt 0).sum :=
    List.sum_le_sum fun n _ => le_max_right _ _
  have hlow : (start.map fun n => min n.toInt 0).sum ≤ exactTotal start :=
    List.sum_le_sum fun n _ => min_le_left _ _
  have hhigh : exactTotal start ≤ (start.map fun n => max n.toInt 0).sum :=
    List.sum_le_sum fun n _ => le_max_left _ _
  rw [negativeTotal, positiveTotal, List.map_append, List.map_append, List.sum_append,
    List.sum_append]
  omega

/-- If the negative and the positive values fit by themselves, all running totals fit in every
order. -/
lemma runsInRange_of_perm {values other : List Int64} (hnegative : InRange (negativeTotal values))
    (hpositive : InRange (positiveTotal values)) (hperm : other.Perm values) :
    RunsInRange other := by
  intro start hstart
  obtain ⟨hlow, hhigh⟩ := exactTotal_bounds hstart
  have hneg : negativeTotal other = negativeTotal values := (hperm.map _).sum_eq
  have hpos : positiveTotal other = positiveTotal values := (hperm.map _).sum_eq
  rw [hneg] at hlow
  rw [hpos] at hhigh
  exact ⟨hnegative.1.trans hlow, hhigh.trans hpositive.2⟩

/-! ## Sizes -/

/-- Sizes are added exactly as long as their sum fits. -/
lemma exactTotal_sizes {sizes : List Nat} (h : sizes.sum < 2 ^ 63) :
    exactTotal (sizes.map fun n : Nat => Int64.ofInt n) = sizes.sum := by
  induction sizes with
  | nil => rfl
  | cons n sizes ih =>
    rw [List.sum_cons] at h
    have hn : (Int64.ofInt n).toInt = n := Int64.toInt_ofInt_of_le (by omega) (by omega)
    rw [List.map_cons, exactTotal_cons, hn, ih (by omega), List.sum_cons, Int.natCast_add]

/-- The running totals of sizes fit if their sum does. -/
lemma runsInRange_sizes {sizes : List Nat} (h : sizes.sum < 2 ^ 63) :
    RunsInRange (sizes.map fun n : Nat => Int64.ofInt n) := by
  intro start hstart
  obtain ⟨first, ⟨rest, rfl⟩, rfl⟩ := List.prefix_map_iff.1 hstart
  rw [List.sum_append] at h
  rw [exactTotal_sizes (by omega), InRange]
  have hmin : Int64.minValue.toInt = -2 ^ 63 := rfl
  have hmax : Int64.maxValue.toInt = 2 ^ 63 - 1 := rfl
  omega

end Scalar

namespace AggregateKind

open Scalar

/-- The sum of integers is their exact total if all running totals fit into 64 bits.  Otherwise it
is the floating-point number into which the first total that does not fit turns.  Orders whose
running totals fit have one sum, and all orders have it if the negative and the positive values fit
by themselves. -/
theorem sum_exact_of_runsInRange (values : List Int64) :
    (RunsInRange values →
      sum.reduce (values.map .int) = .ok (.int (Int64.ofInt (exactTotal values))) ∧
        (Int64.ofInt (exactTotal values)).toInt = exactTotal values) ∧
      (¬ RunsInRange values → ∃ start n rest, values = start ++ n :: rest ∧ RunsInRange start ∧
        ¬ InRange (exactTotal (start ++ [n])) ∧
        sum.reduce (values.map .int) = .ok (.float (addAll
          ((Binary64.ofInt (exactTotal start)).add (Binary64.ofInt n.toInt)) rest))) ∧
      (∀ other : List Int64, other.Perm values → RunsInRange values → RunsInRange other →
        sum.reduce (other.map .int) = sum.reduce (values.map .int)) ∧
      (InRange (negativeTotal values) → InRange (positiveTotal values) →
        ∀ other : List Int64, other.Perm values →
          sum.reduce (other.map .int) = .ok (.int (Int64.ofInt (exactTotal values)))) := by
  refine ⟨?exact, ?overflow, ?orders, ?allOrders⟩
  case exact =>
    intro h
    exact ⟨total_of_runsInRange _ h, toInt_ofInt_of_inRange (h values List.prefix_rfl)⟩
  case overflow =>
    intro h
    obtain ⟨start, n, rest, rfl, hstart, hn⟩ := exists_first_overflow h
    exact ⟨start, n, rest, rfl, hstart, hn, total_of_overflow _ hstart hn rest⟩
  case orders =>
    intro other hperm hvalues hother
    have hsum : sum.reduce (other.map .int) = .ok (.int (Int64.ofInt (exactTotal other))) :=
      total_of_runsInRange _ hother
    rw [hsum, exactTotal_perm hperm]
    exact (total_of_runsInRange _ hvalues).symm
  case allOrders =>
    intro hnegative hpositive other hperm
    rw [← exactTotal_perm hperm]
    exact total_of_runsInRange _ (runsInRange_of_perm hnegative hpositive hperm)

/-- The greatest 64-bit integer is the sum of itself, minus one and one in this order, and the sum
of small integers of both signs does not depend on the order. -/
theorem sum_exact_of_runsInRange_of_max :
    let values : List Int64 := [Int64.maxValue, -1, 1]
    let small : List Int64 := [7, -9, 2]
    (RunsInRange values ∧ sum.reduce (values.map .int) = .ok (.int Int64.maxValue)) ∧
      InRange (negativeTotal small) ∧ InRange (positiveTotal small) ∧ [-9, 2, 7].Perm small ∧
      sum.reduce ([-9, 2, 7].map .int) = .ok (.int 0) := by
  intro values small
  have hruns : RunsInRange values := by decide +kernel
  obtain ⟨hexact, -⟩ := sum_exact_of_runsInRange values
  obtain ⟨-, -, -, horders⟩ := sum_exact_of_runsInRange small
  have hnegative : InRange (negativeTotal small) := by decide +kernel
  have hpositive : InRange (positiveTotal small) := by decide +kernel
  have hperm : [-9, 2, 7].Perm small := by decide +kernel
  exact ⟨⟨hruns, (hexact hruns).1⟩, hnegative, hpositive, hperm,
    horders hnegative hpositive _ hperm⟩

/-- The greatest 64-bit integer, one and minus one: in this order the sum is `2 ^ 63`, although the
total fits, and in another order it is the total. -/
theorem sum_inexact_at_max_one_minus_one :
    let values : List Int64 := [Int64.maxValue, 1, -1]
    let other : List Int64 := [Int64.maxValue, -1, 1]
    InRange (exactTotal values) ∧ other.Perm values ∧
      sum.reduce (values.map .int) = .ok (.float Binary64.twoPow63) ∧
      sum.reduce (values.map .int) ≠ .ok (.int (Int64.ofInt (exactTotal values))) ∧
      sum.reduce (other.map .int) = .ok (.int (Int64.ofInt (exactTotal values))) := by
  decide +kernel

end AggregateKind

end RelationalAlgebra
