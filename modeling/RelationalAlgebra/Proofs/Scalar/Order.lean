import RelationalAlgebra.Proofs.Binary64.Integer
import RelationalAlgebra.Scalar.Comparison

/-!
# The order of scalars is lawful

Sets of tuples are ascending lists, so everything about them rests on the order of scalars being
a total preorder.  The order compares numbers by three different rules, depending on which of
them are integers.  The proof gives every number a place on one line of integers, on which all
three rules are the usual comparison, and then reads the order of scalars as a chain of
comparisons of attributes: the rank, and then the value that scalars of that rank have.

Main statement: the order of scalars and the lexicographic order of tuples are total preorders,
and the equality tests beside them are the equivalences that belong to them.
-/

namespace RelationalAlgebra

/-! ## Lawful orders -/

/-- An order with an equality test: the order is a total preorder, and the test holds exactly
between elements that stand at the same point of it. -/
structure LawfulOrder {α : Type} (cmp : α → α → Ordering) (equal : α → α → Bool) : Prop where
  compare_self : ∀ a, cmp a a = .eq
  compare_swap : ∀ a b, cmp b a = (cmp a b).swap
  ne_gt_trans : ∀ a b c, cmp a b ≠ .gt → cmp b c ≠ .gt → cmp a c ≠ .gt
  equal_iff : ∀ a b, equal a b = true ↔ cmp a b = .eq
  equivalence : Equivalence fun a b => equal a b = true
  congr_left : ∀ a b c, equal a b = true → cmp a c = cmp b c
  congr_right : ∀ a b c, equal a b = true → cmp c a = cmp c b

/-- A transitive and oriented comparison is a lawful order with its own equality test. -/
lemma LawfulOrder.of_transCmp {α : Type} (cmp : α → α → Ordering) [Std.TransCmp cmp] :
    LawfulOrder cmp fun a b => cmp a b == .eq where
  compare_self _ := Std.ReflCmp.compare_self
  compare_swap _ _ := Std.OrientedCmp.eq_swap
  ne_gt_trans a b c hab hbc := by
    have hle : (cmp a c).isLE = true :=
      Std.TransCmp.isLE_trans (Ordering.ne_gt_iff_isLE.1 hab) (Ordering.ne_gt_iff_isLE.1 hbc)
    exact Ordering.ne_gt_iff_isLE.2 hle
  equal_iff _ _ := beq_iff_eq
  equivalence := by
    simp only [beq_iff_eq]
    exact ⟨fun _ => Std.ReflCmp.compare_self, Std.OrientedCmp.eq_symm, Std.TransCmp.eq_trans⟩
  congr_left _ _ _ h := Std.TransCmp.congr_left (beq_iff_eq.1 h)
  congr_right _ _ _ h := Std.TransCmp.congr_right (beq_iff_eq.1 h)

/-! ## The order of scalars as a chain of comparisons -/

namespace Scalar

/-- The truth value that a scalar is; false for scalars of other kinds. -/
def truth : Scalar → Bool
  | .bool b => b
  | _ => false

/-- The place of a number on the line of places; zero for scalars of other kinds. -/
def place : Scalar → Int
  | .int n => Binary64.placeOfInt n.toInt
  | .float x => x.place
  | _ => 0

/-- The text that a scalar is; empty for scalars of other kinds. -/
def letters : Scalar → String
  | .text s => s
  | _ => ""

/-- Year, month and day of a date; zeros for scalars of other kinds. -/
def calendarDay : Scalar → Int × Nat × Nat
  | .date d => (d.year, d.month, d.day)
  | _ => (0, 0, 0)

/-- The comparison of the days that scalars are. -/
def compareDay : Scalar → Scalar → Ordering :=
  compareLex (compareOn fun s => s.calendarDay.1)
    (compareLex (compareOn fun s => s.calendarDay.2.1) (compareOn fun s => s.calendarDay.2.2))

/-- The comparison of the ranks of scalars and then of the values that they are. -/
def compareKeys : Scalar → Scalar → Ordering :=
  compareLex (compareOn rank)
    (compareLex (compareOn truth)
      (compareLex (compareOn place) (compareLex (compareOn letters) compareDay)))

/-- The order of scalars is the comparison of ranks and then of values. -/
lemma compare_eq_compareKeys : compare = compareKeys := by
  funext a b
  cases a <;> cases b <;>
    simp only [compareKeys, compareDay, compareLex, compareOn, rank, truth, place, letters,
      calendarDay, Std.ReflCmp.compare_self, Ordering.eq_then, Ordering.then_eq]
  -- The three rules for numbers are one on the line of places.
  case int.int m n =>
    exact (int64_compare_eq_compare_toInt m n).trans (Binary64.compare_placeOfInt _ _).symm
  case int.float m x => exact Binary64.compareInt_eq_compare_place m x
  case float.int x n =>
    change (Binary64.compareInt n x).swap = _
    rw [Binary64.compareInt_eq_compare_place, Int.compare_swap]
  case float.float x y => exact Binary64.compare_eq_compare_place x y
  -- Between different ranks the values do not matter; the other kinds are compared as they are.
  all_goals rfl

instance : Std.TransCmp Scalar.compare := by
  rw [compare_eq_compareKeys]
  unfold compareKeys compareDay
  infer_instance

end Scalar

namespace Tuple

instance : Std.TransCmp Tuple.compare :=
  inferInstanceAs (Std.TransCmp (List.compareLex Scalar.compare))

end Tuple

/-- Scalars of all kinds and all bit patterns are lawfully ordered, and so are tuples of them. -/
theorem lawfulOrder_scalar_and_tuple :
    LawfulOrder Scalar.compare Scalar.equal ∧ LawfulOrder Tuple.compare Tuple.equal :=
  ⟨LawfulOrder.of_transCmp Scalar.compare, LawfulOrder.of_transCmp Tuple.compare⟩

end RelationalAlgebra
