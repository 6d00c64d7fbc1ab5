import Mathlib.Algebra.Ring.Nat
import RelationalAlgebra.Proofs.Aggregate.Matching
import RelationalAlgebra.Proofs.Aggregate.Sums
import RelationalAlgebra.Proofs.Binary64.Addition

/-!
# Sums of equal values

Values that are equal one by one may be stored in different forms, as the integer `1` and the
floating-point number `1.0` are.  A sum looks at the forms: it is exact while all values are
integers, and rounds every total from the first floating-point number on.  So two sums of equal
values fail together, but they may be different numbers.

They are equal if nothing is rounded while only one of the totals is an integer (`Steady`).  Once
both totals are floating-point numbers all further ones stay equal, whatever is added, and as long
as all values are stored in the same forms the totals are even the same.
-/

namespace RelationalAlgebra

open Binary64 (IsRepresentable placeOfInt)

namespace Scalar

variable {a b v w : Scalar} {operation : String}

/-- Whether a scalar is stored as an integer. -/
def isInt : Scalar → Bool
  | .int _ => true
  | _ => false

/-- Whether the running totals of two lists of equal values stay equal: wherever a value leaves
only one of the two totals an integer, that integer, the value and the total before it are exact as
floating-point numbers.  `left` and `right` say which of the totals are integers so far, and
`total` is that integer. -/
def Steady (left right : Bool) (total : Int) : List Scalar → List Scalar → Prop
  | v :: rest, w :: rest' =>
    ∀ n : Int64, (left = true ∧ v = .int n) ∨ (right = true ∧ w = .int n) →
      InRange (total + n.toInt) →
        ((left && v.isInt) ≠ (right && w.isInt) → IsRepresentable total ∧
          IsRepresentable n.toInt ∧ IsRepresentable (total + n.toInt)) ∧
        Steady (left && v.isInt) (right && w.isInt) (total + n.toInt) rest rest'
  | _, _ => True

/-! ## When running totals stay equal -/

/-- Scalars of one kind are stored as integers together. -/
lemma isInt_eq_of_kind_eq (h : v.kind = w.kind) : v.isInt = w.isInt := by
  cases v <;> cases w <;> first | rfl | cases h

/-- Values stored in the same forms have running totals that stay equal. -/
lemma steady_of_kind_eq {values values' : List Scalar}
    (h : List.Forall₂ (fun v w => v.kind = w.kind) values values') (integers : Bool) (total : Int) :
    Steady integers integers total values values' := by
  induction h generalizing integers total with
  | nil => exact trivial
  | cons hvw _ ih =>
    intro n _ _
    rw [isInt_eq_of_kind_eq hvw]
    exact ⟨fun hne => absurd rfl hne, ih _ _⟩

/-- Integers whose sizes add up to at most `2 ^ 53` have running totals that stay equal, in
whatever forms they are stored. -/
lemma steady_of_natAbs_le {integers : List Int64} {left right : Bool} {total : Int}
    {values' : List Scalar} (h : total.natAbs + (integers.map fun n => n.toInt.natAbs).sum ≤ 2 ^ 53)
    (hvalues : List.Forall₂ (fun n w => (int n).compare w = .eq) integers values') :
    Steady left right total (integers.map .int) values' := by
  induction hvalues generalizing left right total with
  | nil => exact trivial
  | @cons n w integers rest' hnw _ ih =>
    rw [List.map_cons, List.sum_cons] at h
    intro m hm _
    obtain rfl : n = m := by
      rcases hm with ⟨-, hm⟩ | ⟨-, rfl⟩
      · exact Scalar.int.inj hm
      · exact Std.LawfulEqOrd.eq_of_compare hnw
    refine ⟨fun _ => ⟨?_, ?_, ?_⟩, ih (by omega)⟩
    · exact Binary64.isRepresentable_of_natAbs_le (by omega)
    · exact Binary64.isRepresentable_of_natAbs_le (by omega)
    · exact Binary64.isRepresentable_of_natAbs_le (by omega)

/-! ## Equal scalars as integers and as floating-point numbers -/

/-- A scalar that is equal to an integer and stored as one is the same integer. -/
lemma eq_int_of_isInt {n : Int64} (h : (int n).compare w = .eq) (hw : w.isInt = true) :
    w = .int n := by
  cases w with
  | int m => rw [Std.LawfulEqOrd.eq_of_compare h]
  | _ => cases hw

/-- An integer that is equal to a number is representable, so rounding does not move it. -/
lemma place_ofInt_of_compareInt {n : Int64} {x : Binary64} (h : Binary64.compareInt n x = .eq) :
    (Binary64.ofInt n.toInt).place = x.place := by
  rw [Binary64.compareInt_eq_compare_place, Int.compare_eq_eq] at h
  rw [← h]
  exact (Binary64.place_ofInt_iff (Binary64.natAbs_toInt_le n)).2 ⟨x, h.symm⟩

/-- Of two equal scalars both are no numbers, or both are rounded to numbers at one place. -/
lemma asFloat?_cases (h : v.compare w = .eq) :
    (v.asFloat? = none ∧ w.asFloat? = none) ∨
      ∃ x y, v.asFloat? = some x ∧ w.asFloat? = some y ∧ x.place = y.place := by
  cases v <;> cases w
  case int.int m n =>
    obtain rfl : m = n := Std.LawfulEqOrd.eq_of_compare h
    exact .inr ⟨_, _, rfl, rfl, rfl⟩
  case int.float n x => exact .inr ⟨_, _, rfl, rfl, place_ofInt_of_compareInt h⟩
  case float.int x n =>
    have hcompare := Ordering.swap_eq_eq.1 h
    exact .inr ⟨_, _, rfl, rfl, (place_ofInt_of_compareInt hcompare).symm⟩
  case float.float x y =>
    have hplace : x.compare y = .eq := h
    rw [Binary64.compare_eq_compare_place, Int.compare_eq_eq] at hplace
    exact .inr ⟨x, y, rfl, rfl, hplace⟩
  all_goals first | exact .inl ⟨rfl, rfl⟩ | cases h

/-! ## The sum of two values -/

/-- The sum of two integers, if it fits into 64 bits. -/
def integerSum? : Scalar → Scalar → Option Int64
  | .int a, .int b =>
    if InRange (a.toInt + b.toInt) then some (Int64.ofInt (a.toInt + b.toInt)) else none
  | _, _ => none

/-- Two numbers are added as integers if their sum is one that fits, and rounded otherwise. -/
lemma plus_eq (operation : String) (a b : Scalar) :
    plus operation a b =
      match a.asFloat?, b.asFloat? with
      | some x, some y => .ok (((integerSum? a b).map .int).getD (.float (x.add y)))
      | _, _ => .error (mismatch operation a b) := by
  cases a <;> cases b
  case int.int m n =>
    by_cases h : InRange (m.toInt + n.toInt)
    · simp [plus_int_of_inRange operation h, asFloat?, integerSum?, h]
    · simp [plus_int_of_not_inRange operation h, asFloat?, integerSum?, h]
  all_goals rfl

/-- A sum that is an integer is that of two integers. -/
lemma exists_of_integerSum? {k : Int64} (h : integerSum? a b = some k) :
    ∃ m n, a = .int m ∧ b = .int n ∧ InRange (m.toInt + n.toInt) ∧
      k = Int64.ofInt (m.toInt + n.toInt) := by
  cases a <;> cases b
  case int.int m n =>
    by_cases hrange : InRange (m.toInt + n.toInt)
    · rw [integerSum?, if_pos hrange] at h
      exact ⟨m, n, rfl, rfl, hrange, (Option.some.inj h).symm⟩
    · rw [integerSum?, if_neg hrange] at h
      cases h
  all_goals cases h

/-- If only the first of two sums of equal values is an integer, not all of the other values are
stored as integers. -/
lemma isInt_of_integerSum?_ne {k : Int64} (hab : a.compare b = .eq) (hvw : v.compare w = .eq)
    (h : integerSum? a v = some k) (h' : integerSum? b w = none) :
    (b.isInt && w.isInt) = false := by
  obtain ⟨m, n, rfl, rfl, -, -⟩ := exists_of_integerSum? h
  rw [Bool.and_eq_false_iff]
  by_contra hboth
  simp only [not_or, Bool.not_eq_false] at hboth
  rw [eq_int_of_isInt hab hboth.1, eq_int_of_isInt hvw hboth.2, h] at h'
  cases h'

/-- Numbers at the places of two integers have a sum that is equal to that of the integers, if
nothing is rounded. -/
lemma compareInt_add {m n : Int64} {x y : Binary64} (hx : (Binary64.ofInt m.toInt).place = x.place)
    (hy : (Binary64.ofInt n.toInt).place = y.place) (hm : IsRepresentable m.toInt)
    (hn : IsRepresentable n.toInt) (hrange : InRange (m.toInt + n.toInt))
    (hsum : IsRepresentable (m.toInt + n.toInt)) :
    Binary64.compareInt (Int64.ofInt (m.toInt + n.toInt)) (x.add y) = .eq := by
  have hvalue := toInt_ofInt_of_inRange hrange
  have hsize := Binary64.natAbs_toInt_le (Int64.ofInt (m.toInt + n.toInt))
  have hmsize := Binary64.natAbs_toInt_le m
  have hnsize := Binary64.natAbs_toInt_le n
  rw [hvalue] at hsize
  rw [(Binary64.place_ofInt_iff hmsize).2 hm] at hx
  rw [(Binary64.place_ofInt_iff hnsize).2 hn] at hy
  rw [Binary64.compareInt_eq_compare_place, Int.compare_eq_eq, hvalue]
  exact (Binary64.place_add_of_isRepresentable hmsize hnsize hsize hsum hx.symm hy.symm).symm

/-! ## Running totals in step -/

/-- Two running totals that stay equal over the values to come: they are equal, and as long as one
of them is an integer, it is the total so far, and what comes keeps the totals equal. -/
structure InStep (total : Int) (rest rest' : List Scalar) (a b : Scalar) : Prop where
  equal : a.compare b = .eq
  integer : ∀ m, a = .int m ∨ b = .int m →
    m.toInt = total ∧ Steady a.isInt b.isInt total rest rest'

/-- Floating-point numbers at one place stay in step, whatever comes. -/
lemma inStep_float {x y : Binary64} (h : x.place = y.place) (total : Int)
    (rest rest' : List Scalar) : InStep total rest rest' (.float x) (.float y) where
  equal := by
    change x.compare y = .eq
    rw [Binary64.compare_eq_compare_place, h]
    exact Std.ReflCmp.compare_self
  integer := by
    rintro m (h | h) <;> cases h

section

variable {total : Int} {rest rest' : List Scalar}

/-- Totals of which one or both are the same integer stay in step if what comes keeps them equal. -/
lemma inStep_of_integer {k : Int64} (hk : k.toInt = total) (hab : a.compare b = .eq)
    (ha : ∀ m, a = .int m → m = k) (hb : ∀ m, b = .int m → m = k)
    (hsteady : Steady a.isInt b.isInt total rest rest') : InStep total rest rest' a b where
  equal := hab
  integer := by
    intro m hm
    obtain rfl : m = k := hm.elim (ha m) (hb m)
    exact ⟨hk, hsteady⟩

/-- Where the next sum is an integer on one side at least, either both sums are integers or nothing
is rounded, and what comes after keeps the totals equal. -/
lemma InStep.next {m n : Int64} (h : InStep total (v :: rest) (w :: rest') a b)
    (hint : (a = .int m ∧ v = .int n) ∨ (b = .int m ∧ w = .int n))
    (hrange : InRange (m.toInt + n.toInt)) :
    ((a.isInt && v.isInt) ≠ (b.isInt && w.isInt) → IsRepresentable m.toInt ∧
        IsRepresentable n.toInt ∧ IsRepresentable (m.toInt + n.toInt)) ∧
      Steady (a.isInt && v.isInt) (b.isInt && w.isInt) (m.toInt + n.toInt) rest rest' := by
  obtain ⟨rfl, hsteady⟩ := h.integer m (hint.imp And.left And.left)
  refine hsteady n (hint.imp ?_ ?_) hrange
  · rintro ⟨rfl, hv⟩
    exact ⟨rfl, hv⟩
  · rintro ⟨rfl, hw⟩
    exact ⟨rfl, hw⟩

/-- Totals that are in step fail together on equal values, and stay in step otherwise. -/
lemma plus_corresponds (operation : String) (h : InStep total (v :: rest) (w :: rest') a b)
    (hvw : v.compare w = .eq) :
    ∃ total', Corresponds (InStep total' rest rest') Error.SameKind (plus operation a v)
      (plus operation b w) := by
  rcases asFloat?_cases h.equal with ⟨ha, hb⟩ | ⟨x, x', ha, hb, hx⟩
  · rw [plus_eq, plus_eq, ha, hb]
    exact ⟨total, .error rfl⟩
  rcases asFloat?_cases hvw with ⟨hv, hw⟩ | ⟨y, y', hv, hw, hy⟩
  · rw [plus_eq, plus_eq, ha, hb, hv, hw]
    exact ⟨total, .error rfl⟩
  rw [plus_eq, plus_eq, ha, hb, hv, hw]
  -- Each of the two sums is an integer or a floating-point number.
  cases hleft : integerSum? a v <;> cases hright : integerSum? b w <;>
    simp only [Option.map_some, Option.map_none, Option.getD_some, Option.getD_none]
  case none.none =>
    have hsum := Binary64.place_add_congr hx hy
    exact ⟨total, .ok (inStep_float hsum total rest rest')⟩
  case some.some k l =>
    obtain ⟨m, n, rfl, rfl, hrange, rfl⟩ := exists_of_integerSum? hleft
    obtain ⟨m', n', rfl, rfl, -, rfl⟩ := exists_of_integerSum? hright
    obtain rfl : m = m' := Std.LawfulEqOrd.eq_of_compare h.equal
    obtain rfl : n = n' := Std.LawfulEqOrd.eq_of_compare hvw
    obtain ⟨-, hnext⟩ := h.next (.inl ⟨rfl, rfl⟩) hrange
    exact ⟨_, .ok (inStep_of_integer (toInt_ofInt_of_inRange hrange) Std.ReflCmp.compare_self
      (fun _ hk => (int.inj hk).symm) (fun _ hk => (int.inj hk).symm) hnext)⟩
  case some.none k =>
    have hmixed := isInt_of_integerSum?_ne h.equal hvw hleft hright
    obtain ⟨m, n, rfl, rfl, hrange, rfl⟩ := exists_of_integerSum? hleft
    obtain rfl := Option.some.inj ha
    obtain rfl := Option.some.inj hv
    obtain ⟨hexact, hnext⟩ := h.next (.inl ⟨rfl, rfl⟩) hrange
    rw [hmixed] at hexact hnext
    obtain ⟨hm, hn, hsum⟩ := hexact (by exact nofun)
    exact ⟨_, .ok (inStep_of_integer (toInt_ofInt_of_inRange hrange)
      (compareInt_add hx hy hm hn hrange hsum) (fun _ hk => (int.inj hk).symm) nofun hnext)⟩
  case none.some k =>
    have hmixed := isInt_of_integerSum?_ne (Std.OrientedCmp.eq_symm h.equal)
      (Std.OrientedCmp.eq_symm hvw) hright hleft
    obtain ⟨m, n, rfl, rfl, hrange, rfl⟩ := exists_of_integerSum? hright
    obtain rfl := Option.some.inj hb
    obtain rfl := Option.some.inj hw
    obtain ⟨hexact, hnext⟩ := h.next (.inr ⟨rfl, rfl⟩) hrange
    rw [hmixed] at hexact hnext
    obtain ⟨hm, hn, hsum⟩ := hexact (by exact nofun)
    have hequal := compareInt_add hx.symm hy.symm hm hn hrange hsum
    exact ⟨_, .ok (inStep_of_integer (toInt_ofInt_of_inRange hrange)
      (Ordering.swap_eq_eq.2 hequal) nofun (fun _ hk => (int.inj hk).symm) hnext)⟩

/-- Running totals that are in step end in equal totals, or fail together. -/
lemma foldlM_plus_corresponds (operation : String) (hrest : EqualValues rest rest')
    (h : InStep total rest rest' a b) :
    Corresponds (fun s t => s.compare t = .eq) Error.SameKind (rest.foldlM (plus operation) a)
      (rest'.foldlM (plus operation) b) := by
  induction hrest generalizing total a b with
  | nil => exact .ok h.equal
  | cons hvw _ ih =>
    rw [List.foldlM_cons, List.foldlM_cons]
    obtain ⟨total', hplus⟩ := plus_corresponds operation h hvw
    exact hplus.bind fun _ _ hkept => ih hkept

end

variable {values values' : List Scalar}

/-- Equal values whose running totals stay equal have equal totals, or none for reasons of one
sort. -/
theorem total_corresponds (operation : String) (h : EqualValues values values')
    (hsteady : Steady true true 0 values values') :
    Corresponds (fun s t => s.compare t = .eq) Error.SameKind (total operation values)
      (total operation values') := by
  have hstart : InStep 0 values values' (.int 0) (.int 0) := by
    refine ⟨rfl, fun m hm => ?_⟩
    rw [← Scalar.int.inj (hm.elim id id)]
    exact ⟨rfl, hsteady⟩
  exact foldlM_plus_corresponds operation h hstart

/-- Two totals are numbers together, and no number can be added to something else. -/
lemma plus_isSome_corresponds (operation : String)
    (hab : a.asFloat?.isSome = b.asFloat?.isSome) (hvw : v.compare w = .eq) :
    Corresponds (fun s t => s.asFloat?.isSome = t.asFloat?.isSome) Error.SameKind
      (plus operation a v) (plus operation b w) := by
  have hnumber : ∀ (k : Option Int64) (x : Binary64),
      ((k.map Scalar.int).getD (.float x)).asFloat?.isSome = true := by
    intro k x
    cases k <;> rfl
  rw [plus_eq, plus_eq]
  rcases asFloat?_cases hvw with ⟨hv, hw⟩ | ⟨y, y', hv, hw, -⟩ <;> rw [hv, hw] <;>
    cases ha : a.asFloat? <;> cases hb : b.asFloat? <;> rw [ha, hb] at hab
  case inr.some.some => exact .ok ((hnumber _ _).trans (hnumber _ _).symm)
  all_goals first | exact .error rfl | cases hab

/-- Sums of equal values fail together, for reasons of one sort. -/
theorem total_fails_together (operation : String) (h : EqualValues values values') :
    Corresponds (fun _ _ => True) Error.SameKind (total operation values)
      (total operation values') := by
  have hrun : Corresponds (fun s t => s.asFloat?.isSome = t.asFloat?.isSome) Error.SameKind
      (total operation values) (total operation values') :=
    Corresponds.foldlM h rfl fun _ _ _ _ hab hvw => plus_isSome_corresponds operation hab hvw
  exact hrun.mono (fun _ _ _ => trivial) fun _ _ hsame => hsame

end Scalar

namespace AggregateKind

open Scalar

variable {values values' : List Scalar}

/-- Equal totals have equal averages. -/
lemma average_eq {s t : Scalar} (h : s.compare t = .eq) (count : Binary64) :
    (Scalar.float ((s.asFloat?.getD Binary64.nan).div count)).compare
      (.float ((t.asFloat?.getD Binary64.nan).div count)) = .eq := by
  have hplace : ((s.asFloat?.getD Binary64.nan).div count).place =
      ((t.asFloat?.getD Binary64.nan).div count).place := by
    rcases asFloat?_cases h with ⟨hs, ht⟩ | ⟨x, y, hs, ht, hxy⟩ <;> rw [hs, ht]
    exact Binary64.place_div_congr hxy count
  change Binary64.compare _ _ = .eq
  rw [Binary64.compare_eq_compare_place, hplace]
  exact Std.ReflCmp.compare_self

/-- Averages are related as totals are. -/
lemma avg_corresponds {same : Scalar → Scalar → Prop} (hlength : values.length = values'.length)
    (h : Corresponds same Error.SameKind (total "avg" values) (total "avg" values'))
    {same' : Scalar → Scalar → Prop}
    (hsame : ∀ (s t : Scalar) (count : Binary64), same s t →
      same' (.float ((s.asFloat?.getD Binary64.nan).div count))
        (.float ((t.asFloat?.getD Binary64.nan).div count))) :
    Corresponds same' Error.SameKind (avg.reduce values) (avg.reduce values') := by
  unfold reduce
  have hnil : values = [] ↔ values' = [] := by
    rw [← List.length_eq_zero_iff, hlength, List.length_eq_zero_iff]
  by_cases hvalues : values = []
  · rw [if_pos hvalues, if_pos (hnil.1 hvalues)]
    exact .error rfl
  · rw [if_neg hvalues, if_neg (fun h => hvalues (hnil.2 h)), hlength]
    exact h.bind fun s t hst => .ok (hsame s t _ hst)

/-- Aggregates of equal values fail together, for reasons of one sort.  Counts, least and greatest
values are equal, and so are sums and averages if the running totals stay equal. -/
theorem reduce_interchange (kind : AggregateKind) (h : EqualValues values values') :
    Corresponds
      (fun a b => (kind ∈ [sum, avg] → Steady true true 0 values values') → a.compare b = .eq)
      Error.SameKind (kind.reduce values) (kind.reduce values') := by
  by_cases hkind : kind ∈ [count, min, max]
  · exact (reduce_corresponds hkind h).mono (fun _ _ hequal _ => hequal) fun _ _ he => he
  have hsums : kind ∈ [sum, avg] := by
    cases kind <;> simp_all
  by_cases hsteady : Steady true true 0 values values'
  · have hequal : Corresponds (fun a b => a.compare b = .eq) Error.SameKind
        (kind.reduce values) (kind.reduce values') := by
      cases kind with
      | sum => exact total_corresponds _ h hsteady
      | avg =>
        exact avg_corresponds h.length_eq (total_corresponds _ h hsteady) fun _ _ count hst =>
          average_eq hst count
      | count | min | max => simp at hkind
    exact hequal.mono (fun _ _ hab _ => hab) fun _ _ he => he
  · have hfail : Corresponds (fun _ _ => True) Error.SameKind (kind.reduce values)
        (kind.reduce values') := by
      cases kind with
      | sum => exact total_fails_together _ h
      | avg => exact avg_corresponds h.length_eq (total_fails_together _ h) fun _ _ _ _ => trivial
      | count | min | max => simp at hkind
    exact hfail.mono (fun _ _ _ himp => absurd (himp hsums) hsteady) fun _ _ he => he

end AggregateKind

end RelationalAlgebra
