import RelationalAlgebra.Proofs.Aggregate.Totals

/-!
# Sums and averages of any values

A sum goes through the values and stops at the first one that is no number, with an error that
names the kinds of the total so far and of that value (`total_meets_first`).  So it fails exactly
if some value is no number.  It is an integer exactly if all values are integers and all running
totals fit into 64 bits (`total_eq_int_iff`), and then nothing is lost; every other sum is a
floating-point number.

An average needs a value, and otherwise fails where the sum does.  A sum that is found is a number,
so the average divides that number, never the substitute for a missing one.
-/

namespace RelationalAlgebra

namespace Scalar

variable {a v : Scalar} {values : List Scalar} {operation : String}

/-! ## Values that can be added -/

/-- A value is an integer or a floating-point number. -/
def IsNumber (v : Scalar) : Prop :=
  v.kind = .int ∨ v.kind = .float

/-- Numbers are the values that can be read as floating-point numbers. -/
lemma isNumber_iff : v.IsNumber ↔ ∃ x, v.asFloat? = some x := by
  cases v <;> simp [IsNumber, kind, asFloat?]

/-- A value that cannot be read as a floating-point number is no number. -/
lemma not_isNumber_iff : ¬ v.IsNumber ↔ v.asFloat? = none := by
  rw [isNumber_iff, ← Option.isSome_iff_exists, Bool.not_eq_true, Option.isSome_eq_false_iff,
    Option.isNone_iff_eq_none]

/-- A number is an integer or a floating-point number. -/
lemma IsNumber.cases (h : v.IsNumber) : (∃ n, v = .int n) ∨ ∃ x, v = .float x := by
  cases v with
  | int n => exact .inl ⟨n, rfl⟩
  | float x => exact .inr ⟨x, rfl⟩
  | _ => simp [IsNumber, kind] at h

/-- A value is added to a number exactly if it is one, and the sum is a number. -/
lemma plus_meets_number (operation : String) (ha : a.IsNumber) (v : Scalar) :
    Meets (fun sum => v.IsNumber ∧ sum.IsNumber)
      (fun e => ¬ v.IsNumber ∧ e = .typeMismatch operation a.kind v.kind)
      (plus operation a v) := by
  obtain ⟨x, hx⟩ := isNumber_iff.1 ha
  rw [plus_eq, hx]
  cases hv : v.asFloat? with
  | none => exact ⟨not_isNumber_iff.2 hv, rfl⟩
  | some y =>
    refine ⟨isNumber_iff.2 ⟨y, hv⟩, ?_⟩
    cases integerSum? a v with
    | none => exact .inr rfl
    | some n => exact .inl rfl

/-- A sum is an integer only if it is the exact sum of two integers. -/
lemma exists_of_plus_eq_int {n : Int64} (h : plus operation a v = .ok (.int n)) :
    ∃ l m, a = .int l ∧ v = .int m ∧ InRange (l.toInt + m.toInt) ∧
      n.toInt = l.toInt + m.toInt := by
  rw [plus_eq] at h
  split at h
  · cases hsum : integerSum? a v with
    | none =>
      rw [hsum] at h
      cases h
    | some k =>
      rw [hsum] at h
      obtain rfl : k = n := by simpa using h
      obtain ⟨l, m, rfl, rfl, hrange, rfl⟩ := exists_of_integerSum? hsum
      exact ⟨l, m, rfl, rfl, hrange, toInt_ofInt_of_inRange hrange⟩
  · cases h

/-- The operation for which two values are added is told by the error only. -/
lemma plus_corresponds_operation (operation operation' : String) (a v : Scalar) :
    Corresponds (· = ·)
      (fun d e => ∃ left right, d = .typeMismatch operation left right ∧
        e = .typeMismatch operation' left right)
      (plus operation a v) (plus operation' a v) := by
  rw [plus_eq, plus_eq]
  cases a.asFloat? <;> cases v.asFloat?
  case some.some => exact .ok rfl
  all_goals exact .error ⟨a.kind, v.kind, rfl, rfl⟩

/-! ## Running totals -/

/-- The last value is added to the total of those before it. -/
lemma total_concat (operation : String) (values : List Scalar) (last : Scalar) :
    total operation (values ++ [last]) =
      total operation values >>= fun sum => plus operation sum last := by
  rw [total_append]
  refine congrArg _ (funext fun sum => ?_)
  rw [List.foldlM_cons]
  exact bind_pure _

/-- The error of a sum that stops at the first value that is no number: it names the kinds of the
total of the values before it and of that value. -/
def StopsAtFirst (operation : String) (values : List Scalar) (e : Error) : Prop :=
  ∃ before v after sum, values = before ++ v :: after ∧ (∀ u ∈ before, u.IsNumber) ∧
    ¬ v.IsNumber ∧ total operation before = .ok sum ∧
    e = .typeMismatch operation sum.kind v.kind

/-- A sum that stops does not read further values. -/
lemma StopsAtFirst.concat {e : Error} (h : StopsAtFirst operation values e) (last : Scalar) :
    StopsAtFirst operation (values ++ [last]) e := by
  obtain ⟨before, v, after, sum, rfl, hstops⟩ := h
  exact ⟨before, v, after ++ [last], sum, by rw [List.append_assoc, List.cons_append], hstops⟩

/-- A sum that stops has met a value that is no number. -/
lemma StopsAtFirst.exists_not_isNumber {e : Error} (h : StopsAtFirst operation values e) :
    ∃ v ∈ values, ¬ v.IsNumber := by
  obtain ⟨before, v, after, _, rfl, -, hv, -⟩ := h
  exact ⟨v, List.mem_append_right _ List.mem_cons_self, hv⟩

/-- Numbers have a total, which is a number; otherwise the sum stops at the first value that is
none. -/
theorem total_meets_first (operation : String) (values : List Scalar) :
    Meets (fun sum => sum.IsNumber ∧ ∀ v ∈ values, v.IsNumber) (StopsAtFirst operation values)
      (total operation values) := by
  -- From the end: the total so far is a number, so only the last value can stop the sum.
  induction values using List.reverseRecOn with
  | nil => exact ⟨.inl rfl, fun _ h => absurd h List.not_mem_nil⟩
  | append_singleton values last ih =>
    rw [total_concat]
    cases hsum : total operation values with
    | error e => exact (ih.of_error hsum).concat last
    | ok sum =>
      obtain ⟨hnumber, hvalues⟩ := ih.of_ok hsum
      refine (plus_meets_number operation hnumber last).mono ?_ ?_
      · rintro next ⟨hlast, hnext⟩
        exact ⟨hnext, List.forall_mem_append.2 ⟨hvalues, List.forall_mem_singleton.2 hlast⟩⟩
      · rintro e ⟨hlast, rfl⟩
        exact ⟨values, last, [], sum, rfl, hvalues, hlast, hsum, rfl⟩

/-- A total is an integer exactly if all values are integers whose running totals fit into 64 bits,
and it is the exact one. -/
theorem total_eq_int_iff (operation : String) (values : List Scalar) (n : Int64) :
    total operation values = .ok (.int n) ↔
      ∃ integers, values = integers.map .int ∧ RunsInRange integers ∧
        n.toInt = exactTotal integers := by
  constructor
  · intro h
    induction values using List.reverseRecOn generalizing n with
    | nil =>
      refine ⟨[], rfl, fun start hstart => ?_, ?_⟩
      · rw [List.prefix_nil.1 hstart]
        decide
      · rw [← Scalar.int.inj (Except.ok.inj h)]
        rfl
    | append_singleton values last ih =>
      rw [total_concat] at h
      cases hsum : total operation values with
      | error e =>
        rw [hsum] at h
        cases h
      | ok sum =>
        rw [hsum, ok_bind] at h
        -- An integer comes from an integer only, so no total before it was rounded either.
        obtain ⟨l, m, rfl, rfl, hrange, hn⟩ := exists_of_plus_eq_int h
        obtain ⟨integers, rfl, hruns, hl⟩ := ih l hsum
        rw [hl, ← exactTotal_concat] at hrange hn
        exact ⟨integers ++ [m], by rw [List.map_append, List.map_singleton],
          hruns.concat hrange, hn⟩
  · rintro ⟨integers, rfl, hruns, hn⟩
    rw [total_of_runsInRange operation hruns, ← hn, Int64.ofInt_toInt]

/-- The operation for which values are summed is told by the error only. -/
lemma total_corresponds_operation (operation operation' : String) (values : List Scalar) :
    Corresponds (· = ·)
      (fun d e => ∃ left right, d = .typeMismatch operation left right ∧
        e = .typeMismatch operation' left right)
      (total operation values) (total operation' values) := by
  refine Corresponds.foldlM (List.forall₂_same.2 fun v _ => rfl) rfl ?_
  rintro a _ v _ rfl rfl
  exact plus_corresponds_operation operation operation' a v

end Scalar

namespace AggregateKind

open Scalar

/-! ## Sums -/

/-- What a sum of any values is, and how it fails. -/
structure SumOutcome (values : List Scalar) : Prop where
  /-- A sum fails exactly if some value is no number. -/
  fails_iff : (∃ e, sum.reduce values = .error e) ↔ ∃ v ∈ values, ¬ v.IsNumber
  /-- The error names the kind of the first value that is no number, and of the total before it. -/
  error : ∀ e, sum.reduce values = .error e →
    ∃ before v after total, values = before ++ v :: after ∧ (∀ u ∈ before, u.IsNumber) ∧
      ¬ v.IsNumber ∧ sum.reduce before = .ok total ∧ e = .typeMismatch "sum" total.kind v.kind
  /-- A sum is an integer exactly if all values are and all running totals fit into 64 bits. -/
  integer_iff : (∃ n, sum.reduce values = .ok (.int n)) ↔
    ∃ integers, values = integers.map .int ∧ RunsInRange integers
  /-- A sum that is an integer is the exact total. -/
  exact : ∀ (n : Int64) (integers : List Int64), sum.reduce values = .ok (.int n) →
    values = integers.map .int → n.toInt = exactTotal integers
  /-- Every other sum is a floating-point number. -/
  float : ∀ s, sum.reduce values = .ok s → (∃ n, s = .int n) ∨ ∃ x, s = .float x

/-- Different lists of 64-bit integers are different lists of values. -/
lemma map_int_injective : Function.Injective (List.map Scalar.int) :=
  List.map_injective_iff.2 fun _ _ => Scalar.int.inj

/-- The outcome of a sum, whatever the values. -/
lemma sumOutcome (values : List Scalar) : SumOutcome values := by
  have hmeets := total_meets_first "sum" values
  refine ⟨?fails, fun e => hmeets.of_error, ?integer, ?exact, fun s hs => (hmeets.of_ok hs).1.cases⟩
  case fails =>
    constructor
    · rintro ⟨e, he⟩
      exact (hmeets.of_error he).exists_not_isNumber
    · rintro ⟨v, hv, hnot⟩
      cases hsum : sum.reduce values with
      | ok s => exact absurd ((hmeets.of_ok hsum).2 v hv) hnot
      | error e => exact ⟨e, rfl⟩
  case integer =>
    constructor
    · rintro ⟨n, hn⟩
      obtain ⟨integers, hvalues, hruns, -⟩ := (total_eq_int_iff "sum" values n).1 hn
      exact ⟨integers, hvalues, hruns⟩
    · rintro ⟨integers, rfl, hruns⟩
      exact ⟨_, total_of_runsInRange "sum" hruns⟩
  case exact =>
    intro n integers hn hvalues
    obtain ⟨integers', hvalues', -, hexact⟩ := (total_eq_int_iff "sum" values n).1 hn
    rwa [map_int_injective (hvalues.symm.trans hvalues')]

/-! ## Averages -/

/-- What an average of any values is, and how it fails. -/
structure AvgOutcome (values : List Scalar) : Prop where
  /-- Only no values are an empty group. -/
  emptyGroup_iff : avg.reduce values = .error (.emptyGroup avg) ↔ values = []
  /-- An average of some values fails exactly where their sum does, and names the same kinds. -/
  error_iff : values ≠ [] → ∀ e, avg.reduce values = .error e ↔
    ∃ left right, e = .typeMismatch "avg" left right ∧
      sum.reduce values = .error (.typeMismatch "sum" left right)
  /-- Otherwise the sum is a number, which is divided by the count. -/
  float : values ≠ [] → ∀ s, sum.reduce values = .ok s →
    ∃ x, s.asFloat? = some x ∧
      avg.reduce values = .ok (.float (x.div (Binary64.ofInt values.length)))

/-- The average of some values is their total, divided by their count. -/
lemma avg_reduce {values : List Scalar} (h : values ≠ []) :
    avg.reduce values = (total "avg" values).map fun sum =>
      .float ((sum.asFloat?.getD Binary64.nan).div (Binary64.ofInt values.length)) := by
  rw [reduce, if_neg h]
  cases hsum : total "avg" values <;> rw [name, hsum] <;> rfl

/-- The outcome of an average, whatever the values. -/
lemma avgOutcome (values : List Scalar) : AvgOutcome values := by
  refine ⟨?emptyGroup, ?error, ?float⟩
  case emptyGroup =>
    refine ⟨fun h => by_contra fun hne => ?_, fun h => by rw [h]; rfl⟩
    rw [avg_reduce hne, map_eq_error_iff] at h
    obtain ⟨_, _, _, _, -, -, -, -, he⟩ := (total_meets_first "avg" values).of_error h
    cases he
  case error =>
    intro hne e
    rw [avg_reduce hne, map_eq_error_iff]
    constructor
    · intro h
      have hsums := total_corresponds_operation "avg" "sum" values
      rw [h] at hsums
      obtain ⟨_, hsum, left, right, rfl, rfl⟩ := hsums.exists_error
      exact ⟨left, right, rfl, hsum⟩
    · rintro ⟨left, right, rfl, hsum⟩
      have hsums := total_corresponds_operation "sum" "avg" values
      rw [show total "sum" values = _ from hsum] at hsums
      obtain ⟨_, h, _, _, hkinds, rfl⟩ := hsums.exists_error
      obtain ⟨-, rfl, rfl⟩ := Error.typeMismatch.inj hkinds
      exact h
  case float =>
    intro hne s hs
    have hsums := total_corresponds_operation "sum" "avg" values
    rw [show total "sum" values = _ from hs] at hsums
    obtain ⟨_, h, rfl⟩ := hsums.exists_ok
    obtain ⟨x, hx⟩ := isNumber_iff.1 ((total_meets_first "avg" values).of_ok h).1
    refine ⟨x, hx, ?_⟩
    rw [avg_reduce hne, h, Except.map, hx, Option.getD_some]

/-- Sums and averages fail exactly on values that are no numbers, and averages on no values too.  A
sum is an integer exactly where it is exact all along, and every other sum and every average is a
floating-point number. -/
theorem sum_avg_outcomes (values : List Scalar) : SumOutcome values ∧ AvgOutcome values :=
  ⟨sumOutcome values, avgOutcome values⟩

end AggregateKind

end RelationalAlgebra
