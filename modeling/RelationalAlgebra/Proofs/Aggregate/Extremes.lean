import Mathlib.Data.List.Induction
import RelationalAlgebra.Proofs.Aggregate.Matching

/-!
# Least and greatest values

The search for an extreme value goes through the values once and replaces the best one so far by
each that is preferred to it.  So it compares every value with another one, and succeeds exactly if
conditions can order all values of the list with one another, which depends on their ranks only.
What it returns is then the first of the values to which none is preferred.

A single value is not compared with anything: the extreme of one null is that null.
-/

namespace RelationalAlgebra

namespace Scalar

variable {a b c x y : Scalar} {values : List Scalar} {preferred : Ordering}

/-! ## Values that can be ordered -/

/-- Conditions can order two values. -/
def Comparable (a b : Scalar) : Prop :=
  a.kind.comparable b.kind = true

/-- Values can be ordered if they have one rank, other than that of nulls. -/
lemma comparable_iff : a.Comparable b ↔ a.rank = b.rank ∧ a.rank ≠ 0 := by
  rw [Comparable, comparable_kind, Bool.and_eq_true, beq_iff_eq, bne_iff_ne]

/-- Whether values can be ordered depends on their ranks only. -/
lemma comparable_congr {a' b' : Scalar} (ha : a.rank = a'.rank) (hb : b.rank = b'.rank) :
    a.Comparable b ↔ a'.Comparable b' := by
  rw [comparable_iff, comparable_iff, ha, hb]

/-- In either direction values can be ordered or not. -/
lemma Comparable.symm (h : a.Comparable b) : b.Comparable a := by
  obtain ⟨hrank, hne⟩ := comparable_iff.1 h
  exact comparable_iff.2 ⟨hrank.symm, hrank ▸ hne⟩

instance : Std.Symm Comparable :=
  ⟨fun _ _ h => h.symm⟩

/-- Values that can all be ordered have one rank. -/
lemma rank_eq_of_pairwise (h : values.Pairwise Comparable) (hx : x ∈ values) (hy : y ∈ values) :
    x.rank = y.rank := by
  by_cases heq : x = y
  · rw [heq]
  · exact (comparable_iff.1 (h.forall hx hy heq)).1

/-- A further value can be ordered with all of some values if it can be with one of them. -/
lemma pairwise_concat_iff (h : values.Pairwise Comparable) (hx : x ∈ values) :
    (values ++ [y]).Pairwise Comparable ↔ y.Comparable x := by
  rw [List.pairwise_append]
  constructor
  · rintro ⟨-, -, hlast⟩
    exact (hlast x hx y (List.mem_singleton_self y)).symm
  · intro hyx
    refine ⟨h, List.pairwise_singleton _ _, fun z hz w hw => ?_⟩
    rw [List.mem_singleton.1 hw]
    exact ((comparable_congr rfl (rank_eq_of_pairwise h hx hz)).1 hyx).symm

/-! ## Values of one sort -/

/-- All values are numbers, or all are texts, or all are dates, or all are truth values. -/
def OneSort (values : List Scalar) : Prop :=
  (∀ v ∈ values, v.kind = .int ∨ v.kind = .float) ∨ (∀ v ∈ values, v.kind = .text) ∨
    (∀ v ∈ values, v.kind = .date) ∨ ∀ v ∈ values, v.kind = .bool

/-- Any two values of one sort can be ordered. -/
lemma OneSort.comparable (h : OneSort values) (hx : x ∈ values) (hy : y ∈ values) :
    x.Comparable y := by
  unfold Comparable
  rcases h with h | h | h | h
  · rcases h x hx with hx | hx <;> rcases h y hy with hy | hy <;> rw [hx, hy] <;> rfl
  all_goals
    rw [h x hx, h y hy]
    rfl

/-- Values that can be ordered with one value are of one sort. -/
lemma oneSort_of_comparable (ha : a.Comparable a) (h : ∀ v ∈ values, a.Comparable v) :
    OneSort values := by
  have hkind : ∀ v ∈ values, a.kind.comparable v.kind = true := h
  cases a with
  | null => cases ha
  | int | float =>
    refine .inl fun v hv => ?_
    cases v <;> cases hkind _ hv <;> simp [kind]
  | text =>
    refine .inr (.inl fun v hv => ?_)
    cases v <;> cases hkind _ hv
    rfl
  | date =>
    refine .inr (.inr (.inl fun v hv => ?_))
    cases v <;> cases hkind _ hv
    rfl
  | bool =>
    refine .inr (.inr (.inr fun v hv => ?_))
    cases v <;> cases hkind _ hv
    rfl

/-- All values can be ordered with one another exactly if there are less than two or they are of
one sort. -/
lemma pairwise_comparable_iff :
    values.Pairwise Comparable ↔ values.length < 2 ∨ OneSort values := by
  constructor
  · intro h
    match values, h with
    | [], _ | [_], _ => exact .inl (by simp)
    | a :: b :: rest, h =>
      have hother : ∀ v ∈ b :: rest, a.Comparable v := fun _ => List.rel_of_pairwise_cons h
      have hab := hother b List.mem_cons_self
      have haa : a.Comparable a := (comparable_congr rfl (comparable_iff.1 hab).1.symm).1 hab
      exact .inr (oneSort_of_comparable haa (List.forall_mem_cons.2 ⟨haa, hother⟩))
  · rintro (hfew | hsort)
    · rcases values with _ | ⟨x, _ | ⟨y, rest⟩⟩
      · exact .nil
      · exact List.pairwise_singleton _ x
      · exact absurd hfew (by simp)
    · exact List.pairwise_of_forall_mem_list fun x hx y hy => hsort.comparable hx hy

/-! ## Preferred values -/

/-- The order of two values in the other direction. -/
lemma compare_swapped (a b : Scalar) : a.compare b = (b.compare a).swap :=
  Std.OrientedCmp.eq_swap

/-- What is preferred to a value is preferred to all values that are not. -/
lemma compare_eq_of_not (hpreferred : preferred ≠ .eq) (hab : a.compare b = preferred)
    (hcb : c.compare b ≠ preferred) : a.compare c = preferred := by
  rw [compare_swapped c b] at hcb
  cases preferred with
  | lt =>
    refine Std.TransCmp.lt_of_lt_of_isLE hab (Ordering.isLE_iff_ne_gt.2 fun hgt => ?_)
    rw [hgt] at hcb
    exact hcb rfl
  | eq => exact absurd rfl hpreferred
  | gt =>
    refine Std.TransCmp.gt_of_gt_of_isGE hab (Ordering.isGE_iff_ne_lt.2 fun hlt => ?_)
    rw [hlt] at hcb
    exact hcb rfl

/-- No value is preferred both ways. -/
lemma compare_ne_of_eq (hpreferred : preferred ≠ .eq) (hab : a.compare b = preferred) :
    b.compare a ≠ preferred := by
  rw [compare_swapped b a, hab]
  cases preferred with
  | lt | gt => exact nofun
  | eq => exact absurd rfl hpreferred

/-- No value is preferred to itself. -/
lemma compare_self_ne (hpreferred : preferred ≠ .eq) (a : Scalar) : a.compare a ≠ preferred := by
  have hself : a.compare a = .eq := Std.ReflCmp.compare_self
  rw [hself]
  exact hpreferred.symm

/-- Values of which neither is preferred are equal. -/
lemma compare_eq_of_ne (hpreferred : preferred ≠ .eq) (hab : a.compare b ≠ preferred)
    (hba : b.compare a ≠ preferred) : a.compare b = .eq := by
  rw [compare_swapped b a] at hba
  cases hcompare : a.compare b with
  | eq => rfl
  | lt | gt => cases preferred <;> simp_all

/-- The first value to which none is preferred: it is preferred to those before it, and none of
those after it is preferred to it. -/
def FirstExtreme (preferred : Ordering) (values : List Scalar) (x : Scalar) : Prop :=
  ∃ before after, values = before ++ x :: after ∧ (∀ y ∈ before, x.compare y = preferred) ∧
    ∀ y ∈ after, y.compare x ≠ preferred

/-- A single value is extreme. -/
lemma firstExtreme_singleton (preferred : Ordering) (x : Scalar) :
    FirstExtreme preferred [x] x :=
  ⟨[], [], rfl, fun _ h => absurd h List.not_mem_nil, fun _ h => absurd h List.not_mem_nil⟩

/-- The extreme value is one of the values. -/
lemma FirstExtreme.mem (h : FirstExtreme preferred values x) : x ∈ values := by
  obtain ⟨before, after, rfl, -, -⟩ := h
  exact List.mem_append_right _ List.mem_cons_self

/-- No value is preferred to the extreme one. -/
lemma FirstExtreme.not_preferred (h : FirstExtreme preferred values x)
    (hpreferred : preferred ≠ .eq) : ∀ y ∈ values, y.compare x ≠ preferred := by
  obtain ⟨before, after, rfl, hbefore, hafter⟩ := h
  intro y hy
  rcases List.mem_append.1 hy with hy | hy
  · exact compare_ne_of_eq hpreferred (hbefore y hy)
  · rcases List.mem_cons.1 hy with rfl | hy
    · exact compare_self_ne hpreferred y
    · exact hafter y hy

/-- A further value that is preferred to the extreme one takes its place. -/
lemma FirstExtreme.concat_preferred (h : FirstExtreme preferred values x)
    (hpreferred : preferred ≠ .eq) (hyx : y.compare x = preferred) :
    FirstExtreme preferred (values ++ [y]) y :=
  ⟨values, [], rfl, fun z hz => compare_eq_of_not hpreferred hyx (h.not_preferred hpreferred z hz),
    fun _ hz => absurd hz List.not_mem_nil⟩

/-- A further value that is not preferred to the extreme one leaves it in its place. -/
lemma FirstExtreme.concat (h : FirstExtreme preferred values x) (hyx : y.compare x ≠ preferred) :
    FirstExtreme preferred (values ++ [y]) x := by
  obtain ⟨before, after, rfl, hbefore, hafter⟩ := h
  refine ⟨before, after ++ [y], by rw [List.append_assoc, List.cons_append], hbefore, ?_⟩
  exact List.forall_mem_append.2 ⟨hafter, List.forall_mem_singleton.2 hyx⟩

end Scalar

namespace AggregateKind

open Scalar (Comparable FirstExtreme)

variable {kind : AggregateKind} {preferred : Ordering} {values : List Scalar}

/-- The better of two values, if they can be ordered. -/
lemma better_meets (kind : AggregateKind) (preferred : Ordering) (old new : Scalar) :
    Meets
      (fun best => new.Comparable old ∧
        best = if new.compare old = preferred then new else old)
      (fun e => ¬ new.Comparable old ∧ e = Scalar.mismatch kind.name new old)
      (better kind preferred old new) := by
  unfold better Scalar.compareWithin Comparable
  by_cases h : new.kind.comparable old.kind = true
  · rw [if_pos h]
    exact ⟨h, rfl⟩
  · rw [if_neg h]
    exact ⟨h, rfl⟩

/-- The last value is compared with the extreme one of those before it. -/
lemma extreme_concat (kind : AggregateKind) (preferred : Ordering) (h : values ≠ [])
    (last : Scalar) :
    extreme kind preferred (values ++ [last]) =
      extreme kind preferred values >>= fun best => better kind preferred best last := by
  obtain ⟨first, rest, rfl⟩ := List.exists_cons_of_ne_nil h
  rw [List.cons_append, extreme, extreme, List.foldlM_append]
  refine congrArg _ (funext fun best => ?_)
  rw [List.foldlM_cons]
  exact bind_pure _

/-- The search for an extreme value finds the first to which none is preferred. It fails if there
is no value, and if two values cannot be ordered. -/
theorem extreme_meets_first (kind : AggregateKind) (hpreferred : preferred ≠ .eq)
    (values : List Scalar) :
    Meets (fun x => values.Pairwise Comparable ∧ FirstExtreme preferred values x)
      (fun e => values = [] ∧ e = .emptyGroup kind ∨
        ¬ values.Pairwise Comparable ∧ ∃ a b, e = Scalar.mismatch kind.name a b)
      (extreme kind preferred values) := by
  induction values using List.reverseRecOn with
  | nil => exact .inl ⟨rfl, rfl⟩
  | append_singleton values last ih =>
    by_cases hnil : values = []
    · subst hnil
      exact ⟨List.pairwise_singleton _ _, Scalar.firstExtreme_singleton preferred last⟩
    rw [extreme_concat kind preferred hnil]
    refine Meets.bind (ih.imp_error ?_) fun best ⟨hvalues, hbest⟩ => ?_
    · rintro e (⟨hempty, -⟩ | ⟨hvalues, hmismatch⟩)
      · exact absurd hempty hnil
      · exact .inr ⟨fun hall => hvalues (List.pairwise_append.1 hall).1, hmismatch⟩
    · have hall := @Scalar.pairwise_concat_iff best last values hvalues hbest.mem
      refine (better_meets kind preferred best last).mono ?_ ?_
      · rintro x ⟨hcomparable, rfl⟩
        refine ⟨hall.2 hcomparable, ?_⟩
        by_cases hlast : last.compare best = preferred
        · rw [if_pos hlast]
          exact hbest.concat_preferred hpreferred hlast
        · rw [if_neg hlast]
          exact hbest.concat hlast
      · rintro e ⟨hcomparable, rfl⟩
        exact .inr ⟨mt hall.1 hcomparable, last, best, rfl⟩

/-- There is an extreme value exactly if there are values and all of them can be ordered. -/
lemma exists_extreme_iff (kind : AggregateKind) (hpreferred : preferred ≠ .eq) :
    (∃ x, extreme kind preferred values = .ok x) ↔
      values ≠ [] ∧ values.Pairwise Comparable := by
  have hmeets := extreme_meets_first kind hpreferred values
  cases hx : extreme kind preferred values with
  | ok x =>
    obtain ⟨hall, hextreme⟩ := hmeets.of_ok hx
    exact iff_of_true ⟨x, rfl⟩ ⟨List.ne_nil_of_mem hextreme.mem, hall⟩
  | error e =>
    refine iff_of_false (fun ⟨_, hok⟩ => nomatch hok) ?_
    rintro ⟨hne, hall⟩
    rcases hmeets.of_error hx with ⟨hempty, -⟩ | ⟨hnot, -⟩
    · exact hne hempty
    · exact hnot hall

/-- A search that fails has no value to begin with, or two that cannot be ordered. -/
lemma extreme_error (hpreferred : preferred ≠ .eq) {e : Error}
    (h : extreme kind preferred values = .error e) :
    values = [] ∧ e = .emptyGroup kind ∨
      values ≠ [] ∧ ∃ left right, e = .typeMismatch kind.name left right := by
  rcases (extreme_meets_first kind hpreferred values).of_error h with hempty | ⟨hnot, a, b, he⟩
  · exact .inl hempty
  · refine .inr ⟨?_, a.kind, b.kind, he⟩
    rintro rfl
    exact hnot .nil

/-- Values in another order have an equal extreme value, or none for reasons of one sort. -/
lemma extreme_perm (kind : AggregateKind) (hpreferred : preferred ≠ .eq) {other : List Scalar}
    (hperm : other.Perm values) :
    Corresponds (fun a b => a.compare b = .eq) Error.SameKind (extreme kind preferred values)
      (extreme kind preferred other) := by
  have hnil : values = [] ↔ other = [] :=
    ⟨fun h => (h ▸ hperm).eq_nil, fun h => (h ▸ hperm.symm).eq_nil⟩
  have hresults : (∃ x, extreme kind preferred values = .ok x) ↔
      ∃ y, extreme kind preferred other = .ok y := by
    rw [exists_extreme_iff kind hpreferred, exists_extreme_iff kind hpreferred, Ne, hnil,
      hperm.pairwise_iff Comparable.symm]
  cases hx : extreme kind preferred values with
  | ok x =>
    obtain ⟨y, hy⟩ := hresults.1 ⟨x, hx⟩
    rw [hy]
    -- Each of the two results is among the values of which the other is extreme.
    obtain ⟨-, hxfirst⟩ := (extreme_meets_first kind hpreferred values).of_ok hx
    obtain ⟨-, hyfirst⟩ := (extreme_meets_first kind hpreferred other).of_ok hy
    exact .ok (Scalar.compare_eq_of_ne hpreferred
      (hyfirst.not_preferred hpreferred x (hperm.mem_iff.2 hxfirst.mem))
      (hxfirst.not_preferred hpreferred y (hperm.mem_iff.1 hyfirst.mem)))
  | error d =>
    cases hy : extreme kind preferred other with
    | ok y =>
      obtain ⟨x, hok⟩ := hresults.2 ⟨y, hy⟩
      cases hx.symm.trans hok
    | error e =>
      refine .error ?_
      rcases extreme_error hpreferred hx with ⟨hvalues, rfl⟩ | ⟨hvalues, _, _, rfl⟩ <;>
        rcases extreme_error hpreferred hy with ⟨hother, rfl⟩ | ⟨hother, _, _, rfl⟩
      · rfl
      · exact absurd (hnil.1 hvalues) hother
      · exact absurd (hnil.2 hother) hvalues
      · rfl

/-! ## Least and greatest values -/

/-- A kind of aggregate fails exactly on no values and on values that cannot all be ordered, and
otherwise finds the first value that is extreme in the preferred direction. -/
structure FindsExtreme (kind : AggregateKind) (preferred : Ordering) (values : List Scalar) :
    Prop where
  /-- Only no values are an empty group. -/
  emptyGroup_iff : kind.reduce values = .error (.emptyGroup kind) ↔ values = []
  /-- Two or more values have to be of one sort. -/
  typeMismatch_iff :
    (∃ left right, kind.reduce values = .error (.typeMismatch kind.name left right)) ↔
      2 ≤ values.length ∧ ¬ Scalar.OneSort values
  /-- Otherwise the result is the first of the extreme values, so one of the values, and no value
  lies further in the preferred direction. -/
  found : values ≠ [] → ¬ (2 ≤ values.length ∧ ¬ Scalar.OneSort values) →
    ∃ x, kind.reduce values = .ok x ∧ FirstExtreme preferred values x ∧ x ∈ values ∧
      ∀ y ∈ values, x.compare y = preferred ∨ x.compare y = .eq
  /-- Values in another order have an equal result, or fail alike. -/
  perm : ∀ other : List Scalar, other.Perm values →
    Corresponds (fun a b => a.compare b = .eq) Error.SameKind (kind.reduce values)
      (kind.reduce other)

/-- A kind that searches for an extreme value finds it. -/
lemma findsExtreme_of_reduce_eq (hpreferred : preferred ≠ .eq)
    (hreduce : ∀ values, kind.reduce values = extreme kind preferred values)
    (values : List Scalar) : FindsExtreme kind preferred values := by
  have hpairwise : ¬ (2 ≤ values.length ∧ ¬ Scalar.OneSort values) ↔
      values.Pairwise Comparable := by
    rw [Scalar.pairwise_comparable_iff, not_and_or, not_le, not_not]
  refine ⟨?emptyGroup, ?typeMismatch, ?found, ?perm⟩
  case emptyGroup =>
    rw [hreduce]
    constructor
    · intro h
      rcases extreme_error hpreferred h with ⟨hempty, -⟩ | ⟨-, _, _, he⟩
      · exact hempty
      · cases he
    · rintro rfl
      rfl
  case typeMismatch =>
    rw [hreduce, ← not_iff_not, hpairwise]
    constructor
    · intro h
      cases hx : extreme kind preferred values with
      | ok x => exact ((exists_extreme_iff kind hpreferred).1 ⟨x, hx⟩).2
      | error e =>
        rcases extreme_error hpreferred hx with ⟨rfl, -⟩ | ⟨-, left, right, rfl⟩
        · exact .nil
        · exact absurd ⟨left, right, hx⟩ h
    · rintro hall ⟨left, right, h⟩
      rcases (extreme_meets_first kind hpreferred values).of_error h with ⟨-, he⟩ | ⟨hnot, -⟩
      · cases he
      · exact hnot hall
  case found =>
    intro hne hsort
    obtain ⟨x, hx⟩ := (exists_extreme_iff kind hpreferred).2 ⟨hne, hpairwise.1 hsort⟩
    obtain ⟨-, hfirst⟩ := (extreme_meets_first kind hpreferred values).of_ok hx
    refine ⟨x, (hreduce values).trans hx, hfirst, hfirst.mem, fun y hy => ?_⟩
    by_cases hxy : x.compare y = preferred
    · exact .inl hxy
    · exact .inr (Scalar.compare_eq_of_ne hpreferred hxy (hfirst.not_preferred hpreferred y hy))
  case perm =>
    intro other hperm
    rw [hreduce, hreduce]
    exact extreme_perm kind hpreferred hperm

/-- The least value of a list is the first of the least ones and the greatest the first of the
greatest ones, in whatever order the values come, and they fail only where the values are none or
cannot all be ordered. -/
theorem min_max_find_extremes (values : List Scalar) :
    FindsExtreme min .lt values ∧ FindsExtreme max .gt values :=
  ⟨findsExtreme_of_reduce_eq (by decide) (fun _ => rfl) values,
    findsExtreme_of_reduce_eq (by decide) (fun _ => rfl) values⟩

end AggregateKind

end RelationalAlgebra
