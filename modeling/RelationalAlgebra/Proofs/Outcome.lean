import Mathlib.Data.List.Forall2
import RelationalAlgebra.Error

/-!
# What is said about an outcome

Operations have an outcome: a result or an error.  `Meets good bad` says that the result has the
property `good` and that the error has the property `bad`, so one statement about an operation
says both what it makes and how it can fail.  The rules below follow the ways in which operations
are put together: in sequence, along a list, and by a change of the result.
-/

namespace RelationalAlgebra

section

variable {α β : Type}

/-- What is related to some list element by element is related to one of its elements. -/
lemma exists_of_forall₂ {related : α → β → Prop} {xs : List α} {ys : List β}
    (h : List.Forall₂ related xs ys) {y : β} (hy : y ∈ ys) : ∃ x ∈ xs, related x y := by
  induction h with
  | nil => exact absurd hy List.not_mem_nil
  | @cons x z xs ys hxz _ ih =>
    rcases List.mem_cons.1 hy with rfl | hrest
    · exact ⟨x, List.mem_cons_self, hxz⟩
    · obtain ⟨w, hw, hrelated⟩ := ih hrest
      exact ⟨w, List.mem_cons_of_mem x hw, hrelated⟩

/-- A relation along two lists may use that the elements belong to the first one. -/
lemma forall₂_imp_of_mem {related weaker : α → β → Prop} {xs : List α} {ys : List β}
    (h : List.Forall₂ related xs ys) (himp : ∀ x ∈ xs, ∀ y, related x y → weaker x y) :
    List.Forall₂ weaker xs ys := by
  induction h with
  | nil => exact .nil
  | @cons x y xs ys hxy _ ih =>
    refine .cons (himp x List.mem_cons_self y hxy) (ih fun z hz => ?_)
    exact himp z (List.mem_cons_of_mem x hz)

/-- What is related element by element is related on elements of the two lists. -/
lemma forall₂_with_mem {related : α → β → Prop} {xs : List α} {ys : List β}
    (h : List.Forall₂ related xs ys) :
    List.Forall₂ (fun x y => x ∈ xs ∧ y ∈ ys ∧ related x y) xs ys := by
  have hleft := forall₂_imp_of_mem h fun x hx y hxy => And.intro hx hxy
  have hboth := forall₂_imp_of_mem hleft.flip fun y hy x hxy =>
    And.intro hxy.1 (And.intro hy hxy.2)
  exact hboth.flip

/-- What is related to some list element by element is related to the element at each position. -/
lemma getElem?_of_forall₂ {related : α → β → Prop} {xs : List α} {ys : List β}
    (h : List.Forall₂ related xs ys) {i : Nat} {x : α} (hx : xs[i]? = some x) :
    ∃ y, ys[i]? = some y ∧ related x y := by
  induction h generalizing i with
  | nil => cases hx
  | @cons w y xs ys hwy _ ih =>
    cases i with
    | zero =>
      obtain rfl : w = x := Option.some.inj hx
      exact ⟨y, rfl, hwy⟩
    | succ i => exact ih hx

/-- What is related to the same list element by element is related through its elements. -/
lemma forall₂_of_common {γ : Type} {related : α → β → Prop} {related' : α → γ → Prop}
    {xs : List α} {ys : List β} {zs : List γ} (h : List.Forall₂ related xs ys)
    (h' : List.Forall₂ related' xs zs) :
    List.Forall₂ (fun y z => ∃ x ∈ xs, related x y ∧ related' x z) ys zs := by
  induction h generalizing zs with
  | nil =>
    cases h'
    exact .nil
  | @cons x y xs ys hxy _ ih =>
    cases h' with
    | @cons _ z _ zs hxz hrest =>
      refine .cons ⟨x, List.mem_cons_self, hxy, hxz⟩ ((ih hrest).imp ?_)
      rintro y' z' ⟨x', hx', hrelated⟩
      exact ⟨x', List.mem_cons_of_mem x hx', hrelated⟩

/-- An operation that goes on with a result is given that result. -/
lemma ok_bind (a : α) (next : α → Except Error β) : (Except.ok a >>= next) = next a := rfl

/-- An operation that goes on with a result is not reached after an error. -/
lemma error_bind (e : Error) (next : α → Except Error β) :
    (Except.error e >>= next) = .error e := rfl

/-- A change of the result leaves an error alone. -/
lemma map_eq_error_iff {f : α → β} {outcome : Except Error α} {e : Error} :
    outcome.map f = .error e ↔ outcome = .error e := by
  cases outcome with
  | ok a => exact iff_of_false nofun nofun
  | error d => rw [Except.map, Except.error.injEq, Except.error.injEq]

/-- A result has one property, and an error another one. -/
def Meets (good : α → Prop) (bad : Error → Prop) : Except Error α → Prop
  | .ok a => good a
  | .error e => bad e

namespace Meets

variable {good : α → Prop} {bad : Error → Prop} {outcome : Except Error α}

/-- What holds of all results and of all errors is met by every outcome. -/
lemma of_forall (hgood : ∀ a, good a) (hbad : ∀ e, bad e) : Meets good bad outcome := by
  cases outcome with
  | ok a => exact hgood a
  | error e => exact hbad e

/-- Weaker properties are met by the same outcome. -/
lemma mono {good' : α → Prop} {bad' : Error → Prop} (h : Meets good bad outcome)
    (hgood : ∀ a, good a → good' a) (hbad : ∀ e, bad e → bad' e) :
    Meets good' bad' outcome := by
  cases outcome with
  | ok a => exact hgood a h
  | error e => exact hbad e h

/-- A weaker property of the result. -/
lemma imp_ok {good' : α → Prop} (h : Meets good bad outcome) (hgood : ∀ a, good a → good' a) :
    Meets good' bad outcome :=
  h.mono hgood fun _ he => he

/-- A weaker property of the error. -/
lemma imp_error {bad' : Error → Prop} (h : Meets good bad outcome)
    (hbad : ∀ e, bad e → bad' e) : Meets good bad' outcome :=
  h.mono (fun _ ha => ha) hbad

/-- An operation that goes on with the result of another one. -/
lemma bind {next : α → Except Error β} {good' : β → Prop} (h : Meets good bad outcome)
    (hnext : ∀ a, good a → Meets good' bad (next a)) : Meets good' bad (outcome >>= next) := by
  cases outcome with
  | ok a => exact hnext a h
  | error e => exact h

/-- An operation that goes on with the result of another one, which cannot fail. -/
lemma bind_of_not {next : α → Except Error β} {good' : β → Prop} {bad' : Error → Prop}
    (h : Meets good bad outcome) (hbad : ∀ e, ¬ bad e)
    (hnext : ∀ a, good a → Meets good' bad' (next a)) : Meets good' bad' (outcome >>= next) :=
  (h.imp_error fun e he => absurd he (hbad e)).bind hnext

/-- An operation that changes the result of another one. -/
lemma map {f : α → β} {good' : β → Prop} (h : Meets good bad outcome)
    (hf : ∀ a, good a → good' (f a)) : Meets good' bad (outcome.map f) := by
  cases outcome with
  | ok a => exact hf a h
  | error e => exact h

/-- An operation along a list: each result belongs to its own element. -/
lemma mapM {f : α → Except Error β} {related : α → β → Prop} {xs : List α}
    (h : ∀ x ∈ xs, Meets (related x) bad (f x)) :
    Meets (fun ys => List.Forall₂ related xs ys) bad (xs.mapM f) := by
  induction xs with
  | nil => exact List.Forall₂.nil
  | cons x xs ih =>
    rw [List.mapM_cons]
    refine (h x List.mem_cons_self).bind fun y hy => ?_
    refine (ih fun z hz => h z (List.mem_cons_of_mem x hz)).bind fun ys hys => ?_
    exact List.Forall₂.cons hy hys

/-- An operation along a list has as many results as the list has elements. -/
lemma mapM_length {f : α → Except Error β} {xs : List α}
    (h : ∀ x ∈ xs, Meets (fun _ => True) bad (f x)) :
    Meets (fun ys => ys.length = xs.length) bad (xs.mapM f) := by
  have hmapM : Meets (fun ys => List.Forall₂ (fun _ _ => True) xs ys) bad (xs.mapM f) := mapM h
  exact hmapM.imp_ok fun _ hys => hys.length_eq.symm

/-- What every result of an operation has, all results along a list have. -/
lemma mapM_forall {f : α → Except Error β} {good : β → Prop} {xs : List α}
    (h : ∀ x ∈ xs, Meets good bad (f x)) :
    Meets (fun ys => ∀ y ∈ ys, good y) bad (xs.mapM f) := by
  have hmapM : Meets (fun ys => List.Forall₂ (fun _ y => good y) xs ys) bad (xs.mapM f) := mapM h
  refine hmapM.imp_ok fun ys hys y hy => ?_
  obtain ⟨x, -, hgood⟩ := exists_of_forall₂ hys hy
  exact hgood

/-- What an operation that succeeds guarantees about its input, an operation along a list
guarantees about all elements. -/
lemma mapM_inputs {f : α → Except Error β} {good : α → Prop} {xs : List α}
    (h : ∀ x ∈ xs, Meets (fun _ => good x) bad (f x)) :
    Meets (fun _ => ∀ x ∈ xs, good x) bad (xs.mapM f) := by
  have hmapM : Meets (fun ys => List.Forall₂ (fun x _ => good x) xs ys) bad (xs.mapM f) := mapM h
  refine hmapM.imp_ok fun ys hys x hx => ?_
  obtain ⟨y, -, hgood⟩ := exists_of_forall₂ hys.flip hx
  exact hgood

/-- An operation along a list that goes on with its last result: what holds at the start and is
kept by every step holds at the end. -/
lemma foldlM {f : β → α → Except Error β} {kept : β → Prop} {xs : List α} {b : β} (hb : kept b)
    (h : ∀ c x, kept c → Meets kept bad (f c x)) : Meets kept bad (xs.foldlM f b) := by
  induction xs generalizing b with
  | nil => exact hb
  | cons x xs ih =>
    rw [List.foldlM_cons]
    exact (h b x hb).bind fun c hc => ih hc

/-- An operation that cannot fail has a result. -/
lemma exists_ok (h : Meets good bad outcome) (hbad : ∀ e, ¬ bad e) :
    ∃ a, outcome = .ok a ∧ good a := by
  cases outcome with
  | ok a => exact ⟨a, rfl, h⟩
  | error e => exact absurd h (hbad e)

/-- The property of a result. -/
lemma of_ok (h : Meets good bad outcome) {a : α} (ha : outcome = .ok a) : good a := by
  subst ha
  exact h

/-- The property of an error. -/
lemma of_error (h : Meets good bad outcome) {e : Error} (he : outcome = .error e) : bad e := by
  subst he
  exact h

end Meets

/-! ## Operations along a list -/

/-- Operations that have the same outcome on every element have the same outcome along a list. -/
lemma mapM_congr {f g : α → Except Error β} {xs : List α} (h : ∀ x ∈ xs, f x = g x) :
    xs.mapM f = xs.mapM g := by
  induction xs with
  | nil => rfl
  | cons x xs ih =>
    obtain ⟨hx, hxs⟩ := List.forall_mem_cons.1 h
    rw [List.mapM_cons, List.mapM_cons, hx, ih hxs]

/-- An operation along a list succeeds if it does on every element. -/
lemma mapM_eq_ok_iff {f : α → Except Error β} {xs : List α} {ys : List β} :
    xs.mapM f = .ok ys ↔ List.Forall₂ (fun x y => f x = .ok y) xs ys := by
  constructor
  · intro h
    have hmapM : Meets (fun ys => List.Forall₂ (fun x y => f x = .ok y) xs ys) (fun _ => True)
        (xs.mapM f) := by
      refine Meets.mapM fun x _ => ?_
      cases f x with
      | ok y => exact rfl
      | error e => trivial
    exact hmapM.of_ok h
  · intro h
    induction h with
    | nil => rfl
    | cons hxy _ ih =>
      rw [List.mapM_cons, hxy, ih]
      rfl

/-- An operation along a list has results exactly if it has one on every element. -/
lemma exists_mapM_eq_ok_iff {f : α → Except Error β} {xs : List α} :
    (∃ ys, xs.mapM f = .ok ys) ↔ ∀ x ∈ xs, ∃ y, f x = .ok y := by
  constructor
  · rintro ⟨ys, hys⟩ x hx
    obtain ⟨y, -, hy⟩ := exists_of_forall₂ (mapM_eq_ok_iff.1 hys).flip hx
    exact ⟨y, hy⟩
  · intro h
    have hmeets : Meets (fun _ => True) (fun _ => False) (xs.mapM f) := by
      refine (Meets.mapM_length fun x hx => ?_).imp_ok fun _ _ => trivial
      obtain ⟨y, hy⟩ := h x hx
      rw [hy]
      trivial
    obtain ⟨ys, hys, -⟩ := hmeets.exists_ok fun _ => not_false
    exact ⟨ys, hys⟩

/-- An operation along a list fails with the error of the first element on which it does. -/
lemma mapM_eq_error_iff {f : α → Except Error β} {xs : List α} {e : Error} :
    xs.mapM f = .error e ↔ ∃ before x after, xs = before ++ x :: after ∧
      (∀ y ∈ before, ∃ b, f y = .ok b) ∧ f x = .error e := by
  constructor
  · intro h
    induction xs with
    | nil => cases h
    | cons x xs ih =>
      rw [List.mapM_cons] at h
      cases hx : f x with
      | error d =>
        rw [hx] at h
        obtain rfl : d = e := Except.error.inj h
        exact ⟨[], x, xs, rfl, fun y hy => absurd hy List.not_mem_nil, hx⟩
      | ok b =>
        rw [hx, ok_bind] at h
        cases hrest : xs.mapM f with
        | ok bs =>
          rw [hrest] at h
          cases h
        | error d =>
          rw [hrest] at h
          obtain rfl : d = e := Except.error.inj h
          obtain ⟨before, y, after, rfl, hbefore, hy⟩ := ih hrest
          refine ⟨x :: before, y, after, rfl, fun z hz => ?_, hy⟩
          rcases List.mem_cons.1 hz with rfl | hz
          · exact ⟨b, hx⟩
          · exact hbefore z hz
  · rintro ⟨before, x, after, rfl, hbefore, hx⟩
    induction before with
    | nil =>
      rw [List.nil_append, List.mapM_cons, hx]
      rfl
    | cons y before ih =>
      obtain ⟨b, hb⟩ := hbefore y List.mem_cons_self
      rw [List.cons_append, List.mapM_cons, hb, ok_bind,
        ih fun z hz => hbefore z (List.mem_cons_of_mem y hz)]
      rfl

end

end RelationalAlgebra
