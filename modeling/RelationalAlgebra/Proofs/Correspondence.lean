import RelationalAlgebra.Proofs.Outcome

/-!
# What is said about two outcomes

Some properties are about two runs of an operation: on two inputs that are equal, or on an input
and a renamed copy of it.  `Corresponds same alike` says of two outcomes that both are results,
related by `same`, or both are errors, related by `alike`.  So it says at once that one run fails
exactly if the other does, and how what they return is related.  The rules are those for one
outcome, read for two runs in step.
-/

namespace RelationalAlgebra

/-- Two outcomes are two results that are related, or two errors that are. -/
inductive Corresponds {α β : Type} (same : α → β → Prop) (alike : Error → Error → Prop) :
    Except Error α → Except Error β → Prop
  | ok {a : α} {b : β} (h : same a b) : Corresponds same alike (.ok a) (.ok b)
  | error {d e : Error} (h : alike d e) : Corresponds same alike (.error d) (.error e)

namespace Corresponds

variable {α β γ δ : Type} {same : α → β → Prop} {same' : γ → δ → Prop}
  {alike : Error → Error → Prop} {x : Except Error α} {y : Except Error β}

/-- An outcome corresponds to itself if results and errors are related to themselves. -/
lemma refl {same : α → α → Prop} (hsame : ∀ a, same a a) (halike : ∀ e, alike e e)
    (x : Except Error α) : Corresponds same alike x x := by
  cases x with
  | ok a => exact .ok (hsame a)
  | error e => exact .error (halike e)

/-- Outcomes correspond, whatever their errors, if one is a result exactly if the other is and
results are related. -/
lemma of_exists_iff (hresults : (∃ a, x = .ok a) ↔ ∃ b, y = .ok b)
    (hsame : ∀ a b, x = .ok a → y = .ok b → same a b) :
    Corresponds same (fun _ _ => True) x y := by
  cases x with
  | ok a =>
    obtain ⟨b, rfl⟩ := hresults.1 ⟨a, rfl⟩
    exact .ok (hsame a b rfl rfl)
  | error d =>
    cases y with
    | ok b =>
      obtain ⟨a, ha⟩ := hresults.2 ⟨b, rfl⟩
      cases ha
    | error e => exact .error trivial

/-- Outcomes that correspond do so for weaker relations. -/
lemma mono {weaker : α → β → Prop} {alike' : Error → Error → Prop}
    (h : Corresponds same alike x y) (hsame : ∀ a b, same a b → weaker a b)
    (halike : ∀ d e, alike d e → alike' d e) : Corresponds weaker alike' x y := by
  cases h with
  | ok h => exact .ok (hsame _ _ h)
  | error h => exact .error (halike _ _ h)

/-- Two operations that go on with results that are related. -/
lemma bind {next : α → Except Error γ} {next' : β → Except Error δ}
    (h : Corresponds same alike x y)
    (hnext : ∀ a b, same a b → Corresponds same' alike (next a) (next' b)) :
    Corresponds same' alike (x >>= next) (y >>= next') := by
  cases h with
  | ok h => exact hnext _ _ h
  | error h => exact .error h

/-- Two operations that change results that are related. -/
lemma map {f : α → γ} {g : β → δ} (h : Corresponds same alike x y)
    (hfg : ∀ a b, same a b → same' (f a) (g b)) :
    Corresponds same' alike (x.map f) (y.map g) := by
  cases h with
  | ok h => exact .ok (hfg _ _ h)
  | error h => exact .error h

/-- Two operations along lists, in step: the results correspond one by one. -/
lemma mapM {f : α → Except Error γ} {g : β → Except Error δ} {xs : List α} {ys : List β}
    (h : List.Forall₂ (fun a b => Corresponds same' alike (f a) (g b)) xs ys) :
    Corresponds (List.Forall₂ same') alike (xs.mapM f) (ys.mapM g) := by
  induction h with
  | nil => exact .ok .nil
  | cons hab _ ih =>
    rw [List.mapM_cons, List.mapM_cons]
    exact hab.bind fun c d hcd => ih.bind fun cs ds hrest => .ok (.cons hcd hrest)

/-- Two operations along a list and its image, in step: if they return the same for each element,
they return the same list. -/
lemma mapM_map {f : α → Except Error γ} {g : β → Except Error γ} {image : α → β} {xs : List α}
    (h : ∀ x ∈ xs, Corresponds (· = ·) alike (f x) (g (image x))) :
    Corresponds (· = ·) alike (xs.mapM f) ((xs.map image).mapM g) := by
  have hmapM : Corresponds (List.Forall₂ fun c d : γ => c = d) alike (xs.mapM f)
      ((xs.map image).mapM g) :=
    mapM (List.forall₂_map_right_iff.2 (List.forall₂_same.2 h))
  rwa [List.forall₂_eq_eq_eq] at hmapM

/-- Two operations along lists that go on with their last results, in step: a relation that holds
at the start and is kept by every step holds at the end. -/
lemma foldlM {f : γ → α → Except Error γ} {g : δ → β → Except Error δ} {xs : List α} {ys : List β}
    {c : γ} {d : δ} (hlists : List.Forall₂ same xs ys) (hstart : same' c d)
    (hstep : ∀ c d a b, same' c d → same a b → Corresponds same' alike (f c a) (g d b)) :
    Corresponds same' alike (xs.foldlM f c) (ys.foldlM g d) := by
  induction hlists generalizing c d with
  | nil => exact .ok hstart
  | cons hab _ ih =>
    rw [List.foldlM_cons, List.foldlM_cons]
    exact (hstep c d _ _ hstart hab).bind fun c' d' hkept => ih hkept

/-- What corresponds to a result is a result. -/
lemma exists_ok {a : α} (h : Corresponds same alike (.ok a) y) : ∃ b, y = .ok b ∧ same a b := by
  cases h with
  | ok h => exact ⟨_, rfl, h⟩

/-- What corresponds to an error is an error. -/
lemma exists_error {d : Error} (h : Corresponds same alike (.error d) y) :
    ∃ e, y = .error e ∧ alike d e := by
  cases h with
  | error h => exact ⟨_, rfl, h⟩

end Corresponds

end RelationalAlgebra
