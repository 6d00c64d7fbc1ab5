import RelationalAlgebra.Decimal.Layout
import RelationalAlgebra.Proofs.Date.Text

/-!
# Numerals read back

A numeral is read back from its text if it has a whole digit and no superfluous zero in front.
All numerals that are written are such: those of integers, since the digits of a positive number do
not start with a zero, and those of floating-point numbers in every layout, since a point never
stands before the leading digit without a zero of its own.
-/

namespace RelationalAlgebra.Decimal

/-! ## Groups of digits -/

/-- A digit is none of the signs and marks of a numeral. -/
lemma Digit.char_ne (d : Digit) : d.char ≠ '-' ∧ d.char ≠ '+' ∧ d.char ≠ '.' := by
  revert d
  decide

/-- All digits in front of a text without more of them are taken. -/
lemma leadingDigits_append (ds : List Digit) {rest : List Char} (h : NoDigitNext rest) :
    leadingDigits (ds.map Digit.char ++ rest) = (ds, rest) := by
  rw [leadingDigits]
  exact splitDigits_append (by simp) (.inr h)

/-- A text of digits is taken as a whole. -/
lemma leadingDigits_map (ds : List Digit) : leadingDigits (ds.map Digit.char) = (ds, []) := by
  have hend : NoDigitNext [] := by simp [NoDigitNext]
  simpa using leadingDigits_append ds hend

/-- The digits of a positive number do not start with a zero. -/
lemma head?_digitsBefore {count n : Nat} (tail : List Digit) (hcount : n < count) (hn : 0 < n) :
    (digitsBefore tail count n).head? ≠ some .zero := by
  induction count generalizing n tail with
  | zero => exact absurd hcount (Nat.not_lt_zero n)
  | succ count ih =>
    rw [digitsBefore]
    split
    · intro hhead
      have hlast : lastDigit n = .zero := Option.some.inj hhead
      have hvalue : n % 10 = 0 := congrArg Fin.val hlast
      omega
    · exact ih _ (by omega) (by omega)

/-- Zero is the only number whose digits start with a zero. -/
lemma eq_zero_of_head?_digits {n : Nat} (h : (digits n).head? = some .zero) : n = 0 := by
  by_contra hn
  exact head?_digitsBefore [] (Nat.lt_succ_self n) (Nat.pos_of_ne_zero hn) h

/-! ## Texts of natural numbers -/

/-- The characters of the digits are those of base ten. -/
lemma map_char_digitsBefore {count n : Nat} (tail : List Digit) (hcount : n < count) :
    (digitsBefore tail count n).map Digit.char = Nat.toDigits 10 n ++ tail.map Digit.char := by
  have hchar : ∀ d : Digit, d.char = Nat.digitChar d := by decide
  induction count generalizing n tail with
  | zero => exact absurd hcount (Nat.not_lt_zero n)
  | succ count ih =>
    rw [digitsBefore]
    split
    case isTrue hn =>
      have hlast : (lastDigit n : Nat) = n := Nat.mod_eq_of_lt hn
      rw [Nat.toDigits_of_lt_base hn, List.map_cons, hchar, hlast, List.singleton_append]
    case isFalse hn =>
      have hlast : (lastDigit n : Nat) = n % 10 := rfl
      rw [ih _ (by omega), List.map_cons, hchar, hlast,
        Nat.toDigits_of_base_le (by decide) (Nat.le_of_not_lt hn), List.append_assoc,
        List.singleton_append]

/-- The decimal text of a number is that of the standard library. -/
lemma natText_eq_toList (n : Nat) : natText n = (toString n).toList := by
  rw [natText, digits, map_char_digitsBefore [] (Nat.lt_succ_self n), List.map_nil, List.append_nil]
  exact String.toList_ofList.symm

namespace Numeral

/-! ## Signs -/

/-- Reads an exponent after its sign. -/
def readExponentSize (negative : Bool) (s : List Char) : Option Int :=
  match leadingDigits s with
  | ([], _) => none
  | (ds, []) => some (if negative then -(ofDigits ds : Int) else ofDigits ds)
  | _ => none

/-- A sign of an exponent is read off. -/
lemma readExponent_sign (s : List Char) :
    readExponent ('-' :: s) = readExponentSize true s ∧
      readExponent ('+' :: s) = readExponentSize false s :=
  ⟨rfl, rfl⟩

/-- An exponent without a sign is read from its first digit on. -/
lemma readExponent_digit (d : Digit) (s : List Char) :
    readExponent (d.char :: s) = readExponentSize false (d.char :: s) := by
  obtain ⟨hminus, hplus, -⟩ := d.char_ne
  simp only [readExponent, hminus, hplus, List.cons.injEq, false_and, imp_self, implies_true]
  rfl

/-- Reads a numeral after its sign. -/
def readSize (negative : Bool) (s : List Char) : Option Numeral := do
  let (whole, s) := leadingDigits s
  if whole = [] ∨ (whole.head? = some .zero ∧ whole ≠ [.zero]) then none
  let (fraction, exponent) ← readTail s
  return ⟨negative, whole, fraction, exponent⟩

/-- The sign of a numeral is read off. -/
lemma ofText?_minus (s : List Char) : ofText? ('-' :: s) = readSize true s := rfl

/-- A numeral without a sign is read from its first digit on. -/
lemma ofText?_digit (d : Digit) (s : List Char) :
    ofText? (d.char :: s) = readSize false (d.char :: s) := by
  have hminus := d.char_ne.1
  simp [ofText?, readSize, hminus]

/-! ## Reading back -/

/-- A numeral has a whole digit, and starts with a zero only if that is the only one. -/
structure WellFormed (n : Numeral) : Prop where
  whole_ne_nil : n.whole ≠ []
  eq_of_head_zero : n.whole.head? = some .zero → n.whole = [.zero]

/-- The text of what follows the whole digits. -/
def tailText (plus : Bool) (n : Numeral) : List Char :=
  (if n.fraction.isEmpty then [] else '.' :: n.fraction.map Digit.char) ++
    (n.exponent.map (exponentText plus)).getD []

/-- The text of a numeral: a sign, the whole digits and what follows them. -/
lemma text_eq (plus : Bool) (n : Numeral) :
    n.text plus =
      (if n.negative then ['-'] else []) ++ (n.whole.map Digit.char ++ n.tailText plus) := by
  simp only [text, tailText, List.append_assoc]

/-- What follows digits in a numeral does not start with a digit. -/
lemma noDigitNext_exponent (plus : Bool) (exponent : Option Int) :
    NoDigitNext ((exponent.map (exponentText plus)).getD []) := by
  have hmark : Digit.ofChar? 'e' = none := by decide
  cases exponent with
  | none => simp [NoDigitNext]
  | some e => simp [NoDigitNext, exponentText, hmark]

/-- What follows the whole digits does not start with a digit. -/
lemma noDigitNext_tailText (plus : Bool) (n : Numeral) : NoDigitNext (n.tailText plus) := by
  have hpoint : Digit.ofChar? '.' = none := by decide
  unfold tailText
  cases hfraction : n.fraction with
  | nil => exact noDigitNext_exponent plus n.exponent
  | cons d ds => simp [NoDigitNext, hpoint]

/-- An exponent is read back after its mark. -/
lemma readExponent_append (plus : Bool) (e : Int) :
    readExponent ((if e < 0 then ['-'] else if plus then ['+'] else []) ++ natText e.natAbs) =
      some e := by
  have hsize : ∀ negative : Bool, readExponentSize negative (natText e.natAbs) =
      some (if negative then -(e.natAbs : Int) else e.natAbs) := by
    intro negative
    obtain ⟨d, ds, hds⟩ := List.exists_cons_of_ne_nil (digits_ne_nil e.natAbs)
    have hread := leadingDigits_map (digits e.natAbs)
    have hvalue := ofDigits_digits e.natAbs
    rw [natText, readExponentSize, hread]
    rw [hds] at hvalue ⊢
    rw [← hvalue]
  by_cases hneg : e < 0
  · rw [if_pos hneg, List.singleton_append, (readExponent_sign _).1, hsize, if_pos rfl]
    congr 1
    omega
  · have hvalue : (e.natAbs : Int) = e := by omega
    rw [if_neg hneg]
    cases plus with
    | true =>
      rw [if_pos rfl, List.singleton_append, (readExponent_sign _).2, hsize]
      exact congrArg some hvalue
    | false =>
      have hdigit :
          readExponent (natText e.natAbs) = readExponentSize false (natText e.natAbs) := by
        obtain ⟨d, ds, hds⟩ := List.exists_cons_of_ne_nil (digits_ne_nil e.natAbs)
        rw [natText, hds]
        exact readExponent_digit d _
      rw [if_neg Bool.false_ne_true, List.nil_append, hdigit, hsize]
      exact congrArg some hvalue

/-- The exponent of a numeral is read back. -/
lemma readTail_exponent (plus : Bool) (exponent : Option Int) :
    readTail ((exponent.map (exponentText plus)).getD []) = some ([], exponent) := by
  cases exponent with
  | none => rfl
  | some e =>
    have hread := readExponent_append plus e
    simp only [Option.map_some, Option.getD_some, exponentText, readTail]
    simp [hread]

/-- What follows the whole digits is read back. -/
lemma readTail_tailText (plus : Bool) (n : Numeral) :
    readTail (n.tailText plus) = some (n.fraction, n.exponent) := by
  unfold tailText
  cases hfraction : n.fraction with
  | nil => exact readTail_exponent plus n.exponent
  | cons d ds =>
    have hread := leadingDigits_append (d :: ds) (noDigitNext_exponent plus n.exponent)
    simp only [List.isEmpty_cons, Bool.false_eq_true, if_false, List.cons_append, readTail, hread]
    cases n.exponent with
    | none => rfl
    | some e =>
      have hexponent := readExponent_append plus e
      simp only [Option.map_some, Option.getD_some, exponentText]
      simp [hexponent]

/-- A well-formed numeral is read back from its text. -/
theorem ofText?_text {n : Numeral} (h : n.WellFormed) (plus : Bool) :
    ofText? (n.text plus) = some n := by
  have hsize : ∀ negative : Bool, readSize negative (n.whole.map Digit.char ++ n.tailText plus) =
      some { n with negative } := by
    intro negative
    have hzero : ¬ (n.whole = [] ∨ n.whole.head? = some .zero ∧ n.whole ≠ [.zero]) := by
      rintro (hnil | ⟨hhead, hne⟩)
      · exact h.whole_ne_nil hnil
      · exact hne (h.eq_of_head_zero hhead)
    unfold readSize
    simp only [leadingDigits_append n.whole (n.noDigitNext_tailText plus), if_neg hzero,
      readTail_tailText plus n]
    rfl
  rw [text_eq]
  cases hnegative : n.negative with
  | true =>
    rw [if_pos rfl, List.singleton_append, ofText?_minus, hsize, ← hnegative]
  | false =>
    obtain ⟨d, ds, hds⟩ := List.exists_cons_of_ne_nil h.whole_ne_nil
    have hdigit : ofText? (n.whole.map Digit.char ++ n.tailText plus) =
        readSize false (n.whole.map Digit.char ++ n.tailText plus) := by
      rw [hds]
      exact ofText?_digit d _
    rw [if_neg Bool.false_ne_true, List.nil_append, hdigit, hsize, ← hnegative]

/-- The characters of a numeral are digits, signs, a point and the mark of an exponent. -/
lemma mem_text {plus : Bool} {n : Numeral} {c : Char} (h : c ∈ n.text plus) :
    (∃ d : Digit, c = d.char) ∨ c ∈ ['-', '+', '.', 'e'] := by
  have hdigits : ∀ ds : List Digit, c ∈ ds.map Digit.char → ∃ d : Digit, c = d.char := by
    intro ds hc
    obtain ⟨d, -, rfl⟩ := List.mem_map.1 hc
    exact ⟨d, rfl⟩
  rw [text_eq, tailText, List.mem_append, List.mem_append, List.mem_append] at h
  rcases h with hsign | hwhole | hfraction | hexponent
  · cases hnegative : n.negative with
    | true => simp_all
    | false => simp_all
  · exact .inl (hdigits _ hwhole)
  · cases hds : n.fraction with
    | nil => simp [hds] at hfraction
    | cons d ds =>
      rw [hds] at hfraction
      rcases List.mem_cons.1 hfraction with rfl | hfraction
      · simp
      · exact .inl (hdigits _ hfraction)
  · cases he : n.exponent with
    | none => simp [he] at hexponent
    | some e =>
      simp only [he, Option.map_some, Option.getD_some, exponentText, natText, List.mem_cons,
        List.mem_append] at hexponent
      rcases hexponent with rfl | hsign | hsize
      · simp
      · split at hsign
        · simp_all
        · split at hsign <;> simp_all
      · exact .inl (hdigits _ hsize)

/-! ## The numerals that are written -/

/-- The numeral of an integer is well formed. -/
lemma wellFormed_ofInt (n : Int) : (ofInt n).WellFormed where
  whole_ne_nil := digits_ne_nil n.natAbs
  eq_of_head_zero := by
    intro hhead
    have hzero := eq_zero_of_head?_digits hhead
    change digits n.natAbs = [.zero]
    rw [hzero]
    rfl

/-- A numeral that starts with a digit other than zero is well formed. -/
lemma wellFormed_of_head {n : Numeral} {d : Digit} (h : n.whole.head? = some d) (hd : d ≠ .zero) :
    n.WellFormed where
  whole_ne_nil := by
    intro hnil
    rw [hnil] at h
    cases h
  eq_of_head_zero := by
    intro hzero
    rw [h] at hzero
    exact absurd (Option.some.inj hzero) hd

/-- A numeral with one whole digit is well formed. -/
lemma wellFormed_of_singleton {n : Numeral} {d : Digit} (h : n.whole = [d]) : n.WellFormed where
  whole_ne_nil := by simp [h]
  eq_of_head_zero := by
    rw [h]
    intro hzero
    rw [Option.some.inj hzero]

end Numeral

/-- Trimmed digits are those of zero, or start with another digit. -/
lemma trimZeros_cases (d : Scaled) :
    trimZeros d = ([.zero], 0) ∨
      ∃ lead rest last, trimZeros d = (lead :: rest, last) ∧ lead ≠ .zero := by
  unfold trimZeros
  by_cases hnil : ((digits d.coefficient).reverse.dropWhile (· = .zero)).reverse = []
  · exact .inl (if_pos hnil)
  right
  obtain ⟨lead, rest, hds⟩ := List.exists_cons_of_ne_nil hnil
  refine ⟨lead, rest, _, (if_neg hnil).trans (by rw [hds]), ?_⟩
  rintro rfl
  -- The trimmed digits are a start of all digits, so these would begin with the same zero.
  have hstart : ((digits d.coefficient).reverse.dropWhile (· = .zero)).reverse <+:
      digits d.coefficient := by
    rw [← List.reverse_suffix, List.reverse_reverse]
    exact List.dropWhile_suffix _
  rw [hds] at hstart
  obtain ⟨more, hmore⟩ := hstart
  have hzero : d.coefficient = 0 := by
    apply eq_zero_of_head?_digits
    rw [← hmore]
    rfl
  rw [hzero] at hnil
  exact hnil (by decide)

/-- The numeral of a floating-point number is well formed in every layout. -/
lemma Layout.wellFormed_numeral (layout : Layout) (x : Binary64) :
    (layout.numeral x).WellFormed := by
  unfold Layout.numeral
  rcases trimZeros_cases (shortest layout.tie x) with hzero | ⟨lead, rest, last, hds, hlead⟩
  · rw [hzero]
    dsimp only
    split
    · exact Numeral.wellFormed_of_singleton rfl
    · exact Numeral.wellFormed_of_singleton rfl
  · rw [hds]
    dsimp only
    split
    · unfold positional
      dsimp only
      split
      · exact Numeral.wellFormed_of_head rfl hlead
      · split
        · next hwhole =>
          obtain ⟨k, hk⟩ : ∃ k : Nat, (((lead :: rest).length : Int) + last).toNat = k + 1 :=
            ⟨(((lead :: rest).length : Int) + last).toNat - 1, by omega⟩
          refine Numeral.wellFormed_of_head ?_ hlead
          rw [hk]
          rfl
        · exact Numeral.wellFormed_of_singleton rfl
    · exact Numeral.wellFormed_of_singleton rfl

end RelationalAlgebra.Decimal
