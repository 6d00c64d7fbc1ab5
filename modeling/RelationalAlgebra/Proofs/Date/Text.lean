import Mathlib.Algebra.Group.Nat.Defs
import Mathlib.Data.List.Basic
import RelationalAlgebra.Date

/-!
# The text of a date reads back

A date is written with digits that are padded with zeros, and every group of digits is followed by
a hyphen or by the end of the text.  So a reader that takes as many digits as there are takes
exactly the group that was written, and the number is the one that the group stands for.

Main statement: reading the text of a date gives the date.  In particular different dates have
different texts.
-/

namespace RelationalAlgebra

namespace Decimal

/-! ## Groups of digits -/

/-- The number of digits of a number that is written before others. -/
lemma length_digitsBefore_le {count n k : Nat} (tail : List Digit) (hcount : n < count)
    (hk : 0 < k) (hn : n < 10 ^ k) : (digitsBefore tail count n).length ≤ tail.length + k := by
  induction count generalizing n k tail with
  | zero => exact absurd hcount (Nat.not_lt_zero n)
  | succ count ih =>
    rw [digitsBefore]
    split
    · simp only [List.length_cons]
      omega
    · obtain ⟨k, rfl⟩ : ∃ j, k = j + 1 := ⟨k - 1, by omega⟩
      have hpos : 0 < k := by
        rcases Nat.eq_zero_or_pos k with rfl | hpos
        · omega
        · exact hpos
      have hrest : n / 10 < 10 ^ k := by omega
      have hlength := ih (lastDigit n :: tail) (by omega) hpos hrest
      simp only [List.length_cons] at hlength
      omega

/-- A number below a power of ten has no more digits than the exponent says. -/
lemma length_digits_le {n k : Nat} (hk : 0 < k) (hn : n < 10 ^ k) : (digits n).length ≤ k := by
  simpa [digits] using length_digitsBefore_le [] (Nat.lt_succ_self n) hk hn

/-- The digits of a number, with zeros in front up to a width. -/
def paddedDigits (width n : Nat) : List Digit :=
  List.replicate (width - (digits n).length) Digit.zero ++ digits n

/-- Zeros in front of digits do not change the number that these stand for. -/
lemma ofDigits_replicate_zero_append (count : Nat) (ds : List Digit) :
    ofDigits (List.replicate count Digit.zero ++ ds) = ofDigits ds := by
  have hzeros : (List.replicate count Digit.zero).foldl appendDigit 0 = 0 := by
    induction count with
    | zero => rfl
    | succ count ih => exact ih
  rw [ofDigits, List.foldl_append, hzeros, ofDigits]

/-- Padded digits stand for the number. -/
@[simp] lemma ofDigits_paddedDigits (width n : Nat) : ofDigits (paddedDigits width n) = n := by
  rw [paddedDigits, ofDigits_replicate_zero_append, ofDigits_digits]

/-- There is a padded digit. -/
lemma paddedDigits_ne_nil (width n : Nat) : paddedDigits width n ≠ [] := by
  simp [paddedDigits, digits_ne_nil]

/-- Padded digits fill the width, and more if the number needs more. -/
lemma length_paddedDigits (width n : Nat) :
    (paddedDigits width n).length = max width (digits n).length := by
  simp only [paddedDigits, List.length_append, List.length_replicate]
  omega

/-- Padded digits fill the width exactly if the number is small enough. -/
lemma length_paddedDigits_of_lt {width n : Nat} (hwidth : 0 < width) (hn : n < 10 ^ width) :
    (paddedDigits width n).length = width := by
  rw [length_paddedDigits, Nat.max_eq_left (length_digits_le hwidth hn)]

/-! ## Reading a group of digits -/

/-- A text goes on with something else than a digit, or ends. -/
def NoDigitNext (s : List Char) : Prop :=
  ∀ c ∈ s.head?, Digit.ofChar? c = none

/-- Reading takes exactly the digits that stand in front, if these reach the limit, or if they are
within it and no digit follows. -/
lemma splitDigits_append {limit : Nat} {ds : List Digit} {rest : List Char}
    (hlimit : ds.length ≤ limit) (hnext : ds.length = limit ∨ NoDigitNext rest) :
    splitDigits limit (ds.map Digit.char ++ rest) = (ds, rest) := by
  induction ds generalizing limit with
  | nil =>
    cases limit with
    | zero => rfl
    | succ limit =>
      cases rest with
      | nil => rfl
      | cons c rest =>
        have hc : Digit.ofChar? c = none := by simpa [NoDigitNext] using hnext
        simp [splitDigits, hc]
  | cons d ds ih =>
    obtain ⟨limit, rfl⟩ : ∃ l, limit = l + 1 := ⟨limit - 1, by simp at hlimit; omega⟩
    have hrest : splitDigits limit (ds.map Digit.char ++ rest) = (ds, rest) :=
      ih (by simpa using hlimit) (by simpa using hnext)
    simp [splitDigits, Digit.ofChar?_char, hrest]

end Decimal

namespace Date

open Decimal Text

/-- A padded number is written with padded digits. -/
lemma paddedText_eq (width n : Nat) :
    paddedText width n = (paddedDigits width n).map Digit.char := by
  have hzero : Digit.zero.char = '0' := by decide
  simp [paddedText, paddedDigits, natText, hzero]

/-- A padded number reads back if its digits reach the limit, or if no digit follows. -/
lemma readNumber_paddedText {limit width n : Nat} {rest : List Char}
    (hlimit : (paddedDigits width n).length ≤ limit)
    (hnext : (paddedDigits width n).length = limit ∨ NoDigitNext rest) :
    readNumber limit (paddedText width n ++ rest) = some (n, rest) := by
  obtain ⟨d, ds, hds⟩ := List.exists_cons_of_ne_nil (paddedDigits_ne_nil width n)
  have hvalue := ofDigits_paddedDigits width n
  rw [hds] at hlimit hnext hvalue
  rw [readNumber, paddedText_eq, hds, splitDigits_append hlimit hnext]
  simp [hvalue]

/-- Passing over blanks stops at the first character that is none. -/
lemma skipBlanks_cons {c : Char} (h : isBlank c = false) (s : List Char) :
    skipBlanks (c :: s) = c :: s := by
  simp [skipBlanks, h]

/-- A padded number starts with no blank. -/
lemma skipBlanks_paddedText (width n : Nat) (rest : List Char) :
    skipBlanks (paddedText width n ++ rest) = paddedText width n ++ rest := by
  have hblank : ∀ d : Digit, isBlank d.char = false := by decide
  obtain ⟨d, ds, hds⟩ := List.exists_cons_of_ne_nil (paddedDigits_ne_nil width n)
  rw [paddedText_eq, hds, List.map_cons, List.cons_append, skipBlanks_cons (hblank d)]

/-- A month or a day reads back after its hyphen. -/
lemma readPart_paddedText {n : Nat} (hn : n < 100) (rest : List Char) :
    readPart ('-' :: (paddedText 2 n ++ rest)) = some (n, rest) := by
  have hlength : (paddedDigits 2 n).length = 2 :=
    length_paddedDigits_of_lt (by decide) hn
  simp only [readPart, skipBlanks_cons (show isBlank '-' = false by decide),
    skipBlanks_paddedText]
  exact readNumber_paddedText (Nat.le_of_eq hlength) (.inl hlength)

/-- A hyphen is no digit. -/
lemma noDigitNext_hyphen (rest : List Char) : NoDigitNext ('-' :: rest) := by
  simp [NoDigitNext, show Digit.ofChar? '-' = none by decide]

/-- A year reads back in front of a hyphen: without a sign it has four digits, and behind a sign
as many as there are. -/
lemma readYear_yearText (year : Int) (rest : List Char) :
    readYear (yearText year ++ '-' :: rest) = some (year, '-' :: rest) := by
  by_cases hplain : 0 ≤ year ∧ year ≤ 9999
  · have hlength : (paddedDigits 4 year.natAbs).length = 4 :=
      length_paddedDigits_of_lt (by decide) (by omega)
    have hnumber : readNumber 4 (paddedText 4 year.natAbs ++ '-' :: rest) =
        some (year.natAbs, '-' :: rest) :=
      readNumber_paddedText (Nat.le_of_eq hlength) (.inl hlength)
    have hsize : (year.natAbs : Int) = year := by omega
    have hsign : ∀ d : Digit, d.char ≠ '-' ∧ d.char ≠ '+' := by decide
    obtain ⟨d, ds, hds⟩ := List.exists_cons_of_ne_nil (paddedDigits_ne_nil 4 year.natAbs)
    simp only [yearText, hplain, and_self, if_true, readYear, skipBlanks_paddedText]
    rw [paddedText_eq, hds] at hnumber ⊢
    -- The text begins with a digit, so neither of the two signs is there.
    simpa [hsign] using ⟨year.natAbs, hnumber, hsize⟩
  · have hnumber : ∀ s, s = paddedText 4 year.natAbs ++ '-' :: rest →
        readNumber s.length s = some (year.natAbs, '-' :: rest) := by
      rintro s rfl
      exact readNumber_paddedText (by simp [paddedText_eq]) (.inr (noDigitNext_hyphen rest))
    by_cases hnegative : year < 0
    · have hsize : -(year.natAbs : Int) = year := by omega
      simp only [yearText, hplain, hnegative, if_false, if_true, List.cons_append, readYear,
        skipBlanks_cons (show isBlank '-' = false by decide), hnumber _ rfl, Option.map_some, hsize]
    · have hsize : (year.natAbs : Int) = year := by omega
      simp only [yearText, hplain, hnegative, if_false, List.cons_append, readYear,
        skipBlanks_cons (show isBlank '+' = false by decide), hnumber _ rfl, Option.map_some, hsize]

/-- Reading the text of a date gives the date. -/
theorem ofText?_text (d : Date) : ofText? d.text = some d := by
  have hmonth : d.month < 100 := by
    have := month_mem_of_exists d.exists_day
    omega
  have hday : d.day < 100 := by
    have := day_le_of_exists d.exists_day
    omega
  have hend := readPart_paddedText hday []
  rw [List.append_nil] at hend
  simp only [ofText?, text, readYear_yearText, readPart_paddedText hmonth, hend,
    Option.bind_eq_bind, Option.bind_some]
  exact (if_pos rfl).trans (ofParts?_parts d)

/-- Different dates have different texts. -/
theorem text_injective : Function.Injective text := by
  intro d e h
  have hread := congrArg ofText? h
  rw [ofText?_text, ofText?_text] at hread
  exact Option.some.inj hread

/-- The text of a date is short. -/
lemma length_text_le (d : Date) : d.text.length ≤ 13 := by
  obtain ⟨hlow, hhigh, -, -⟩ := d.exists_day
  have hyear : (digits d.year.natAbs).length ≤ 6 := length_digits_le (by decide) (by omega)
  have hmonth : (digits d.month).length ≤ 2 := by
    have := month_mem_of_exists d.exists_day
    exact length_digits_le (by decide) (by omega)
  have hday : (digits d.day).length ≤ 2 := by
    have := day_le_of_exists d.exists_day
    exact length_digits_le (by decide) (by omega)
  have hyearText : (yearText d.year).length ≤ 7 := by
    unfold yearText
    split <;> simp only [paddedText_eq, length_paddedDigits, List.length_map, List.length_cons] <;>
      omega
  simp only [text, paddedText_eq, length_paddedDigits, List.length_append, List.length_cons,
    List.length_map]
  omega

end Date

end RelationalAlgebra
