import RelationalAlgebra.Decimal.Digit
import RelationalAlgebra.Text.Property

/-!
# Calendar dates

Days of the proleptic Gregorian calendar. The year zero and the years before it exist; the years
run from -262143 to 262142. Only dates that exist are values of `Date`.

A date is written as year, month and day with hyphens between them. Month and day have two
digits. A year from 0 to 9999 has four digits and no sign; any other has a sign and at least four
digits, so that the year can be told from the hyphens.

Reading is more liberal than writing: month and day may have one digit, an unsigned year one to
four, a signed year any number of digits, and blanks may stand before every part and at the end.
-/

namespace RelationalAlgebra

namespace Date

/-- Whether a year has a 29th of February. -/
def isLeap (year : Int) : Bool :=
  year % 4 == 0 && (year % 100 != 0 || year % 400 == 0)

/-- How many days a month has; there are none in a month that does not exist. -/
def daysIn (year : Int) (month : Nat) : Nat :=
  if month = 2 then if isLeap year then 29 else 28
  else if month = 4 ∨ month = 6 ∨ month = 9 ∨ month = 11 then 30
  else if 1 ≤ month ∧ month ≤ 12 then 31
  else 0

/-- Whether a day exists and its year is within the calendar's bounds. -/
def Exists (year : Int) (month day : Nat) : Prop :=
  -262143 ≤ year ∧ year ≤ 262142 ∧ 1 ≤ day ∧ day ≤ daysIn year month

instance (year : Int) (month day : Nat) : Decidable (Exists year month day) :=
  inferInstanceAs (Decidable (_ ∧ _ ∧ _ ∧ _))

end Date

/-- A day of the calendar. -/
structure Date where
  year : Int
  month : Nat
  day : Nat
  exists_day : Date.Exists year month day
deriving DecidableEq

namespace Date

/-- The date with the given parts, if it exists. -/
def ofParts? (year : Int) (month day : Nat) : Option Date :=
  if h : Exists year month day then some ⟨year, month, day, h⟩ else none

/-- The order in time. -/
def compare (a b : Date) : Ordering :=
  (Ord.compare a.year b.year).then
    ((Ord.compare a.month b.month).then (Ord.compare a.day b.day))

/-- A month that has a day is one of the twelve. -/
theorem month_mem_of_exists {year : Int} {month day : Nat} (h : Exists year month day) :
    1 ≤ month ∧ month ≤ 12 := by
  obtain ⟨_, _, h₁, h₂⟩ := h
  unfold daysIn at h₂
  split at h₂
  · omega
  · split at h₂
    · omega
    · split at h₂ <;> omega

/-- No month has more than 31 days. -/
theorem day_le_of_exists {year : Int} {month day : Nat} (h : Exists year month day) :
    day ≤ 31 := by
  obtain ⟨_, _, _, h⟩ := h
  unfold daysIn at h
  split at h
  · split at h <;> omega
  · split at h
    · omega
    · split at h <;> omega

/-- The parts of a date give it back. -/
theorem ofParts?_parts (d : Date) : ofParts? d.year d.month d.day = some d := by
  simp [ofParts?, d.exists_day]

/-! ## Texts -/

open Decimal Text

/-- The digits of a number, with zeros in front up to a width. -/
def paddedText (width n : Nat) : List Char :=
  let text := natText n
  List.replicate (width - text.length) '0' ++ text

/-- The text of a year. -/
def yearText (year : Int) : List Char :=
  let size := paddedText 4 year.natAbs
  if 0 ≤ year ∧ year ≤ 9999 then size
  else (if year < 0 then '-' else '+') :: size

/-- The text of a date. -/
def text (d : Date) : List Char :=
  yearText d.year ++ '-' :: (paddedText 2 d.month ++ '-' :: paddedText 2 d.day)

/-- Reads a number of at least one digit and at most `limit` digits. -/
def readNumber (limit : Nat) (s : List Char) : Option (Nat × List Char) :=
  match splitDigits limit s with
  | ([], _) => none
  | (ds, rest) => some (ofDigits ds, rest)

/-- Reads a year. Only a sign lifts the limit of four digits. -/
def readYear (s : List Char) : Option (Int × List Char) :=
  match skipBlanks s with
  | '-' :: s => (readNumber s.length s).map fun (n, rest) => (-(n : Int), rest)
  | '+' :: s => (readNumber s.length s).map fun (n, rest) => ((n : Int), rest)
  | s => (readNumber 4 s).map fun (n, rest) => ((n : Int), rest)

/-- Reads a hyphen and a number of one or two digits. -/
def readPart (s : List Char) : Option (Nat × List Char) :=
  match skipBlanks s with
  | '-' :: s => readNumber 2 (skipBlanks s)
  | _ => none

/-- Reads a date that exists. -/
def ofText? (s : List Char) : Option Date := do
  let (year, s) ← readYear s
  let (month, s) ← readPart s
  let (day, s) ← readPart s
  if skipBlanks s = [] then ofParts? year month day else none

end Date

end RelationalAlgebra
