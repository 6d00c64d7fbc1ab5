/-!
# Decimal digits

The digits of a natural number, most significant first. `ofDigits_digits` says that they determine
the number, and `digits_ne_nil` that every number, zero too, has at least one.
-/

namespace RelationalAlgebra.Decimal

/-- A decimal digit. -/
abbrev Digit := Fin 10

/-- The digit zero. -/
def Digit.zero : Digit := ⟨0, by decide⟩

/-- The last digit of a number. -/
def lastDigit (n : Nat) : Digit :=
  ⟨n % 10, Nat.mod_lt n (by decide)⟩

/-- The character of a digit. -/
def Digit.char (d : Digit) : Char :=
  Char.ofNat ('0'.toNat + d)

/-- The digit that a character stands for. -/
def Digit.ofChar? (c : Char) : Option Digit :=
  if h : '0'.toNat ≤ c.toNat ∧ c.toNat < '0'.toNat + 10 then
    some ⟨c.toNat - '0'.toNat, by omega⟩
  else none

/-- The digits of a number in front of others, for a number with at most `count` digits. -/
def digitsBefore (tail : List Digit) : (count : Nat) → Nat → List Digit
  | 0, _ => tail
  | count + 1, n =>
    let tail := lastDigit n :: tail
    if n < 10 then tail else digitsBefore tail count (n / 10)

/-- The digits of a number, most significant first. -/
def digits (n : Nat) : List Digit :=
  digitsBefore [] (n + 1) n

/-- A number with one more digit at its end. -/
def appendDigit (n : Nat) (d : Digit) : Nat :=
  n * 10 + d

/-- The number that a list of digits stands for. -/
def ofDigits (ds : List Digit) : Nat :=
  ds.foldl appendDigit 0

/-- The decimal text of a number. -/
def natText (n : Nat) : List Char :=
  (digits n).map Digit.char

/-- The digits a text starts with, up to a limit, and the rest of the text. -/
def splitDigits : (limit : Nat) → List Char → List Digit × List Char
  | 0, s => ([], s)
  | _ + 1, [] => ([], [])
  | limit + 1, c :: s =>
    match Digit.ofChar? c with
    | some d => let (ds, rest) := splitDigits limit s; (d :: ds, rest)
    | none => ([], c :: s)

/-- All digits a text starts with, and the rest of the text. -/
def leadingDigits (s : List Char) : List Digit × List Char :=
  splitDigits s.length s

/-- Reading a digit undoes writing it. -/
theorem Digit.ofChar?_char (d : Digit) : Digit.ofChar? d.char = some d := by
  revert d
  decide

theorem foldl_digitsBefore (count : Nat) : ∀ (n : Nat) (tail : List Digit), n < count →
    (digitsBefore tail count n).foldl appendDigit 0 = tail.foldl appendDigit n := by
  induction count with
  | zero => intro n _ h; omega
  | succ count ih =>
    intro n tail h
    rw [digitsBefore]
    split
    · simp only [List.foldl_cons, appendDigit, lastDigit]
      rw [Nat.mod_eq_of_lt (by omega), Nat.zero_mul, Nat.zero_add]
    · rw [ih _ _ (by omega), List.foldl_cons, appendDigit, lastDigit, Nat.mul_comm,
        Nat.div_add_mod]

/-- The digits of a number stand for the number. -/
theorem ofDigits_digits (n : Nat) : ofDigits (digits n) = n := by
  rw [ofDigits, digits, foldl_digitsBefore _ _ _ (Nat.lt_succ_self n), List.foldl_nil]

theorem digitsBefore_ne_nil {tail : List Digit} (h : tail ≠ []) (count : Nat) :
    ∀ n, digitsBefore tail count n ≠ [] := by
  induction count generalizing tail with
  | zero => exact fun _ => h
  | succ count ih =>
    intro n
    rw [digitsBefore]
    split
    · simp
    · exact ih (by simp) _

/-- Every number has a digit. -/
theorem digits_ne_nil (n : Nat) : digits n ≠ [] := by
  rw [digits, digitsBefore]
  split
  · simp
  · exact digitsBefore_ne_nil (by simp) _ _

end RelationalAlgebra.Decimal
