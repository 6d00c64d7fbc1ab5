import RelationalAlgebra.Scalar.Comparison
import RelationalAlgebra.Text.Lowercase

/-!
# Lookups

The tests that a condition can make between two values: equality, order, containment of texts
with or without regard to case, and the parts of a date. Each has a name, and `eq` is a second
name of `exact`. `occursIn_iff` says that the search for one text inside another finds a pattern
exactly when the text is something, the pattern, and something more.
-/

namespace RelationalAlgebra

namespace Text

/-- Whether a pattern stands somewhere in a text. -/
def occursIn (pattern : List Char) : List Char → Bool
  | [] => pattern.isEmpty
  | c :: rest => pattern.isPrefixOf (c :: rest) || occursIn pattern rest

/-- A pattern occurs in a text exactly when the text continues some text by the pattern. -/
theorem occursIn_iff {pattern s : List Char} :
    occursIn pattern s = true ↔ ∃ before after, s = before ++ pattern ++ after := by
  induction s with
  | nil =>
    simp only [occursIn, List.isEmpty_iff, List.nil_eq, List.append_eq_nil_iff]
    constructor
    · rintro rfl
      exact ⟨[], [], ⟨rfl, rfl⟩, rfl⟩
    · rintro ⟨_, _, ⟨_, h⟩, _⟩
      exact h
  | cons c rest ih =>
    rw [occursIn, Bool.or_eq_true, List.isPrefixOf_iff_prefix, ih]
    constructor
    · rintro (⟨after, h⟩ | ⟨before, after, h⟩)
      · exact ⟨[], after, by simpa using h.symm⟩
      · exact ⟨c :: before, after, by simp [h]⟩
    · rintro ⟨before, after, h⟩
      cases before with
      | nil => exact .inl ⟨after, by simpa using h.symm⟩
      | cons d before =>
        simp only [List.cons_append, List.cons.injEq] at h
        exact .inr ⟨before, after, h.2⟩

end Text

/-- A test between two values. -/
inductive Lookup where
  | exact
  | iexact
  | contains
  | icontains
  | gt
  | gte
  | lt
  | lte
  | startsWith
  | endsWith
  | istartsWith
  | iendsWith
  | year
  | month
  | day
deriving DecidableEq

namespace Lookup

/-- All lookups, in the order in which they are listed to users. -/
def all : List Lookup :=
  [.exact, .iexact, .contains, .icontains, .gt, .gte, .lt, .lte, .startsWith, .endsWith,
   .istartsWith, .iendsWith, .year, .month, .day]

/-- The name of a lookup. -/
def name : Lookup → String
  | .exact => "exact"
  | .iexact => "iexact"
  | .contains => "contains"
  | .icontains => "icontains"
  | .gt => "gt"
  | .gte => "gte"
  | .lt => "lt"
  | .lte => "lte"
  | .startsWith => "startswith"
  | .endsWith => "endswith"
  | .istartsWith => "istartswith"
  | .iendsWith => "iendswith"
  | .year => "year"
  | .month => "month"
  | .day => "day"

/-- The lookup with a name. -/
def ofName? (name : String) : Option Lookup :=
  all.find? fun lookup => lookup.name == name

/-- Every lookup is found by its name. -/
theorem ofName?_name (lookup : Lookup) : ofName? lookup.name = some lookup := by
  cases lookup <;> decide

/-- The lookup that a user names. -/
def ofText (text : String) : Except Error Lookup :=
  if text = "eq" then .ok .exact
  else match ofName? text with
    | some lookup => .ok lookup
    | none => .error (.unknownLookup text)

/-- Applies a test of texts to two values. -/
def onTexts (lookup : Lookup) (lhs rhs : Scalar) (test : List Char → List Char → Bool) :
    Except Error Bool :=
  match lhs, rhs with
  | .text a, .text b => .ok (test a.toList b.toList)
  | _, _ => .error (Scalar.mismatch lookup.name lhs rhs)

/-- Applies a test of texts to the lower case of two values. -/
def onLowercase (lookup : Lookup) (lhs rhs : Scalar) (test : List Char → List Char → Bool) :
    Except Error Bool :=
  lookup.onTexts lhs rhs fun a b => test (Text.lowercase a) (Text.lowercase b)

/-- Applies a test of orderings to two values. -/
def onOrder (lookup : Lookup) (lhs rhs : Scalar) (test : Ordering → Bool) : Except Error Bool :=
  (Scalar.compareWithin lookup.name lhs rhs).map test

/-- Tests whether a part of a date agrees with a number. -/
def onDate (lookup : Lookup) (lhs rhs : Scalar) (part : Date → Int) : Except Error Bool :=
  match lhs, rhs with
  | .date d, .int n => .ok ((Scalar.int (Int64.ofInt (part d))).agrees (.int n))
  | .date d, .float x => .ok ((Scalar.int (Int64.ofInt (part d))).agrees (.float x))
  | _, _ => .error (Scalar.mismatch lookup.name lhs rhs)

/-- Applies a lookup to two values. -/
def apply (lookup : Lookup) (lhs rhs : Scalar) : Except Error Bool :=
  match lookup with
  | .exact => .ok (lhs.agrees rhs)
  | .iexact => lookup.onLowercase lhs rhs fun a b => a == b
  | .contains => lookup.onTexts lhs rhs fun a b => Text.occursIn b a
  | .icontains => lookup.onLowercase lhs rhs fun a b => Text.occursIn b a
  | .gt => lookup.onOrder lhs rhs Ordering.isGT
  | .gte => lookup.onOrder lhs rhs Ordering.isGE
  | .lt => lookup.onOrder lhs rhs Ordering.isLT
  | .lte => lookup.onOrder lhs rhs Ordering.isLE
  | .startsWith => lookup.onTexts lhs rhs fun a b => b.isPrefixOf a
  | .endsWith => lookup.onTexts lhs rhs fun a b => b.isSuffixOf a
  | .istartsWith => lookup.onLowercase lhs rhs fun a b => b.isPrefixOf a
  | .iendsWith => lookup.onLowercase lhs rhs fun a b => b.isSuffixOf a
  | .year => lookup.onDate lhs rhs fun d => d.year
  | .month => lookup.onDate lhs rhs fun d => d.month
  | .day => lookup.onDate lhs rhs fun d => d.day

end Lookup

end RelationalAlgebra
