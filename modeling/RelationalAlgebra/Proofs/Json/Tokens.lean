import RelationalAlgebra.Proofs.Decimal.Numerals
import RelationalAlgebra.Proofs.Json.Strings

/-!
# Tokens read back

A word or a numeral goes on until a character comes that cannot belong to it, so it is read back
if a punctuation mark follows it, or nothing.  All other tokens tell by themselves where they end.

Main statement: the text of a token is read as the token, in front of every text that can be read,
if it is no word or is followed by a punctuation mark.
-/

namespace RelationalAlgebra.Json

open Decimal

/-- A character of words and numerals. -/
def IsWordChar (c : Char) : Prop :=
  isBlank c = false ∧ c ≠ '"' ∧ punctuation? c = none

instance (c : Char) : Decidable (IsWordChar c) :=
  inferInstanceAs (Decidable (_ ∧ _ ∧ _))

/-- Characters belong to words if they all pass the test. -/
lemma isWordChar_of_all {chars : List Char} (h : (chars.all fun c => IsWordChar c) = true) :
    ∀ c ∈ chars, IsWordChar c := by
  intro c hc
  exact of_decide_eq_true (List.all_eq_true.1 h c hc)

/-- A word ends in front of a text: the text is empty or starts with a punctuation mark. -/
def EndsWord (rest : List Char) : Prop :=
  ∀ c ∈ rest.head?, (punctuation? c).isSome = true

/-- A word ends where nothing follows. -/
lemma endsWord_nil : EndsWord [] := by
  intro c hc
  cases hc

/-- A token that is a word or a numeral. -/
def Token.isWord : Token → Bool
  | .null | .bool _ | .number _ => true
  | _ => false

/-- A token that is read back: numerals need a whole digit and no superfluous zero. -/
def Token.WellFormed : Token → Prop
  | .number n => n.WellFormed
  | _ => True

/-! ## Words -/

/-- Punctuation marks are neither blanks nor quotes. -/
lemma isBlank_of_punctuation? {c : Char} {mark : Token} (h : punctuation? c = some mark) :
    isBlank c = false ∧ c ≠ '"' := by
  have hmarks : c ∈ ['[', ']', '\x7b', '\x7d', ',', ':'] := by
    unfold punctuation? at h
    by_contra hother
    simp only [List.mem_cons, List.not_mem_nil, or_false, not_or] at hother
    simp [hother] at h
  simp only [List.mem_cons, List.not_mem_nil, or_false] at hmarks
  rcases hmarks with rfl | rfl | rfl | rfl | rfl | rfl <;> decide

/-- A punctuation mark is read. -/
lemma tokensFrom_mark {c : Char} {mark : Token} {rest : List Char} {ts : List Token}
    (hmark : punctuation? c = some mark) (h : tokensFrom .between rest = some ts) :
    tokensFrom .between (c :: rest) = some (mark :: ts) := by
  obtain ⟨hblank, hquote⟩ := isBlank_of_punctuation? hmark
  simp [tokensFrom, hblank, hquote, hmark, h]

/-- Within a word, its characters are passed over. -/
lemma tokensFrom_bare {chars : List Char} (h : ∀ c ∈ chars, IsWordChar c) (word rest : List Char) :
    tokensFrom (.bare word) (chars ++ rest) = tokensFrom (.bare (chars.reverse ++ word)) rest := by
  induction chars generalizing word with
  | nil => rfl
  | cons c chars ih =>
    obtain ⟨hblank, hquote, hmark⟩ := h c List.mem_cons_self
    have hstep : tokensFrom (.bare word) (c :: (chars ++ rest)) =
        tokensFrom (.bare (c :: word)) (chars ++ rest) := by
      simp [tokensFrom, hblank, hquote, hmark]
    rw [List.cons_append, hstep, ih fun d hd => h d (List.mem_cons_of_mem c hd),
      List.reverse_cons, List.append_assoc, List.singleton_append]

/-- A word ends in front of a punctuation mark. -/
lemma tokensFrom_bare_end {word rest : List Char} {token : Token} {ts : List Token}
    (hword : bareToken? word.reverse = some token) (hend : EndsWord rest)
    (h : tokensFrom .between rest = some ts) :
    tokensFrom (.bare word) rest = some (token :: ts) := by
  cases rest with
  | nil =>
    obtain rfl : [] = ts := Option.some.inj h
    simp [tokensFrom, hword]
  | cons c rest =>
    obtain ⟨mark, hmark⟩ := Option.isSome_iff_exists.1 (hend c rfl)
    obtain ⟨hblank, hquote⟩ := isBlank_of_punctuation? hmark
    cases hrest : tokensFrom .between rest with
    | none => simp [tokensFrom, hblank, hquote, hmark, hrest] at h
    | some later =>
      rw [tokensFrom_mark hmark hrest] at h
      simp [tokensFrom, hblank, hquote, hmark, hword, hrest, ← Option.some.inj h]

/-- A word is read as its token. -/
lemma tokensFrom_word {chars rest : List Char} {token : Token} {ts : List Token}
    (hchars : ∀ c ∈ chars, IsWordChar c) (hne : chars ≠ []) (htoken : bareToken? chars = some token)
    (hend : EndsWord rest) (h : tokensFrom .between rest = some ts) :
    tokensFrom .between (chars ++ rest) = some (token :: ts) := by
  obtain ⟨c, chars, rfl⟩ := List.exists_cons_of_ne_nil hne
  obtain ⟨hblank, hquote, hmark⟩ := hchars c List.mem_cons_self
  have hstart : tokensFrom .between (c :: (chars ++ rest)) =
      tokensFrom (.bare [c]) (chars ++ rest) := by
    simp [tokensFrom, hblank, hquote, hmark]
  rw [List.cons_append, hstart,
    tokensFrom_bare fun d hd => hchars d (List.mem_cons_of_mem c hd)]
  apply tokensFrom_bare_end _ hend h
  simpa using htoken

/-! ## Numerals -/

/-- The characters of a numeral belong to words. -/
lemma isWordChar_of_mem_text {plus : Bool} {n : Numeral} {c : Char} (h : c ∈ n.text plus) :
    IsWordChar c := by
  have hdigits : ∀ d : Digit, IsWordChar d.char := by decide
  have hmarks : ∀ c ∈ ['-', '+', '.', 'e'], IsWordChar c := isWordChar_of_all (by decide)
  rcases Numeral.mem_text h with ⟨d, rfl⟩ | hmark
  · exact hdigits d
  · exact hmarks c hmark

/-- The text of a well-formed numeral is read as the numeral, and is none of the three words. -/
lemma bareToken?_text {n : Numeral} (h : n.WellFormed) :
    bareToken? (n.text true) = some (.number n) := by
  have hread := Numeral.ofText?_text h true
  have hword : ∀ word : List Char, Numeral.ofText? word = none → n.text true ≠ word := by
    rintro word hword rfl
    rw [hread] at hword
    cases hword
  unfold bareToken?
  rw [if_neg (hword _ (by decide)), if_neg (hword _ (by decide)), if_neg (hword _ (by decide)),
    hread]
  rfl

/-- A numeral has a text. -/
lemma text_ne_nil {n : Numeral} (h : n.WellFormed) : n.text true ≠ [] := by
  intro hnil
  have hread := Numeral.ofText?_text h true
  rw [hnil] at hread
  cases hread

/-! ## Tokens -/

/-- The text of a token is read as the token, if a word is followed by a punctuation mark. -/
theorem tokensFrom_text {token : Token} (htoken : token.WellFormed) {rest : List Char}
    {ts : List Token} (hend : token.isWord = true → EndsWord rest)
    (h : tokensFrom .between rest = some ts) :
    tokensFrom .between (token.text ++ rest) = some (token :: ts) := by
  cases token with
  | openArray | closeArray | openObject | closeObject | comma | colon =>
    exact tokensFrom_mark rfl h
  | null =>
    have hchars : ∀ c ∈ ['n', 'u', 'l', 'l'], IsWordChar c := isWordChar_of_all (by decide)
    exact tokensFrom_word hchars (by decide) (by decide) (hend rfl) h
  | bool value =>
    have htrue : ∀ c ∈ ['t', 'r', 'u', 'e'], IsWordChar c := isWordChar_of_all (by decide)
    have hfalse : ∀ c ∈ ['f', 'a', 'l', 's', 'e'], IsWordChar c := isWordChar_of_all (by decide)
    cases value with
    | true => exact tokensFrom_word htrue (by decide) (by decide) (hend rfl) h
    | false => exact tokensFrom_word hfalse (by decide) (by decide) (hend rfl) h
  | number n =>
    exact tokensFrom_word (fun c hc => isWordChar_of_mem_text hc) (text_ne_nil htoken)
      (bareToken?_text htoken) (hend rfl) h
  | string s => exact tokensFrom_stringText s h

end RelationalAlgebra.Json
