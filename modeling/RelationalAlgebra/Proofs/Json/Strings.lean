import Mathlib.Data.List.Basic
import RelationalAlgebra.Json.Token

/-!
# Strings read back

A character in a string is written as itself, or as an escape.  Reading a string takes two steps:
it is cut off at the quote that is not escaped, and then the escapes in it are resolved.  Both
steps go character by character, each undoing the way in which the character was written
(`escapeChar_cases`).  No character is a surrogate, so nothing has to be paired.
-/

namespace RelationalAlgebra.Json

open Text (hexDigit hexValue? hexValue?_hexDigit)

/-! ## Escapes -/

/-- A character is written as an escape of one character, as four hexadecimal digits, or as
itself. -/
lemma escapeChar_cases (c : Char) :
    (∃ e, escapeChar c = ['\\', e] ∧ e ≠ 'u' ∧ simpleEscape? e = some c.toNat) ∨
      (c.toNat < 0x20 ∧ escapeChar c =
        ['\\', 'u', '0', '0', hexDigit (c.toNat / 16), hexDigit (c.toNat % 16)]) ∨
      (escapeChar c = [c] ∧ c ≠ '"' ∧ c ≠ '\\' ∧ ¬ c.toNat < 0x20) := by
  by_cases hquote : c = '"'
  · exact .inl ⟨'"', by subst hquote; decide⟩
  by_cases hbackslash : c = '\\'
  · exact .inl ⟨'\\', by subst hbackslash; decide⟩
  by_cases hb : c = '\x08'
  · exact .inl ⟨'b', by subst hb; decide⟩
  by_cases hf : c = '\x0c'
  · exact .inl ⟨'f', by subst hf; decide⟩
  by_cases hn : c = '\n'
  · exact .inl ⟨'n', by subst hn; decide⟩
  by_cases hr : c = '\r'
  · exact .inl ⟨'r', by subst hr; decide⟩
  by_cases ht : c = '\t'
  · exact .inl ⟨'t', by subst ht; decide⟩
  right
  unfold escapeChar
  rw [if_neg hquote, if_neg hbackslash, if_neg hb, if_neg hf, if_neg hn, if_neg hr, if_neg ht]
  by_cases hcontrol : c.toNat < 0x20
  · rw [if_pos hcontrol]
    exact .inl ⟨hcontrol, rfl⟩
  · rw [if_neg hcontrol]
    exact .inr ⟨rfl, hquote, hbackslash, hcontrol⟩

/-- A hexadecimal digit does not end a string and does not escape anything. -/
lemma hexDigit_ne {n : Nat} (h : n < 16) : hexDigit n ≠ '"' ∧ hexDigit n ≠ '\\' := by
  revert n
  decide

/-! ## The end of a string -/

/-- Within a string, a character that is neither a quote nor a backslash is passed over. -/
lemma tokensFrom_plain {c : Char} (hquote : c ≠ '"') (hbackslash : c ≠ '\\')
    (body rest : List Char) :
    tokensFrom (.quoted body false) (c :: rest) = tokensFrom (.quoted (c :: body) false) rest := by
  have hescape : (c == '\\') = false := beq_eq_false_iff_ne.2 hbackslash
  rw [tokensFrom, if_neg hquote, hescape]

/-- Within a string, a character after a backslash is passed over, whatever it is. -/
lemma tokensFrom_escape (c : Char) (body rest : List Char) :
    tokensFrom (.quoted body false) ('\\' :: c :: rest) =
      tokensFrom (.quoted (c :: '\\' :: body) false) rest := rfl

/-- Within a string, a character is passed over in the way in which it is written. -/
lemma tokensFrom_escapeChar (c : Char) (body rest : List Char) :
    tokensFrom (.quoted body false) (escapeChar c ++ rest) =
      tokensFrom (.quoted ((escapeChar c).reverse ++ body) false) rest := by
  rcases escapeChar_cases c with ⟨e, hc, -, -⟩ | ⟨hcontrol, hc⟩ | ⟨hc, hquote, hbackslash, -⟩
  · rw [hc]
    exact tokensFrom_escape e body rest
  · obtain ⟨hquote, hbackslash⟩ := hexDigit_ne (show c.toNat / 16 < 16 by omega)
    obtain ⟨hquote', hbackslash'⟩ := hexDigit_ne (show c.toNat % 16 < 16 by omega)
    rw [hc]
    exact (tokensFrom_escape 'u' body _).trans <|
      (tokensFrom_plain (by decide) (by decide) _ _).trans <|
      (tokensFrom_plain (by decide) (by decide) _ _).trans <|
      (tokensFrom_plain hquote hbackslash _ _).trans (tokensFrom_plain hquote' hbackslash' _ _)
  · rw [hc]
    exact tokensFrom_plain hquote hbackslash body rest

/-- A string is passed over up to its end. -/
lemma tokensFrom_flatMap (s body rest : List Char) :
    tokensFrom (.quoted body false) (s.flatMap escapeChar ++ rest) =
      tokensFrom (.quoted ((s.flatMap escapeChar).reverse ++ body) false) rest := by
  induction s generalizing body with
  | nil => rfl
  | cons c s ih =>
    rw [List.flatMap_cons, List.append_assoc, tokensFrom_escapeChar, ih, List.reverse_append,
      List.append_assoc]

/-! ## The characters of a string -/

/-- The code point of a character is read back. -/
lemma codePoints?_escapeChar {c : Char} {rest : List Char} {points : List Nat}
    (h : codePoints? rest = some points) :
    codePoints? (escapeChar c ++ rest) = some (c.toNat :: points) := by
  rcases escapeChar_cases c with ⟨e, hc, hu, he⟩ | ⟨hcontrol, hc⟩ | ⟨hc, -, hbackslash, hplain⟩
  · rw [hc]
    simp [codePoints?, hu, he, h]
  · have hzero : hexValue? '0' = some 0 := by decide
    have hhigh := hexValue?_hexDigit (show c.toNat / 16 < 16 by omega)
    have hlow := hexValue?_hexDigit (show c.toNat % 16 < 16 by omega)
    have hvalue : c.toNat / 16 * 16 + c.toNat % 16 = c.toNat := by omega
    rw [hc]
    simp [codePoints?, hexNumber?, hzero, hhigh, hlow, h, hvalue]
  · rw [hc]
    simp [codePoints?, hbackslash, hplain, h]

/-- The code points of a string are read back. -/
lemma codePoints?_flatMap (s : List Char) :
    codePoints? (s.flatMap escapeChar) = some (s.map Char.toNat) := by
  induction s with
  | nil => rfl
  | cons c s ih => exact codePoints?_escapeChar ih

/-- A character is no surrogate. -/
lemma surrogate_eq_false (c : Char) :
    isLeading c.toNat = false ∧ isTrailing c.toNat = false := by
  have hvalid : c.toNat < 0xD800 ∨ 0xDFFF < c.toNat ∧ c.toNat < 0x110000 := c.valid
  simp only [isLeading, isTrailing, Bool.and_eq_false_iff, decide_eq_false_iff_not]
  omega

/-- The code points of characters are joined to the characters. -/
lemma joinSurrogates?_map (s : List Char) : joinSurrogates? (s.map Char.toNat) = some s := by
  induction s with
  | nil => rfl
  | cons c s ih =>
    obtain ⟨hleading, htrailing⟩ := surrogate_eq_false c
    cases s with
    | nil => simp [joinSurrogates?, hleading, htrailing, Char.ofNat_toNat]
    | cons d s =>
      simp only [List.map_cons] at ih ⊢
      simp [joinSurrogates?, hleading, htrailing, ih, Char.ofNat_toNat]

/-- The token of a string is read back from what stands between its quotes. -/
lemma stringToken?_flatMap (s : String) :
    stringToken? (s.toList.flatMap escapeChar) = some (.string (some s)) := by
  rw [stringToken?, codePoints?_flatMap, Option.map_some, joinSurrogates?_map, Option.map_some,
    String.ofList_toList]

/-- A quote starts a string. -/
lemma tokensFrom_quote (rest : List Char) :
    tokensFrom .between ('"' :: rest) = tokensFrom (.quoted [] false) rest := by
  rw [tokensFrom, if_neg (by decide), if_pos rfl]

/-- A quote that is not escaped ends a string. -/
lemma tokensFrom_end {body rest : List Char} {token : Token} {ts : List Token}
    (hbody : stringToken? body.reverse = some token) (h : tokensFrom .between rest = some ts) :
    tokensFrom (.quoted body false) ('"' :: rest) = some (token :: ts) := by
  rw [tokensFrom, if_pos rfl, hbody, h]
  rfl

/-- A string is read back, whatever follows it. -/
theorem tokensFrom_stringText (s : Option String) {rest : List Char} {ts : List Token}
    (h : tokensFrom .between rest = some ts) :
    tokensFrom .between (stringText s ++ rest) = some (.string s :: ts) := by
  cases s with
  | none =>
    have htext : stringText none ++ rest =
        '"' :: '\\' :: 'u' :: 'd' :: '8' :: '0' :: '0' :: '"' :: rest := rfl
    have hbody : stringToken? ['0', '0', '8', 'd', 'u', '\\'].reverse = some (.string none) := by
      decide
    rw [htext, tokensFrom_quote, tokensFrom_escape, tokensFrom_plain (by decide) (by decide),
      tokensFrom_plain (by decide) (by decide), tokensFrom_plain (by decide) (by decide),
      tokensFrom_plain (by decide) (by decide)]
    exact tokensFrom_end hbody h
  | some s =>
    have htext : stringText (some s) ++ rest =
        '"' :: (s.toList.flatMap escapeChar ++ '"' :: rest) := by
      change '"' :: (s.toList.flatMap escapeChar ++ ['"']) ++ rest = _
      rw [List.cons_append, List.append_assoc, List.singleton_append]
    rw [htext, tokensFrom_quote, tokensFrom_flatMap, List.append_nil]
    apply tokensFrom_end
    · rw [List.reverse_reverse, stringToken?_flatMap]
    · exact h

end RelationalAlgebra.Json
