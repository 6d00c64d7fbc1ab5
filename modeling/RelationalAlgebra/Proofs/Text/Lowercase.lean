import Mathlib.Data.List.TakeWhile
import RelationalAlgebra.Lookup

/-!
# The lower case of a part of a text

The small letter of a character does not depend on where it stands, with one exception: a capital
sigma becomes final or medial by the letters around it. So the lower case of a text is, part by
part, the lower case of its parts (`lowercase_append`), a part read among its neighbours
(`lowercaseWithin`), and it is as long there as by itself (`length_lowercaseWithin`). The part has
the same lower case among its neighbours as by itself exactly when its capital sigmas keep their
letters (`lowercaseWithin_eq_iff`), which they do inside the part (`KeepsSigmas.of_inner`) and
where no cased letter adjoins it (`KeepsSigmas.of_uncased`).

For the lookups this says how far the tests without regard to case extend those with regard to it.
They do not where a part ends in a sigma inside a word of the whole, or the other way round.
-/

namespace RelationalAlgebra

namespace Text

/-! ## Parts of a text -/

/-- The lower case of a text between the text before it, read backwards, and the text after it. -/
def lowercaseWithin (before after : List Char) : List Char → List Char
  | [] => []
  | c :: rest =>
    (if c = '\u03a3' then [lowercaseSigma before (rest ++ after)] else lowercaseChar c) ++
      lowercaseWithin (c :: before) after rest

/-- Lowercasing goes through a text part by part. -/
lemma lowercaseAfter_append (before s t : List Char) :
    lowercaseAfter before (s ++ t) =
      lowercaseWithin before t s ++ lowercaseAfter (s.reverse ++ before) t := by
  induction s generalizing before with
  | nil => rfl
  | cons c rest ih => simp [lowercaseAfter, lowercaseWithin, ih]

/-- With nothing after it, a text is lowercased as the rest of a text. -/
lemma lowercaseWithin_nil (before s : List Char) :
    lowercaseWithin before [] s = lowercaseAfter before s := by
  simpa [lowercaseAfter] using (lowercaseAfter_append before s []).symm

/-- The lower case of a text holds the lower case of each part, read among its neighbours. -/
theorem lowercase_append (before s after : List Char) :
    lowercase (before ++ s ++ after) =
      lowercaseWithin [] (s ++ after) before ++ lowercaseWithin before.reverse after s ++
        lowercaseAfter (before ++ s).reverse after := by
  simp [lowercase, lowercaseAfter_append]

/-- The neighbours of a text do not change the length of its lower case. -/
lemma length_lowercaseWithin (before before' after after' s : List Char) :
    (lowercaseWithin before after s).length = (lowercaseWithin before' after' s).length := by
  induction s generalizing before before' with
  | nil => rfl
  | cons c rest ih =>
    simp only [lowercaseWithin, List.length_append, ih (c :: before) (c :: before')]
    split <;> rfl

/-- A text is as long in lower case among its neighbours as by itself. -/
lemma length_lowercaseWithin_eq (before after s : List Char) :
    (lowercaseWithin before after s).length = (lowercase s).length := by
  rw [length_lowercaseWithin before [] after [], lowercaseWithin_nil, lowercase]

/-! ## Capital sigmas -/

/-- Every capital sigma of a text becomes the same small letter between two other texts as it
does in the text by itself. -/
def KeepsSigmas (before s after : List Char) : Prop :=
  ∀ p q, s = p ++ '\u03a3' :: q →
    lowercaseSigma (before ++ p).reverse (q ++ after) = lowercaseSigma p.reverse q

/-- What holds at each sigma of a text holds at its first character, if that is a sigma, and at
each sigma of the rest. -/
lemma forall_sigma_cons {c : Char} {rest : List Char} {P : List Char → List Char → Prop} :
    (∀ p q, c :: rest = p ++ '\u03a3' :: q → P p q) ↔
      (c = '\u03a3' → P [] rest) ∧ ∀ p q, rest = p ++ '\u03a3' :: q → P (c :: p) q := by
  constructor
  · intro h
    exact ⟨fun hc => h [] rest (by rw [hc]; rfl), fun p q hr => h (c :: p) q (by rw [hr]; rfl)⟩
  · rintro ⟨hfirst, hrest⟩ p q h
    cases p with
    | nil =>
      obtain ⟨hc, hr⟩ := List.cons.inj h
      exact hr ▸ hfirst hc
    | cons d p =>
      obtain ⟨rfl, hr⟩ := List.cons.inj h
      exact hrest p q hr

/-- The lower case of the rest of a text, of which a part has been read, is the same among
neighbours as without them exactly when its capital sigmas become the same letters. -/
lemma lowercaseWithin_append_eq_iff (read before after s : List Char) :
    lowercaseWithin (read ++ before) after s = lowercaseAfter read s ↔
      ∀ p q, s = p ++ '\u03a3' :: q →
        lowercaseSigma (p.reverse ++ (read ++ before)) (q ++ after) =
          lowercaseSigma (p.reverse ++ read) q := by
  induction s generalizing read with
  | nil => simp [lowercaseWithin, lowercaseAfter]
  | cons c rest ih =>
    rw [forall_sigma_cons, lowercaseWithin, lowercaseAfter, ← List.cons_append]
    -- a sigma contributes one letter, to be compared; any other character contributes alike
    by_cases hc : c = '\u03a3'
    · rw [if_pos hc, if_pos hc, List.singleton_append, List.singleton_append, List.cons.injEq,
        ih (c :: read)]
      simp [hc]
    · rw [if_neg hc, if_neg hc, List.append_cancel_left_eq, ih (c :: read)]
      simp [hc]

/-- A text has the same lower case among its neighbours as by itself exactly when its capital
sigmas keep their letters. -/
theorem lowercaseWithin_eq_iff (before s after : List Char) :
    lowercaseWithin before.reverse after s = lowercase s ↔ KeepsSigmas before s after := by
  simpa [KeepsSigmas, lowercase] using lowercaseWithin_append_eq_iff [] before.reverse after s

/-- What lies behind a text without cased letters at its start is not met. -/
lemma meetsCased_append {t : List Char} (h : meetsCased t = false) (s : List Char) :
    meetsCased (s ++ t) = meetsCased s := by
  unfold meetsCased at h ⊢
  rw [List.dropWhile_append]
  cases hs : s.dropWhile isCaseIgnorable with
  | nil => simpa using h
  | cons c rest => simp

/-- What lies behind a character that is not passed over is not met. -/
lemma meetsCased_append_of_mem {s : List Char} (h : ∃ c ∈ s, isCaseIgnorable c = false)
    (t : List Char) : meetsCased (s ++ t) = meetsCased s := by
  unfold meetsCased
  rw [List.dropWhile_append]
  cases hs : s.dropWhile isCaseIgnorable with
  | nil =>
    obtain ⟨c, hc, hstop⟩ := h
    rw [List.dropWhile_eq_nil_iff.mp hs c hc] at hstop
    cases hstop
  | cons c rest => simp

/-- Every capital sigma of a text has a character on either side in it that is not passed over in
the search for a cased neighbour. -/
def InnerSigmas (s : List Char) : Prop :=
  ∀ p q, s = p ++ '\u03a3' :: q →
    (∃ c ∈ p, isCaseIgnorable c = false) ∧ ∃ c ∈ q, isCaseIgnorable c = false

/-- A text without capital sigmas has none at its ends. -/
lemma innerSigmas_of_notMem {s : List Char} (h : '\u03a3' ∉ s) : InnerSigmas s := by
  intro p q hs
  exact absurd (by simp [hs]) h

/-- A text whose capital sigmas stand between other characters has the same lower case
everywhere. -/
lemma KeepsSigmas.of_inner {s : List Char} (h : InnerSigmas s) (before after : List Char) :
    KeepsSigmas before s after := by
  intro p q hs
  obtain ⟨hp, hq⟩ := h p q hs
  have hreverse : ∃ c ∈ p.reverse, isCaseIgnorable c = false := by simpa using hp
  rw [lowercaseSigma, List.reverse_append, meetsCased_append_of_mem hreverse,
    meetsCased_append_of_mem hq, lowercaseSigma]

/-- A text that no cased letter adjoins has the same lower case as by itself. -/
lemma KeepsSigmas.of_uncased {before after : List Char}
    (hbefore : meetsCased before.reverse = false) (hafter : meetsCased after = false)
    (s : List Char) : KeepsSigmas before s after := by
  intro p q _
  rw [lowercaseSigma, List.reverse_append, meetsCased_append hbefore, meetsCased_append hafter,
    lowercaseSigma]

/-! ## Where the lower case of a part stands -/

/-- The lower case of a part stands in the lower case of the whole if its sigmas keep their
letters. -/
lemma KeepsSigmas.occursIn {before s after : List Char} (h : KeepsSigmas before s after) :
    occursIn (lowercase s) (lowercase (before ++ s ++ after)) = true := by
  rw [lowercase_append, (lowercaseWithin_eq_iff before s after).mpr h]
  exact occursIn_iff.mpr ⟨_, _, rfl⟩

/-- The lower case of a text starts with that of its start exactly when the sigmas there keep
their letters. -/
lemma lowercase_isPrefixOf_iff (s after : List Char) :
    (lowercase s).isPrefixOf (lowercase (s ++ after)) = true ↔ KeepsSigmas [] s after := by
  have split := lowercase_append [] s after
  simp only [List.nil_append, lowercaseWithin, List.reverse_nil] at split
  rw [List.isPrefixOf_iff_prefix, split, ← lowercaseWithin_eq_iff, List.reverse_nil]
  constructor
  · rintro ⟨rest, h⟩
    exact (List.append_inj_left h (length_lowercaseWithin_eq [] after s).symm).symm
  · rintro h
    exact h ▸ List.prefix_append _ _

/-- The lower case of a text ends with that of its end exactly when the sigmas there keep their
letters. -/
lemma lowercase_isSuffixOf_iff (before s : List Char) :
    (lowercase s).isSuffixOf (lowercase (before ++ s)) = true ↔ KeepsSigmas before s [] := by
  have split := lowercase_append before s []
  simp only [List.append_nil, lowercaseAfter] at split
  rw [List.isSuffixOf_iff_suffix, split, ← lowercaseWithin_eq_iff]
  constructor
  · rintro ⟨rest, h⟩
    exact (List.append_inj_right' h (length_lowercaseWithin_eq before.reverse [] s).symm).symm
  · rintro h
    exact h ▸ List.suffix_append _ _

end Text

/-! ## Lookups without regard to case -/

namespace Lookup

open Text

/-- A lookup holds between two texts. -/
def HoldsOf (lookup : Lookup) (a b : String) : Prop :=
  lookup.apply (.text a) (.text b) = .ok true

/-- A test of texts holds between two texts exactly when their characters pass it. -/
lemma onTexts_eq_ok_true (lookup : Lookup) (a b : String) (test : List Char → List Char → Bool) :
    lookup.onTexts (.text a) (.text b) test = .ok true ↔ test a.toList b.toList = true := by
  simp [onTexts]

/-- A text contains another if it is something, the other, and something more. -/
lemma contains_holdsOf_iff (a b : String) :
    contains.HoldsOf a b ↔ ∃ before after, a.toList = before ++ b.toList ++ after := by
  rw [HoldsOf, apply, onTexts_eq_ok_true, occursIn_iff]

/-- A text starts with another if it is the other and something more. -/
lemma startsWith_holdsOf_iff (a b : String) :
    startsWith.HoldsOf a b ↔ ∃ after, a.toList = b.toList ++ after := by
  rw [HoldsOf, apply, onTexts_eq_ok_true, List.isPrefixOf_iff_prefix]
  exact exists_congr fun _ => eq_comm

/-- A text ends with another if it is something and the other. -/
lemma endsWith_holdsOf_iff (a b : String) :
    endsWith.HoldsOf a b ↔ ∃ before, a.toList = before ++ b.toList := by
  rw [HoldsOf, apply, onTexts_eq_ok_true, List.isSuffixOf_iff_suffix]
  exact exists_congr fun _ => eq_comm

/-- How far the tests of two texts without regard to case extend those with regard to it. -/
structure CaselessExtends (a b : String) : Prop where
  /-- Equal texts are equal without regard to case. -/
  equal : exact.HoldsOf a b → iexact.HoldsOf a b
  /-- A part is a part without regard to case if its sigmas keep their letters at one of the
  places where it stands. -/
  part : contains.HoldsOf a b →
    (∃ before after, a.toList = before ++ b.toList ++ after) ∧
    ∀ before after, a.toList = before ++ b.toList ++ after →
      KeepsSigmas before b.toList after → icontains.HoldsOf a b
  /-- A start is a start without regard to case exactly when its sigmas keep their letters. -/
  start : startsWith.HoldsOf a b → ∃ after, a.toList = b.toList ++ after ∧
    (istartsWith.HoldsOf a b ↔ KeepsSigmas [] b.toList after)
  /-- An end is an end without regard to case exactly when its sigmas keep their letters. -/
  stop : endsWith.HoldsOf a b → ∃ before, a.toList = before ++ b.toList ∧
    (iendsWith.HoldsOf a b ↔ KeepsSigmas before b.toList [])
  /-- If the part has no capital sigmas, or has them between other characters only, nothing else
  is asked. -/
  inner : InnerSigmas b.toList →
    (contains.HoldsOf a b → icontains.HoldsOf a b) ∧
    (startsWith.HoldsOf a b → istartsWith.HoldsOf a b) ∧
    (endsWith.HoldsOf a b → iendsWith.HoldsOf a b)

/-- Equal texts are equal without regard to case. -/
lemma iexact_of_exact {a b : String} (h : exact.HoldsOf a b) : iexact.HoldsOf a b := by
  have same : a = b := by
    simpa [HoldsOf, apply, Scalar.agrees, Scalar.equal, Scalar.compare,
      Std.LawfulEqOrd.compare_eq_iff_eq] using h
  simp [HoldsOf, apply, onLowercase, onTexts, same]

/-- A part whose sigmas keep their letters is contained without regard to case. -/
lemma icontains_of_keepsSigmas {a b : String} {before after : List Char}
    (ha : a.toList = before ++ b.toList ++ after) (h : KeepsSigmas before b.toList after) :
    icontains.HoldsOf a b := by
  rw [HoldsOf, apply, onLowercase, onTexts_eq_ok_true, ha]
  exact h.occursIn

/-- A start is a start without regard to case exactly when its sigmas keep their letters. -/
lemma istartsWith_iff {a b : String} {after : List Char} (ha : a.toList = b.toList ++ after) :
    istartsWith.HoldsOf a b ↔ KeepsSigmas [] b.toList after := by
  rw [HoldsOf, apply, onLowercase, onTexts_eq_ok_true, ha, lowercase_isPrefixOf_iff]

/-- An end is an end without regard to case exactly when its sigmas keep their letters. -/
lemma iendsWith_iff {a b : String} {before : List Char} (ha : a.toList = before ++ b.toList) :
    iendsWith.HoldsOf a b ↔ KeepsSigmas before b.toList [] := by
  rw [HoldsOf, apply, onLowercase, onTexts_eq_ok_true, ha, lowercase_isSuffixOf_iff]

/-- The tests without regard to case extend those with regard to it where the capital sigmas of
the part keep their letters, and for starts and ends only there. -/
theorem caseless_extends (a b : String) : CaselessExtends a b where
  equal := iexact_of_exact
  part h := ⟨(contains_holdsOf_iff a b).mp h, fun _ _ ha => icontains_of_keepsSigmas ha⟩
  start h :=
    have ⟨after, ha⟩ := (startsWith_holdsOf_iff a b).mp h
    ⟨after, ha, istartsWith_iff ha⟩
  stop h :=
    have ⟨before, ha⟩ := (endsWith_holdsOf_iff a b).mp h
    ⟨before, ha, iendsWith_iff ha⟩
  inner hb := by
    refine ⟨fun h => ?part, fun h => ?start, fun h => ?stop⟩
    case part =>
      obtain ⟨before, after, ha⟩ := (contains_holdsOf_iff a b).mp h
      exact icontains_of_keepsSigmas ha (.of_inner hb before after)
    case start =>
      obtain ⟨after, ha⟩ := (startsWith_holdsOf_iff a b).mp h
      exact (istartsWith_iff ha).mpr (.of_inner hb [] after)
    case stop =>
      obtain ⟨before, ha⟩ := (endsWith_holdsOf_iff a b).mp h
      exact (iendsWith_iff ha).mpr (.of_inner hb before [])

/-- A word that ends in a sigma is found without regard to case where it stands alone, and a start
without sigmas is found whatever follows it. -/
theorem caseless_extends_of_whole_word :
    (contains.HoldsOf "Ο ΔΡΟΜΟΣ ΕΔΩ" "ΔΡΟΜΟΣ" ∧ icontains.HoldsOf "Ο ΔΡΟΜΟΣ ΕΔΩ" "ΔΡΟΜΟΣ") ∧
      startsWith.HoldsOf "Straße" "Stra" ∧ istartsWith.HoldsOf "Straße" "Stra" := by
  have found : contains.HoldsOf "Ο ΔΡΟΜΟΣ ΕΔΩ" "ΔΡΟΜΟΣ" := by
    unfold HoldsOf
    decide +kernel
  have start : startsWith.HoldsOf "Straße" "Stra" := by
    unfold HoldsOf
    decide +kernel
  obtain ⟨-, hicontains⟩ := (caseless_extends _ _).part found
  obtain ⟨-, histartsWith, -⟩ :=
    (caseless_extends "Straße" "Stra").inner (innerSigmas_of_notMem (by decide +kernel))
  exact ⟨⟨found, hicontains "Ο ".toList " ΕΔΩ".toList (by decide +kernel)
    (.of_uncased (by decide +kernel) (by decide +kernel) _)⟩, start, histartsWith start⟩

/-- A sigma that ends the part but not the word, or the word but not the part, is another letter
there, so the tests without regard to case fail where those with regard to it hold. -/
theorem caseless_fails_at_final_sigma :
    contains.apply (.text "ΑΣΑ") (.text "ΑΣ") = .ok true ∧
    icontains.apply (.text "ΑΣΑ") (.text "ΑΣ") = .ok false ∧
    startsWith.apply (.text "ΑΣΑ") (.text "ΑΣ") = .ok true ∧
    istartsWith.apply (.text "ΑΣΑ") (.text "ΑΣ") = .ok false ∧
    endsWith.apply (.text "ΑΣ") (.text "Σ") = .ok true ∧
    iendsWith.apply (.text "ΑΣ") (.text "Σ") = .ok false := by
  decide +kernel

end Lookup

end RelationalAlgebra
