import RelationalAlgebra.Json.Value
import RelationalAlgebra.Proofs.Json.Tokens

/-!
# JSON values read back

A value is read back from its text in two steps.  The text is cut into the tokens of the value, in
which a word is always followed by a punctuation mark (`readBack_tokens`).  From its tokens a value
is put together again, whatever is still open around it (`run_tokens`): what is on the stack of
frames is left alone, and the items of an array, or the members of an object, are collected one by
one on top of it.

Main statement: the text of a value is read as the value, if all its numerals are well formed.
-/

namespace RelationalAlgebra.Json

/-- A property of values that passes from the items of an array and the members of an object to
the whole holds of all values. -/
@[elab_as_elim, induction_eliminator]
theorem inductionOnParts {motive : Json → Prop} (null : motive .null)
    (bool : ∀ value, motive (.bool value)) (number : ∀ value, motive (.number value))
    (string : ∀ value, motive (.string value))
    (array : ∀ items, (∀ item ∈ items, motive item) → motive (.array items))
    (object : ∀ members, (∀ member ∈ members, motive member.2) → motive (.object members))
    (j : Json) : motive j := by
  refine Json.rec (motive_1 := motive) (motive_2 := fun items => ∀ item ∈ items, motive item)
    (motive_3 := fun members => ∀ member ∈ members, motive member.2)
    (motive_4 := fun member => motive member.2) null bool number string array object ?_ ?_ ?_ ?_
    (fun _ _ hvalue => hvalue) j
  · intro item hitem
    exact absurd hitem List.not_mem_nil
  · intro head tail hhead htail item hitem
    rcases List.mem_cons.1 hitem with rfl | hrest
    · exact hhead
    · exact htail item hrest
  · intro member hmember
    exact absurd hmember List.not_mem_nil
  · intro head tail hhead htail member hmember
    rcases List.mem_cons.1 hmember with rfl | hrest
    · exact hhead
    · exact htail member hrest

/-! ## Well-formed values -/

/-- A value whose numerals are well formed. -/
def WellFormed (j : Json) : Prop :=
  ∀ token ∈ j.tokens, token.WellFormed

/-- A numeral is a well-formed value if it is a well-formed numeral. -/
@[simp] lemma wellFormed_number (n : Decimal.Numeral) :
    (Json.number n).WellFormed ↔ n.WellFormed := by
  simp [WellFormed, tokens, Token.WellFormed]

/-- Values without parts and numerals are well formed. -/
@[simp] lemma wellFormed_null : Json.null.WellFormed := by
  simp [WellFormed, tokens, Token.WellFormed]

/-- A truth value is well formed. -/
@[simp] lemma wellFormed_bool (b : Bool) : (Json.bool b).WellFormed := by
  simp [WellFormed, tokens, Token.WellFormed]

/-- A string is well formed. -/
@[simp] lemma wellFormed_string (s : Option String) : (Json.string s).WellFormed := by
  simp [WellFormed, tokens, Token.WellFormed]

/-- An array is well formed if its items are. -/
@[simp] lemma wellFormed_array (items : List Json) :
    (Json.array items).WellFormed ↔ ∀ item ∈ items, item.WellFormed := by
  have hrest : ∀ items : List Json, (∀ token ∈ itemTokens items, token.WellFormed) ↔
      ∀ item ∈ items, item.WellFormed := by
    intro items
    induction items with
    | nil => simp [itemTokens, Token.WellFormed]
    | cons item items ih =>
      rw [itemTokens, List.forall_mem_cons, List.forall_mem_append, List.forall_mem_cons, ih]
      exact and_iff_right trivial
  cases items with
  | nil => simp [WellFormed, tokens, Token.WellFormed]
  | cons item items =>
    rw [WellFormed, tokens, List.forall_mem_cons, List.forall_mem_append, List.forall_mem_cons,
      hrest]
    exact and_iff_right trivial

/-- An object is well formed if the values of its members are. -/
@[simp] lemma wellFormed_object (members : List (Option String × Json)) :
    (Json.object members).WellFormed ↔ ∀ member ∈ members, member.2.WellFormed := by
  have hrest : ∀ members : List (Option String × Json),
      (∀ token ∈ memberTokens members, token.WellFormed) ↔
        ∀ member ∈ members, member.2.WellFormed := by
    intro members
    induction members with
    | nil => simp [memberTokens, Token.WellFormed]
    | cons member members ih =>
      rw [memberTokens, List.forall_mem_cons, List.forall_mem_cons, List.forall_mem_cons,
        List.forall_mem_append, List.forall_mem_cons, ih]
      exact (and_iff_right trivial).trans ((and_iff_right trivial).trans (and_iff_right trivial))
  cases members with
  | nil => simp [WellFormed, tokens, Token.WellFormed]
  | cons member members =>
    rw [WellFormed, tokens, List.forall_mem_cons, List.forall_mem_cons, List.forall_mem_cons,
      List.forall_mem_append, List.forall_mem_cons, hrest]
    exact (and_iff_right trivial).trans ((and_iff_right trivial).trans (and_iff_right trivial))

/-- A text is well formed. -/
@[simp] lemma wellFormed_text (s : String) : (text s).WellFormed :=
  wellFormed_string (some s)

/-- An integer is well formed. -/
@[simp] lemma wellFormed_int (n : Int) : (int n).WellFormed :=
  (wellFormed_number _).2 (Decimal.Numeral.wellFormed_ofInt n)

/-- A record is well formed if the values of its members are. -/
@[simp] lemma wellFormed_record (members : List (String × Json)) :
    (record members).WellFormed ↔ ∀ member ∈ members, member.2.WellFormed := by
  rw [record, wellFormed_object, List.forall_mem_map]

/-! ## From the text to the tokens -/

/-- Tokens are read back from their text, in front of every text that can be read and that ends a
word. -/
def ReadBack (tokens : List Token) : Prop :=
  ∀ rest ts, EndsWord rest → tokensFrom .between rest = some ts →
    tokensFrom .between (tokens.flatMap Token.text ++ rest) = some (tokens ++ ts)

variable {a b : List Token} {token : Token}

/-- A single token is read back. -/
lemma readBack_singleton (token : Token) (h : token.WellFormed) : ReadBack [token] := by
  intro rest ts hend hread
  rw [List.flatMap_singleton]
  exact tokensFrom_text h (fun _ => hend) hread

/-- A token that is no word is read back in front of what is read back. -/
lemma ReadBack.cons (hword : token.isWord = false) (hb : ReadBack b) : ReadBack (token :: b) := by
  have hwell : token.WellFormed := by
    cases token with
    | number => cases hword
    | _ => trivial
  intro rest ts hend hread
  rw [List.flatMap_cons, List.append_assoc]
  refine tokensFrom_text hwell (fun htrue => ?_) (hb rest ts hend hread)
  rw [hword] at htrue
  cases htrue

/-- Tokens are read back in sequence if the later ones end a word. -/
lemma ReadBack.append (ha : ReadBack a) (hb : ReadBack b)
    (hend : ∀ rest, EndsWord (b.flatMap Token.text ++ rest)) : ReadBack (a ++ b) := by
  intro rest ts hrest hread
  rw [List.flatMap_append, List.append_assoc, List.append_assoc]
  exact ha _ _ (hend rest) (hb rest ts hrest hread)

/-- The further items of an array, and its end, start with a punctuation mark. -/
lemma endsWord_itemTokens (items : List Json) (rest : List Char) :
    EndsWord ((itemTokens items).flatMap Token.text ++ rest) := by
  cases items with
  | nil =>
    intro c hc
    obtain rfl := Option.some.inj hc
    decide
  | cons item items =>
    intro c hc
    obtain rfl := Option.some.inj hc
    decide

/-- The further members of an object, and its end, start with a punctuation mark. -/
lemma endsWord_memberTokens (members : List (Option String × Json)) (rest : List Char) :
    EndsWord ((memberTokens members).flatMap Token.text ++ rest) := by
  cases members with
  | nil =>
    intro c hc
    obtain rfl := Option.some.inj hc
    decide
  | cons member members =>
    intro c hc
    obtain rfl := Option.some.inj hc
    decide

/-- The further items of an array are read back if each item is. -/
lemma readBack_itemTokens {items : List Json} (h : ∀ item ∈ items, ReadBack item.tokens) :
    ReadBack (itemTokens items) := by
  induction items with
  | nil => exact readBack_singleton .closeArray trivial
  | cons item items ih =>
    have hitem := h item List.mem_cons_self
    have hrest := ih fun other hother => h other (List.mem_cons_of_mem item hother)
    rw [itemTokens]
    exact ReadBack.cons rfl (hitem.append hrest (endsWord_itemTokens items))

/-- The further members of an object are read back if the value of each member is. -/
lemma readBack_memberTokens {members : List (Option String × Json)}
    (h : ∀ member ∈ members, ReadBack member.2.tokens) : ReadBack (memberTokens members) := by
  induction members with
  | nil => exact readBack_singleton .closeObject trivial
  | cons member members ih =>
    have hvalue := h member List.mem_cons_self
    have hrest := ih fun other hother => h other (List.mem_cons_of_mem member hother)
    rw [memberTokens]
    refine ReadBack.cons rfl (ReadBack.cons rfl (ReadBack.cons rfl ?_))
    exact hvalue.append hrest (endsWord_memberTokens members)

/-- The tokens of a well-formed value are read back. -/
theorem readBack_tokens (j : Json) (h : j.WellFormed) : ReadBack j.tokens := by
  induction j with
  | null => exact readBack_singleton .null trivial
  | bool value => exact readBack_singleton (.bool value) trivial
  | number value => exact readBack_singleton (.number value) ((wellFormed_number value).1 h)
  | string value => exact readBack_singleton (.string value) trivial
  | array items ih =>
    rw [wellFormed_array] at h
    cases items with
    | nil => exact ReadBack.cons rfl (readBack_singleton .closeArray trivial)
    | cons item items =>
      have hitem := ih item List.mem_cons_self (h item List.mem_cons_self)
      have hrest : ReadBack (itemTokens items) := readBack_itemTokens fun other hother =>
        ih other (List.mem_cons_of_mem item hother) (h other (List.mem_cons_of_mem item hother))
      rw [tokens]
      exact ReadBack.cons rfl (hitem.append hrest (endsWord_itemTokens items))
  | object members ih =>
    rw [wellFormed_object] at h
    cases members with
    | nil => exact ReadBack.cons rfl (readBack_singleton .closeObject trivial)
    | cons member members =>
      have hvalue := ih member List.mem_cons_self (h member List.mem_cons_self)
      have hrest : ReadBack (memberTokens members) := readBack_memberTokens fun other hother =>
        ih other (List.mem_cons_of_mem member hother)
          (h other (List.mem_cons_of_mem member hother))
      rw [tokens]
      refine ReadBack.cons rfl (ReadBack.cons rfl (ReadBack.cons rfl ?_))
      exact hvalue.append hrest (endsWord_memberTokens members)

/-! ## From the tokens to the value -/

/-- A value does not start with the end of an array. -/
lemma exists_tokens_eq_cons (j : Json) :
    ∃ token ts, j.tokens = token :: ts ∧ token ≠ .closeArray := by
  cases j with
  | null | bool | number | string => exact ⟨_, _, rfl, nofun⟩
  | array items => cases items <;> exact ⟨_, _, rfl, nofun⟩
  | object members => cases members <;> exact ⟨_, _, rfl, nofun⟩

/-- After the tokens of a value, the value has been read, and what was open before is open. -/
def Runs (j : Json) : Prop :=
  ∀ frames, j.tokens.foldlM step (.value frames) = some (.done j frames)

/-- The first item of an array is read as any value in the array. -/
lemma foldlM_firstItem (j : Json) (frames : List Frame) (ts : List Token) :
    (j.tokens ++ ts).foldlM step (.firstItem frames) =
      (j.tokens ++ ts).foldlM step (.value (.array [] :: frames)) := by
  obtain ⟨token, rest, hj, hne⟩ := exists_tokens_eq_cons j
  have hstep : step (.firstItem frames) token = step (.value (.array [] :: frames)) token := by
    cases token with
    | closeArray => exact absurd rfl hne
    | _ => rfl
  rw [hj, List.cons_append, List.foldlM_cons, List.foldlM_cons, hstep]

/-- The further items of an array are added to those that have been read. -/
lemma run_itemTokens {items : List Json} (h : ∀ item ∈ items, Runs item) (item : Json)
    (before : List Json) (frames : List Frame) :
    (itemTokens items).foldlM step (.done item (.array before :: frames)) =
      some (.done (.array (before.reverse ++ item :: items)) frames) := by
  induction items generalizing item before with
  | nil =>
    rw [← List.reverse_cons]
    rfl
  | cons next items ih =>
    have hnext := h next List.mem_cons_self (.array (item :: before) :: frames)
    have hrest := ih (fun other hother => h other (List.mem_cons_of_mem next hother)) next
      (item :: before)
    change (next.tokens ++ itemTokens items).foldlM step
      (.value (.array (item :: before) :: frames)) = _
    rw [List.foldlM_append, hnext, Option.bind_eq_bind, Option.bind_some, hrest,
      List.reverse_cons, List.append_assoc, List.singleton_append]

/-- The further members of an object are added to those that have been read. -/
lemma run_memberTokens {members : List (Option String × Json)}
    (h : ∀ member ∈ members, Runs member.2) (key : Option String) (value : Json)
    (before : List (Option String × Json)) (frames : List Frame) :
    (memberTokens members).foldlM step (.done value (.object before key :: frames)) =
      some (.done (.object (before.reverse ++ (key, value) :: members)) frames) := by
  induction members generalizing key value before with
  | nil =>
    rw [← List.reverse_cons]
    rfl
  | cons next members ih =>
    have hnext := h next List.mem_cons_self (.object ((key, value) :: before) next.1 :: frames)
    have hrest := ih (fun other hother => h other (List.mem_cons_of_mem next hother)) next.1
      next.2 ((key, value) :: before)
    change (next.2.tokens ++ memberTokens members).foldlM step
      (.value (.object ((key, value) :: before) next.1 :: frames)) = _
    rw [List.foldlM_append, hnext, Option.bind_eq_bind, Option.bind_some, hrest,
      List.reverse_cons, List.append_assoc, List.singleton_append]

/-- A value is read from its tokens, whatever is open around it. -/
theorem run_tokens (j : Json) : Runs j := by
  induction j with
  | null => exact fun _ => rfl
  | bool value => exact fun _ => rfl
  | number value => exact fun _ => rfl
  | string value => exact fun _ => rfl
  | array items ih =>
    intro frames
    cases items with
    | nil => rfl
    | cons item items =>
      have hitem := ih item List.mem_cons_self (.array [] :: frames)
      change (item.tokens ++ itemTokens items).foldlM step (.firstItem frames) = _
      rw [foldlM_firstItem, List.foldlM_append, hitem]
      exact run_itemTokens (fun other hother => ih other (List.mem_cons_of_mem item hother)) item
        [] frames
  | object members ih =>
    intro frames
    cases members with
    | nil => rfl
    | cons member members =>
      have hvalue := ih member List.mem_cons_self (.object [] member.1 :: frames)
      change (member.2.tokens ++ memberTokens members).foldlM step
        (.value (.object [] member.1 :: frames)) = _
      rw [List.foldlM_append, hvalue]
      exact run_memberTokens (fun other hother => ih other (List.mem_cons_of_mem member hother))
        member.1 member.2 [] frames

/-- A value is put together again from its tokens. -/
theorem ofTokens?_tokens (j : Json) : ofTokens? j.tokens = some j := by
  rw [ofTokens?, run_tokens j]

/-- The text of a well-formed value is read as the value. -/
theorem parse?_render {j : Json} (h : j.WellFormed) : parse? j.render = some j := by
  have htokens := readBack_tokens j h [] [] endsWord_nil rfl
  rw [List.append_nil, List.append_nil] at htokens
  rw [parse?, render, String.toList_ofList, tokens?, htokens, Option.bind_some, ofTokens?_tokens]

end RelationalAlgebra.Json
