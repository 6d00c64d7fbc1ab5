import Mathlib.Data.List.Forall2
import Mathlib.Order.MinMax
import RelationalAlgebra.Json.Form
import RelationalAlgebra.Proofs.Json.Values

/-!
# Forms read back

A reader is given the number of arrays and objects that may be opened inside each other, and
`nesting` says how many of them a value opens.  The forms that are written, a single named variant
and an object with all its keys, are read back as soon as the one object that they open may be
opened.  Other spellings are read as well, but none without opening something either.
-/

namespace RelationalAlgebra.Json

mutual

/-- How many arrays and objects a value opens inside each other. -/
def nesting : Json → Nat
  | .array items => itemNesting items + 1
  | .object members => memberNesting members + 1
  | _ => 0

/-- The greatest nesting of some items. -/
def itemNesting : List Json → Nat
  | [] => 0
  | item :: items => max (nesting item) (itemNesting items)

/-- The greatest nesting of the values of some members. -/
def memberNesting : List (Option String × Json) → Nat
  | [] => 0
  | (_, value) :: members => max (nesting value) (memberNesting members)

end

/-! ## Lists of values -/

/-- Reading along a list succeeds if it does on every element. -/
lemma mapM_eq_some_iff {α β : Type} {f : α → Option β} {xs : List α} {ys : List β} :
    xs.mapM f = some ys ↔ List.Forall₂ (fun x y => f x = some y) xs ys := by
  constructor
  · intro h
    induction xs generalizing ys with
    | nil =>
      obtain rfl : [] = ys := Option.some.inj h
      exact .nil
    | cons x xs ih =>
      rw [List.mapM_cons, Option.bind_eq_bind, Option.bind_eq_some_iff] at h
      obtain ⟨y, hy, hrest⟩ := h
      rw [Option.bind_eq_bind, Option.bind_eq_some_iff] at hrest
      obtain ⟨later, hlater, heq⟩ := hrest
      obtain rfl : y :: later = ys := Option.some.inj heq
      exact .cons hy (ih hlater)
  · intro h
    induction h with
    | nil => rfl
    | cons hxy _ ih =>
      rw [List.mapM_cons, hxy, ih]
      rfl

/-- What was written along a list is read back if every element is. -/
lemma mapM_map {α : Type} {write : α → Json} {read : Json → Option α} {fits : α → Prop}
    [DecidablePred fits] {xs : List α}
    (h : ∀ x ∈ xs, read (write x) = if fits x then some x else none) :
    (xs.map write).mapM read = if ∀ x ∈ xs, fits x then some xs else none := by
  induction xs with
  | nil => simp
  | cons x xs ih =>
    rw [List.forall_mem_cons] at h
    rw [List.map_cons, List.mapM_cons, h.1, ih h.2]
    by_cases hx : fits x
    · simp only [List.forall_mem_cons, hx, true_and, if_true]
      split <;> rfl
    · simp [hx]

/-! ## Nesting -/

/-- Items are nested at most as deep as the deepest. -/
lemma itemNesting_le {items : List Json} {depth : Nat} :
    itemNesting items ≤ depth ↔ ∀ item ∈ items, item.nesting ≤ depth := by
  induction items with
  | nil => simp [itemNesting]
  | cons item items ih => rw [itemNesting, Nat.max_le, ih, List.forall_mem_cons]

/-- An array is one deeper than its items. -/
@[simp] lemma nesting_array_le {items : List Json} {depth : Nat} :
    (Json.array items).nesting ≤ depth + 1 ↔ ∀ item ∈ items, item.nesting ≤ depth := by
  rw [nesting, Nat.add_le_add_iff_right, itemNesting_le]

/-- A string opens nothing. -/
@[simp] lemma nesting_text (s : String) : (text s).nesting = 0 := rfl

/-- A number opens nothing. -/
@[simp] lemma nesting_int (n : Int) : (int n).nesting = 0 := rfl

/-- An object is one deeper than the value of its only member. -/
@[simp] lemma nesting_record_singleton (name : String) (content : Json) :
    (record [(name, content)]).nesting = content.nesting + 1 := by
  simp [record, nesting, memberNesting]

/-- An object is one deeper than the deeper one of the values of its two members. -/
@[simp] lemma nesting_record_pair (first second : String) (a b : Json) :
    (record [(first, a), (second, b)]).nesting = max a.nesting b.nesting + 1 := by
  simp [record, nesting, memberNesting]

/-- An object is one deeper than the deepest of the values of its three members. -/
@[simp] lemma nesting_record_triple (first second third : String) (a b c : Json) :
    (record [(first, a), (second, b), (third, c)]).nesting =
      max a.nesting (max b.nesting c.nesting) + 1 := by
  simp [record, nesting, memberNesting]

/-- A string is read back. -/
@[simp] lemma text?_text (s : String) : (text s).text? = some s := rfl

/-- An integer within bounds is read back. -/
lemma intWithin?_int {least greatest n : Int} (hlow : least ≤ n) (hhigh : n ≤ greatest) :
    intWithin? least greatest (.int n) = some n := by
  rw [int, intWithin?, Decimal.Numeral.toInt?_ofInt, Option.bind_some, if_pos ⟨hlow, hhigh⟩]

/-- An integer that is read lies within the bounds. -/
lemma le_of_intWithin? {least greatest n : Int} {j : Json}
    (h : intWithin? least greatest j = some n) : least ≤ n ∧ n ≤ greatest := by
  cases j with
  | number numeral =>
    obtain ⟨i, -, hi⟩ := Option.bind_eq_some_iff.1 h
    split at hi
    · next hwithin => exact Option.some.inj hi ▸ hwithin
    · cases hi
  | _ => cases h

/-! ## Variants -/

/-- A named variant without a content is read back without opening anything. -/
@[simp] lemma variant?_text (depth : Nat) (name : String) :
    variant? depth (text name) = some (name, none) := by
  cases depth <;> rfl

/-- A named variant with a content is read back if an object may be opened. -/
@[simp] lemma variant?_record (depth : Nat) (name : String) (content : Json) :
    variant? (depth + 1) (record [(name, content)]) = some (name, some content) := rfl

/-- No variant with a content is read if nothing may be opened. -/
@[simp] lemma variant?_zero (name : String) (content : Json) :
    variant? 0 (record [(name, content)]) = none := rfl

/-- A variant with a content is only read if an object may be opened. -/
lemma depth_pos_of_variant? {depth : Nat} {j content : Json} {name : String}
    (h : variant? depth j = some (name, some content)) : 0 < depth := by
  cases depth with
  | zero =>
    unfold variant? at h
    split at h <;> simp_all
  | succ depth => exact Nat.succ_pos depth

/-- A choice that is written as its name is read back. -/
lemma choice?_text {α : Type} {ofName? : String → Option α} {name : String} {a : α}
    (h : ofName? name = some a) (depth : Nat) : choice? ofName? depth (text name) = some a := by
  rw [choice?, variant?_text]
  exact h

/-! ## Fields -/

/-- The values of a key are those of the members with this key. -/
lemma valuesOf_cons (key name : String) (value : Json) (members : List (String × Json)) :
    valuesOf key (((name, value) :: members).map fun m => (some m.1, m.2)) =
      (if name = key then [value] else []) ++
        valuesOf key (members.map fun m => (some m.1, m.2)) := by
  by_cases hkey : name = key <;> simp [valuesOf, hkey]

/-- A key that does not stand in an object has no value. -/
lemma valuesOf_eq_nil {key : String} {members : List (String × Json)}
    (h : key ∉ members.map Prod.fst) :
    valuesOf key (members.map fun m => (some m.1, m.2)) = [] := by
  induction members with
  | nil => rfl
  | cons first rest ih =>
    rw [List.map_cons, List.mem_cons, not_or] at h
    rw [valuesOf_cons, if_neg (Ne.symm h.1), List.nil_append, ih h.2]

/-- The value of a key is found if the keys are different. -/
lemma member?_of_mem {members : List (String × Json)} (hkeys : (members.map Prod.fst).Nodup)
    {member : String × Json} (hmember : member ∈ members) :
    member? (members.map fun m => (some m.1, m.2)) member.1 = some (some member.2) := by
  have hvalues : valuesOf member.1 (members.map fun m => (some m.1, m.2)) = [member.2] := by
    induction members with
    | nil => exact absurd hmember List.not_mem_nil
    | cons first rest ih =>
      rw [List.map_cons, List.nodup_cons] at hkeys
      rw [valuesOf_cons]
      rcases List.mem_cons.1 hmember with rfl | hrest
      · rw [if_pos rfl, valuesOf_eq_nil hkeys.1, List.append_nil]
      · have hne : first.1 ≠ member.1 := by
          intro heq
          exact hkeys.1 (heq ▸ List.mem_map_of_mem hrest)
        rw [if_neg hne, List.nil_append, ih hkeys.2 hrest]
  rw [member?, hvalues]

/-- An object with different keys is read back field by field if it may be opened. -/
lemma someFields?_record {members : List (String × Json)}
    (hkeys : (members.map Prod.fst).Nodup) (depth : Nat) :
    someFields? (members.map Prod.fst) (depth + 1) (record members) =
      some (members.map fun m => some m.2) := by
  have hnamed : ((members.map fun m => (some m.1, m.2)).any fun m => m.1.isNone) = false := by
    simp
  have hmembers : (members.map Prod.fst).mapM
      (member? (members.map fun m => (some m.1, m.2))) = some (members.map fun m => some m.2) := by
    rw [mapM_eq_some_iff, List.forall₂_map_left_iff, List.forall₂_map_right_iff,
      List.forall₂_same]
    exact fun member hmember => member?_of_mem hkeys hmember
  rw [record, someFields?, hnamed]
  exact hmembers

/-- No field is read if nothing may be opened. -/
@[simp] lemma fields?_zero (keys : List String) (j : Json) : fields? keys 0 j = none := rfl

/-- Fields, of which any may be missing, are only read if something may be opened. -/
lemma depth_pos_of_someFields? {keys : List String} {depth : Nat} {j : Json}
    {values : List (Option Json)} (h : someFields? keys depth j = some values) : 0 < depth := by
  cases depth with
  | zero => cases h
  | succ depth => exact Nat.succ_pos depth

/-- Fields are only read if something may be opened. -/
lemma depth_pos_of_fields? {keys : List String} {depth : Nat} {j : Json} {values : List Json}
    (h : fields? keys depth j = some values) : 0 < depth := by
  obtain ⟨_, hsome, -⟩ := Option.bind_eq_some_iff.1 h
  exact depth_pos_of_someFields? hsome

/-- An object with different keys is read back if it may be opened. -/
lemma fields?_record {members : List (String × Json)} (hkeys : (members.map Prod.fst).Nodup)
    (depth : Nat) :
    fields? (members.map Prod.fst) (depth + 1) (record members) =
      some (members.map Prod.snd) := by
  rw [fields?, someFields?_record hkeys, Option.bind_some, mapM_eq_some_iff,
    List.forall₂_map_left_iff, List.forall₂_map_right_iff, List.forall₂_same]
  exact fun _ _ => rfl

/-- The two fields of an object are read back if it may be opened. -/
@[simp] lemma fields?_record_pair {first second : String} (hkeys : [first, second].Nodup)
    (a b : Json) (depth : Nat) :
    fields? [first, second] (depth + 1) (record [(first, a), (second, b)]) = some [a, b] :=
  @fields?_record [(first, a), (second, b)] hkeys depth

/-- The three fields of an object are read back if it may be opened. -/
@[simp] lemma fields?_record_triple {first second third : String}
    (hkeys : [first, second, third].Nodup) (a b c : Json) (depth : Nat) :
    fields? [first, second, third] (depth + 1)
      (record [(first, a), (second, b), (third, c)]) = some [a, b, c] :=
  @fields?_record [(first, a), (second, b), (third, c)] hkeys depth

end RelationalAlgebra.Json
