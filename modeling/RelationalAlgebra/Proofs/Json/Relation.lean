import RelationalAlgebra.Json.Relation
import RelationalAlgebra.Proofs.Json.Forms

/-!
# Options and digests read back

The options of a table are read back if their greatest number of rows has 64 bits, which is all that
a reader accepts.  A digest is read back byte by byte.
-/

namespace RelationalAlgebra

open Json

/-! ## Options of tables -/

namespace TableOptions

/-- Whether the greatest number of rows, if there is one, is a number of 64 bits. -/
def Fits (options : TableOptions) : Prop :=
  ∀ limit ∈ options.maxRows, limit < 2 ^ 64

/-- The JSON value of the options of a table is well formed. -/
@[simp] lemma wellFormed_toJson (options : TableOptions) : options.toJson.WellFormed := by
  cases hlimit : options.maxRows <;> simp [toJson, hlimit]

/-- The options of a table open one object. -/
lemma nesting_toJson (options : TableOptions) : options.toJson.nesting = 1 := by
  cases hlimit : options.maxRows <;> simp [toJson, hlimit, nesting]

/-- A greatest number of rows is read back if it is a number of 64 bits. -/
lemma maxRows?_toJson {maxRows : Option Nat} (h : ∀ limit ∈ maxRows, limit < 2 ^ 64) :
    maxRows? ((maxRows.map fun limit : Nat => Json.int limit).getD .null) = some maxRows := by
  cases maxRows with
  | none => rfl
  | some limit =>
    have hlimit : limit < 2 ^ 64 := h limit rfl
    have hread : intWithin? 0 0xFFFFFFFFFFFFFFFF (.int limit) = some (limit : Int) :=
      intWithin?_int (by omega) (by omega)
    exact congrArg (Option.map fun limit : Int => some limit.toNat) hread

/-- The options of a table are read back if an object may be opened. -/
lemma ofJson?_toJson {options : TableOptions} (h : options.Fits) (depth : Nat) :
    ofJson? depth options.toJson =
      if options.toJson.nesting ≤ depth then some options else none := by
  rw [nesting_toJson]
  cases depth with
  | zero => rfl
  | succ depth =>
    have hfields : someFields? ["null_repr", "max_rows"] (depth + 1) options.toJson =
        some [some (.text options.nullText),
          some ((options.maxRows.map fun limit : Nat => Json.int limit).getD .null)] :=
      @someFields?_record [("null_repr", _), ("max_rows", _)] (by simp) depth
    simp [ofJson?, hfields, maxRows?_toJson h]

/-- A greatest number of rows that is read is a number of 64 bits. -/
lemma lt_of_maxRows? {j : Json} {maxRows : Option Nat} (h : maxRows? j = some maxRows) :
    ∀ limit ∈ maxRows, limit < 2 ^ 64 := by
  unfold maxRows? at h
  split at h
  · obtain rfl := Option.some.inj h
    simp
  · obtain ⟨limit, hlimit, rfl⟩ := Option.map_eq_some_iff.1 h
    have hwithin := le_of_intWithin? hlimit
    intro n hn
    obtain rfl := Option.some.inj hn
    omega

/-- Options of a table that are read open no more than may be opened, and their greatest number of
rows is a number of 64 bits. -/
lemma of_ofJson? {depth : Nat} {j : Json} {options : TableOptions}
    (h : ofJson? depth j = some options) : options.toJson.nesting ≤ depth ∧ options.Fits := by
  rw [nesting_toJson]
  unfold ofJson? at h
  split at h
  · next nullText maxRows hfields =>
    refine ⟨depth_pos_of_someFields? hfields, ?_⟩
    obtain ⟨text, -, hrest⟩ := Option.bind_eq_some_iff.1 h
    obtain ⟨limit, hlimit, heq⟩ := Option.bind_eq_some_iff.1 hrest
    obtain rfl := Option.some.inj heq
    cases maxRows with
    | none =>
      obtain rfl := Option.some.inj hlimit
      exact fun _ hnone => by cases hnone
    | some maxRows => exact lt_of_maxRows? hlimit
  · cases h

end TableOptions

/-! ## Digests -/

namespace Digest

/-- The JSON value of a digest is well formed. -/
@[simp] lemma wellFormed_toJson (digest : Digest) : digest.toJson.WellFormed := by
  simp [toJson]

/-- A byte is read back. -/
lemma byte?_int (byte : UInt8) : byte? (.int byte.toNat) = some byte := by
  have hlt : byte.toNat < 256 := byte.toNat_lt
  rw [byte?, intWithin?_int (by omega) (by omega), Option.map_some, Int.toNat_natCast,
    UInt8.ofNat_toNat]

/-- A digest opens one array. -/
lemma nesting_toJson (digest : Digest) : digest.toJson.nesting = 1 := by
  have hle : digest.toJson.nesting ≤ 0 + 1 := by
    rw [toJson, nesting_array_le, List.forall_mem_map]
    exact fun byte _ => Nat.le_of_eq (nesting_int byte.toNat)
  have hpos : 1 ≤ digest.toJson.nesting := Nat.succ_pos _
  omega

/-- A digest is read back if an array may be opened. -/
lemma ofJson?_toJson (digest : Digest) (depth : Nat) :
    ofJson? depth digest.toJson =
      if digest.toJson.nesting ≤ depth then some digest else none := by
  rw [nesting_toJson]
  cases depth with
  | zero => rfl
  | succ depth =>
    have hbytes : (digest.bytes.toList.map fun byte => Json.int byte.toNat).mapM byte? =
        some digest.bytes.toList := by
      rw [mapM_eq_some_iff, List.forall₂_map_left_iff, List.forall₂_same]
      exact fun byte _ => byte?_int byte
    have hvector : digest = ⟨⟨digest.bytes.toList.toArray, by simp⟩⟩ :=
      congrArg Digest.mk (Vector.toArray_inj.1 Array.toArray_toList.symm)
    simp [ofJson?, toJson, items?, hbytes, ← hvector]

/-- A digest that is read opens no more than may be opened. -/
lemma nesting_le_of_ofJson? {depth : Nat} {j : Json} {digest : Digest}
    (h : ofJson? depth j = some digest) : digest.toJson.nesting ≤ depth := by
  rw [nesting_toJson]
  obtain ⟨items, hitems, -⟩ := Option.bind_eq_some_iff.1 h
  cases depth with
  | zero => cases hitems
  | succ depth => omega

end Digest

end RelationalAlgebra
