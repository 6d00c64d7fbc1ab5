import Mathlib.Algebra.BigOperators.Group.List.Basic
import Mathlib.Algebra.Ring.Nat
import Mathlib.Order.Bounds.Basic
import RelationalAlgebra.Proofs.Decimal.Numerals
import RelationalAlgebra.Relation.Table

/-!
# Tables are aligned

A line of a table is made of one piece for each column, with a mark between two of them.  The
pieces of one column have the same length in all lines, one more than the width of the column, so
that the lines have the same length and the marks stand below each other.  What the pieces look
like depends on the line: in the rule they are all dashes (`RuleLine`), elsewhere a text between
blanks (`TextLine`).

A text is filled up with as many blanks as it is shorter than its column.  This is a difference of
natural numbers, and the table would be askew if it were cut off at zero; but a width is taken from
the very texts that are shown (`columnWidths_isGreatest`).  Main statement: a relation is shown as
an aligned table of its first tuples, and no difference is cut off.
-/

namespace RelationalAlgebra.Relation

/-! ## Pieces of a line -/

section Pieces

variable {mark : Char} {pieces : List (List Char)} {k : Nat} {piece : List Char}

/-- A line is its first piece, and the others, each preceded by a mark. -/
lemma intercalate_cons (mark : Char) (piece : List Char) (back : List (List Char)) :
    [mark].intercalate (piece :: back) = piece ++ back.flatMap (mark :: ·) := by
  induction back generalizing piece with
  | nil => simp
  | cons next back ih =>
    rw [List.intercalate_cons_cons, ih, List.flatMap_cons, List.append_assoc,
      List.singleton_append, List.cons_append]

/-- A line is the pieces in front of some piece, each followed by a mark, then that piece, and the
pieces behind it, each preceded by a mark. -/
lemma intercalate_split (mark : Char) (front : List (List Char)) (piece : List Char)
    (back : List (List Char)) :
    [mark].intercalate (front ++ piece :: back) =
      front.flatMap (· ++ [mark]) ++ (piece ++ back.flatMap (mark :: ·)) := by
  induction front with
  | nil => exact intercalate_cons mark piece back
  | cons first front ih =>
    rw [List.cons_append, List.intercalate_cons_of_ne_nil (by simp), ih, List.flatMap_cons,
      List.append_assoc, List.append_assoc, List.append_assoc]

/-- Each piece with a mark takes one more than the piece. -/
lemma length_flatMap_marked {marked : List Char → List Char}
    (h : ∀ piece, (marked piece).length = piece.length + 1) (pieces : List (List Char)) :
    (pieces.flatMap marked).length = (pieces.map List.length).sum + pieces.length := by
  induction pieces with
  | nil => rfl
  | cons piece pieces ih =>
    rw [List.flatMap_cons, List.length_append, h, ih, List.map_cons, List.sum_cons,
      List.length_cons]
    omega

/-- What stands in a line from the start of a piece on. -/
lemma drop_intercalate (h : pieces[k]? = some piece) :
    ([mark].intercalate pieces).drop (((pieces.take k).map List.length).sum + k) =
      piece ++ (pieces.drop (k + 1)).flatMap (mark :: ·) := by
  obtain ⟨hk, rfl⟩ := List.getElem?_eq_some_iff.1 h
  have hsplit : pieces = pieces.take k ++ pieces[k] :: pieces.drop (k + 1) := by
    rw [← List.drop_eq_getElem_cons hk, List.take_append_drop]
  have hfront : ((pieces.take k).flatMap (· ++ [mark])).length =
      ((pieces.take k).map List.length).sum + k := by
    rw [length_flatMap_marked fun piece => by simp, List.length_take_of_le hk.le]
  conv_lhs => rw [hsplit, intercalate_split, ← hsplit, ← hfront, List.drop_left]

/-- The length of a line is that of its pieces and of the marks between them. -/
lemma length_intercalate (mark : Char) (pieces : List (List Char)) :
    ([mark].intercalate pieces).length =
      (pieces.map List.length).sum + (pieces.length - 1) := by
  cases pieces with
  | nil => rfl
  | cons piece back =>
    rw [intercalate_cons, List.length_append, length_flatMap_marked fun piece => by simp,
      List.map_cons, List.sum_cons, List.length_cons, Nat.add_sub_cancel, Nat.add_assoc]

end Pieces

/-! ## Aligned lines -/

/-- The offset at which a column starts: behind the columns in front of it, each with one blank,
and behind the mark that follows each of them. -/
def columnStart (widths : List Nat) (k : Nat) : Nat :=
  ((widths.take k).map (· + 1)).sum + k

/-- The length of a line: that of its columns, each with one blank, and of the marks between
them. -/
def lineLength (widths : List Nat) : Nat :=
  (widths.map (· + 1)).sum + (widths.length - 1)

/-- A line that has a mark behind each of its columns but the last. -/
structure Divided (mark : Char) (widths : List Nat) (drawn : List Char) : Prop where
  length_eq : drawn.length = lineLength widths
  mark_at : ∀ k width, widths[k]? = some width → k + 1 < widths.length →
    drawn[columnStart widths k + (width + 1)]? = some mark

/-- A line that shows a text in each of its columns, whole and between blanks. -/
structure TextLine (widths : List Nat) (texts : List (List Char)) (drawn : List Char) : Prop
    extends Divided '|' widths drawn where
  length_texts : texts.length = widths.length
  text_at : ∀ (k : Nat) (text : List Char) (width : Nat),
    texts[k]? = some text → widths[k]? = some width →
      ∃ blanks, 0 < blanks ∧ text.length + blanks = width ∧
        (drawn.drop (columnStart widths k)).take (width + 1) =
          ' ' :: (text ++ List.replicate blanks ' ')

/-- A line that is drawn through all columns. -/
structure RuleLine (widths : List Nat) (drawn : List Char) : Prop
    extends Divided '+' widths drawn where
  dashes_at : ∀ k width, widths[k]? = some width →
    (drawn.drop (columnStart widths k)).take (width + 1) = List.replicate (width + 1) '-'

section Aligned

variable {mark : Char} {widths : List Nat} {pieces : List (List Char)} {k : Nat}

/-- Pieces that are one longer than the widths of the columns stand at the starts of the
columns. -/
lemma drop_columnStart (h : pieces.map List.length = widths.map (· + 1)) {piece : List Char}
    (hpiece : pieces[k]? = some piece) :
    ([mark].intercalate pieces).drop (columnStart widths k) =
      piece ++ (pieces.drop (k + 1)).flatMap (mark :: ·) := by
  rw [columnStart, List.map_take, ← h, ← List.map_take, drop_intercalate hpiece]

/-- Pieces that are one longer than the widths of the columns make a divided line. -/
lemma divided_intercalate (mark : Char) (h : pieces.map List.length = widths.map (· + 1)) :
    Divided mark widths ([mark].intercalate pieces) := by
  have hlength : pieces.length = widths.length := by simpa using congrArg List.length h
  refine ⟨?_, fun k width hwidth hk => ?_⟩
  · rw [length_intercalate, h, hlength, lineLength]
  · have hat : pieces[k]? = some pieces[k] := List.getElem?_eq_getElem (by omega)
    have hsize : pieces[k].length = width + 1 := by
      have := congrArg (·[k]?) h
      simpa [hat, hwidth] using this
    rw [← List.getElem?_drop, drop_columnStart h hat, List.getElem?_append_right hsize.le, hsize,
      Nat.sub_self, List.drop_eq_getElem_cons (by omega)]
    rfl

/-- A rule is drawn through all columns. -/
lemma ruleLine_isRuleLine (widths : List Nat) : RuleLine widths (ruleLine widths) := by
  have hpieces : (widths.map fun width => List.replicate (width + 1) '-').map List.length =
      widths.map (· + 1) := by
    simp
  refine ⟨divided_intercalate '+' hpieces, fun k width hwidth => ?_⟩
  have hpiece : (widths.map fun width => List.replicate (width + 1) '-')[k]? =
      some (List.replicate (width + 1) '-') := by
    simp [hwidth]
  rw [ruleLine, drop_columnStart hpieces hpiece]
  exact List.take_left' List.length_replicate

/-- A text that is shorter than its column is filled up to the end of the column. -/
lemma length_paddedCell {text : List Char} {width : Nat} (h : text.length ≤ width) :
    (paddedCell text width).length = width + 1 := by
  rw [paddedCell, List.length_cons, List.length_append, List.length_replicate,
    Nat.add_sub_cancel' h]

/-- The texts of a row fit if each is shorter than its column. -/
def Fits (texts : List (List Char)) (widths : List Nat) : Prop :=
  List.Forall₂ (fun text width => text.length < width) texts widths

/-- The texts of a row that fit stand in their columns. -/
lemma rowLine_isTextLine {texts : List (List Char)} (h : Fits texts widths) :
    TextLine widths texts (rowLine widths texts) := by
  have hpieces : (List.zipWith paddedCell texts widths).map List.length = widths.map (· + 1) := by
    induction h with
    | nil => rfl
    | cons hfit _ ih => rw [List.zipWith_cons_cons, List.map_cons, ih, List.map_cons,
        length_paddedCell hfit.le]
  refine ⟨divided_intercalate '|' hpieces, h.length_eq, fun k text width htext hwidth => ?_⟩
  have hpair : (text, width) ∈ texts.zip widths :=
    List.mem_of_getElem? (List.getElem?_zip_eq_some.2 ⟨htext, hwidth⟩)
  have hfit : text.length < width := (List.forall₂_iff_zip.1 h).2 hpair
  have hpiece : (List.zipWith paddedCell texts widths)[k]? = some (paddedCell text width) := by
    rw [List.getElem?_zipWith, htext, hwidth]
  refine ⟨width - text.length, Nat.sub_pos_of_lt hfit, Nat.add_sub_cancel' hfit.le, ?_⟩
  rw [rowLine, drop_columnStart hpieces hpiece]
  exact List.take_left' (length_paddedCell hfit.le)

end Aligned

/-! ## Widths -/

/-- A maximum taken step by step is the greatest of the numbers that it is taken of. -/
lemma foldl_max_isGreatest (n : Nat) (ns : List Nat) :
    IsGreatest {m | m ∈ n :: ns} (ns.foldl max n) := by
  induction ns generalizing n with
  | nil => simp
  | cons next ns ih =>
    obtain ⟨hmem, hupper⟩ := ih (max n next)
    refine ⟨?_, fun m hm => ?_⟩
    · have hmax : max n next ∈ [n, next] := by
        rcases Nat.le_total n next with hle | hle <;> simp [hle]
      rcases List.mem_cons.1 hmem with heq | hmem
      · rw [List.foldl_cons, heq]
        exact List.mem_append_left ns hmax
      · exact List.mem_cons_of_mem _ (List.mem_cons_of_mem _ hmem)
    · have hmax : max n next ≤ (next :: ns).foldl max n := hupper List.mem_cons_self
      rcases List.mem_cons.1 hm with rfl | hm
      · exact (Nat.le_max_left _ _).trans hmax
      · rcases List.mem_cons.1 hm with rfl | hm
        · exact (Nat.le_max_right _ _).trans hmax
        · exact hupper (List.mem_cons_of_mem _ hm)

section Widths

variable {titles : List (List Char)} {rows : List (List (List Char))}

/-- The width of a column is one more than the length of its longest text. -/
lemma columnWidths_isGreatest (hrows : ∀ row ∈ rows, row.length = titles.length)
    {k width : Nat} (hwidth : (columnWidths titles rows)[k]? = some width) :
    IsGreatest
      {n | ∃ texts ∈ titles :: rows, ∃ text, texts[k]? = some text ∧ text.length + 1 = n}
      width := by
  rw [columnWidths, List.getElem?_mapIdx, Option.map_eq_some_iff] at hwidth
  obtain ⟨title, htitle, rfl⟩ := hwidth
  have hcell : ∀ row ∈ rows, ∃ text, row[k]? = some text := fun row hrow =>
    ⟨_, List.getElem?_eq_getElem (hrows row hrow ▸ (List.getElem?_eq_some_iff.1 htitle).1)⟩
  obtain ⟨hmem, hupper⟩ := foldl_max_isGreatest title.length
    (rows.map fun row => (row[k]?.getD []).length)
  constructor
  · rcases List.mem_cons.1 hmem with heq | hmem
    · exact ⟨titles, List.mem_cons_self, title, htitle, congrArg (· + 1) heq.symm⟩
    · obtain ⟨row, hrow, heq⟩ := List.mem_map.1 hmem
      obtain ⟨text, htext⟩ := hcell row hrow
      rw [htext] at heq
      exact ⟨row, List.mem_cons_of_mem _ hrow, text, htext, congrArg (· + 1) heq⟩
  · rintro n ⟨texts, htexts, text, htext, rfl⟩
    refine Nat.succ_le_succ (hupper ?_)
    rcases List.mem_cons.1 htexts with rfl | hrow
    · obtain rfl := Option.some.inj (htext.symm.trans htitle)
      exact List.mem_cons_self
    · exact List.mem_cons_of_mem _ (List.mem_map.2 ⟨texts, hrow, by rw [htext]; rfl⟩)

/-- All texts that a width is taken of fit into their columns. -/
lemma fits_columnWidths (hrows : ∀ row ∈ rows, row.length = titles.length)
    {texts : List (List Char)} (htexts : texts ∈ titles :: rows) :
    Fits texts (columnWidths titles rows) := by
  have hlength : texts.length = titles.length := by
    rcases List.mem_cons.1 htexts with rfl | hrow
    · rfl
    · exact hrows texts hrow
  refine List.forall₂_iff_zip.2 ⟨by rw [hlength, columnWidths, List.length_mapIdx], ?_⟩
  intro text width hpair
  obtain ⟨k, hk⟩ := List.mem_iff_getElem?.1 hpair
  obtain ⟨htext, hwidth⟩ := List.getElem?_zip_eq_some.1 hk
  exact (columnWidths_isGreatest hrows hwidth).2 ⟨texts, htexts, text, htext, rfl⟩

end Widths

/-! ## Aligned tables -/

/-- A heading line, a rule and a line for each of the first tuples, all aligned, with a last line
that counts the tuples that are not shown, if there are any. -/
structure AlignedTable (r : Relation) (options : TableOptions) (widths : List Nat)
    (title rule : List Char) (rows trailer : List (List Char)) : Prop where
  width_isGreatest : ∀ (k width : Nat), widths[k]? = some width →
    IsGreatest {n | ∃ texts ∈ r.titles :: r.cellRows options,
      ∃ text, texts[k]? = some text ∧ text.length + 1 = n} width
  title_line : TextLine widths (r.heading.map fun attr => attr.display.toList) title
  rule_line : RuleLine widths rule
  length_rows : rows.length = min (options.maxRows.getD r.size) r.size
  row_lines : List.Forall₂ (fun t line => TextLine widths (t.map (cellText options)) line)
    (r.tuples.take rows.length) rows
  trailer_eq : trailer = if rows.length < r.size then
    [("... (" ++ toString (r.size - rows.length) ++ " more rows)").toList] else []

section Render

variable {r : Relation} {options : TableOptions}

/-- At most all tuples are shown, and at most as many as the limit allows. -/
lemma shownRows_eq (r : Relation) (options : TableOptions) :
    r.shownRows options = min (options.maxRows.getD r.size) r.size := by
  cases h : options.maxRows <;> simp [shownRows, h]

/-- No more tuples are shown than there are. -/
lemma shownRows_le (r : Relation) (options : TableOptions) : r.shownRows options ≤ r.size :=
  shownRows_eq r options ▸ Nat.min_le_right _ _

/-- A row has a text for each column. -/
lemma length_cellRows (hr : r.WellFormed) (options : TableOptions) :
    ∀ row ∈ r.cellRows options, row.length = r.titles.length := by
  intro row hrow
  obtain ⟨t, ht, rfl⟩ := List.mem_map.1 hrow
  rw [List.length_map, hr.1 t (List.mem_of_mem_take ht), titles, List.length_map, arity]

/-- The line that counts the hidden rows shows their number in decimal. -/
lemma hiddenLines_eq (hidden : Nat) :
    hiddenLines hidden =
      if 0 < hidden then [("... (" ++ toString hidden ++ " more rows)").toList] else [] := by
  simp only [hiddenLines, String.toList_append, Decimal.natText_eq_toList]

/-- The lines of a table are aligned. -/
lemma tableLines_aligned (hr : r.WellFormed) (options : TableOptions) :
    let widths := columnWidths r.titles (r.cellRows options)
    AlignedTable r options widths (rowLine widths r.titles) (ruleLine widths)
      ((r.cellRows options).map (rowLine widths)) (hiddenLines (r.size - r.shownRows options)) := by
  intro widths
  have hrows := length_cellRows hr options
  have hlength : ((r.cellRows options).map (rowLine widths)).length = r.shownRows options := by
    rw [List.length_map, cellRows, List.length_map, List.length_take]
    exact Nat.min_eq_left (shownRows_le r options)
  refine ⟨fun k width => columnWidths_isGreatest hrows,
    rowLine_isTextLine (fits_columnWidths hrows List.mem_cons_self), ruleLine_isRuleLine widths,
    hlength.trans (shownRows_eq r options), ?_, ?_⟩
  · rw [hlength, cellRows, List.map_map, List.forall₂_map_right_iff, List.forall₂_same]
    intro t ht
    exact rowLine_isTextLine (fits_columnWidths hrows
      (List.mem_cons_of_mem _ (List.mem_map_of_mem ht)))
  · rw [hlength, hiddenLines_eq]
    simp only [Nat.sub_pos_iff_lt]

/-- Every relation is shown as an aligned table of its first tuples. No text is longer than its
column, and no more rows are shown than there are, so that the blanks behind a text and the hidden
rows are counted by differences that are not cut off. -/
theorem render_aligned (hr : r.WellFormed) (options : TableOptions) :
    let widths := columnWidths r.titles (r.cellRows options)
    (∃ title rule rows trailer, AlignedTable r options widths title rule rows trailer ∧
      r.render options =
        "\n".intercalate ((title :: rule :: rows ++ trailer).map String.ofList)) ∧
    (∀ texts ∈ r.titles :: r.cellRows options,
      List.Forall₂ (fun text width => text.length ≤ width) texts widths) ∧
    r.shownRows options ≤ r.size := by
  intro widths
  refine ⟨⟨_, _, _, _, tableLines_aligned hr options, ?_⟩, fun texts htexts => ?_,
    shownRows_le r options⟩
  · rw [← String.toList_inj, render, String.toList_ofList, String.toList_intercalate, List.map_map]
    simp [tableLines, Function.comp_def]
  · exact (fits_columnWidths (length_cellRows hr options) htexts).imp fun _ _ => Nat.le_of_lt

/-- Two of three rows are shown, with a long text for nulls and a mark and a line break inside
texts. The third row has the longest text of all and does not count. -/
theorem render_aligned_of_hidden_row :
    let r : Relation := ⟨[.name "id", .qualified "t" (.name "a|b")],
      [[.int 1, .null], [.int 2, .text "x|\ny"], [.int 3, .text "not shown at all"]]⟩
    let options : TableOptions := ⟨"nothing", some 2⟩
    r.WellFormed ∧ columnWidths r.titles (r.cellRows options) = [3, 8] ∧
      r.render options =
        " id | t.a|b   \n----+---------\n 1  | nothing \n 2  | x|\ny    \n... (1 more rows)" ∧
      ∃ title rule rows, AlignedTable r options [3, 8] title rule rows
          ["... (1 more rows)".toList] ∧
        rows.length = 2 ∧ lineLength [3, 8] = 14 ∧ columnStart [3, 8] 1 = 5 ∧
        (∀ texts ∈ r.titles :: r.cellRows options,
          List.Forall₂ (fun text width => text.length ≤ width) texts [3, 8]) ∧
        r.shownRows options ≤ r.size := by
  intro r options
  have hr : r.WellFormed := by decide +kernel
  have hwidths : columnWidths r.titles (r.cellRows options) = [3, 8] := by decide +kernel
  obtain ⟨⟨title, rule, rows, trailer, haligned, -⟩, hfit, hshown⟩ := render_aligned hr options
  rw [hwidths] at haligned hfit
  have hrows : rows.length = 2 := haligned.length_rows
  have htrailer : trailer = ["... (1 more rows)".toList] := by
    rw [haligned.trailer_eq, hrows]
    decide +kernel
  exact ⟨hr, hwidths, by decide +kernel, title, rule, rows, htrailer ▸ haligned, hrows,
    by decide +kernel, by decide +kernel, hfit, hshown⟩

/-- A relation without columns has empty lines. -/
example : render ⟨[], [[]]⟩ ⟨"null", some 0⟩ = "\n\n... (1 more rows)" := by decide +kernel

end Render

end RelationalAlgebra.Relation
