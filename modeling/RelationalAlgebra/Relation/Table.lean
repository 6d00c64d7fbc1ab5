import RelationalAlgebra.Relation.Basic

/-!
# Relations as tables

A relation is shown as a heading row, a rule, and a row for each tuple. A column is one character
wider than its widest text, counted in code points, and every text stands after one blank. Rows
beyond a limit are not shown but counted in a last line.
-/

namespace RelationalAlgebra

/-- How a relation is shown: the text of a null, and how many rows at most. -/
structure TableOptions where
  nullText : String := "null"
  maxRows : Option Nat := none
deriving DecidableEq

namespace Relation

/-- The text of a cell. -/
def cellText (options : TableOptions) (value : Scalar) : List Char :=
  if value.isNull then options.nullText.toList else value.display.toList

/-- The titles of the columns. -/
def titles (r : Relation) : List (List Char) :=
  r.heading.map fun attr => attr.display.toList

/-- How many rows are shown. -/
def shownRows (r : Relation) (options : TableOptions) : Nat :=
  match options.maxRows with
  | some limit => min limit r.size
  | none => r.size

/-- The texts of the rows that are shown. -/
def cellRows (r : Relation) (options : TableOptions) : List (List (List Char)) :=
  (r.tuples.take (r.shownRows options)).map fun t => t.map (cellText options)

/-- The width of a column: one more than its longest text. -/
def columnWidth (rows : List (List (List Char))) (column : Nat) (title : List Char) : Nat :=
  (rows.map fun row => (row[column]?.getD []).length).foldl max title.length + 1

/-- The widths of all columns. -/
def columnWidths (titles : List (List Char)) (rows : List (List (List Char))) : List Nat :=
  titles.mapIdx (columnWidth rows)

/-- A text after a blank, filled up with blanks. -/
def paddedCell (text : List Char) (width : Nat) : List Char :=
  ' ' :: (text ++ List.replicate (width - text.length) ' ')

/-- The texts of a row, each filled up to the width of its column. -/
def rowLine (widths : List Nat) (cells : List (List Char)) : List Char :=
  ['|'].intercalate (List.zipWith paddedCell cells widths)

/-- The line between the heading and the rows. -/
def ruleLine (widths : List Nat) : List Char :=
  ['+'].intercalate (widths.map fun width => List.replicate (width + 1) '-')

/-- The line that counts the rows that are not shown, if there are any. -/
def hiddenLines (hidden : Nat) : List (List Char) :=
  if 0 < hidden then
    ["... (".toList ++ Decimal.natText hidden ++ " more rows)".toList]
  else []

/-- The lines of the table. -/
def tableLines (r : Relation) (options : TableOptions) : List (List Char) :=
  let rows := r.cellRows options
  let widths := columnWidths r.titles rows
  rowLine widths r.titles :: ruleLine widths :: rows.map (rowLine widths) ++
    hiddenLines (r.size - r.shownRows options)

/-- The table of a relation. -/
def render (r : Relation) (options : TableOptions) : String :=
  String.ofList (['\n'].intercalate (r.tableLines options))

/-- The text of a relation: its table, with all rows. -/
def display (r : Relation) : String :=
  r.render {}

end Relation

end RelationalAlgebra
