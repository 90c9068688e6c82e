import RouteMigration.Text.Columns

/-! Tables drawn with lines. A cell is as many lines as its text has, and every column is
as wide as its widest line. -/

namespace RouteMigration.Text

/-- The signs of a horizontal rule: its two ends, the crossing and the stroke. -/
structure RuleSigns where
  left : Char
  stroke : Char
  crossing : Char
  right : Char

def topSigns : RuleSigns := ⟨'┌', '─', '┬', '┐'⟩

def headerSigns : RuleSigns := ⟨'╞', '═', '╪', '╡'⟩

def rowSigns : RuleSigns := ⟨'├', '╌', '┼', '┤'⟩

def bottomSigns : RuleSigns := ⟨'└', '─', '┴', '┘'⟩

/-- A rule over columns of the given widths, a blank at each side of a cell included. -/
def ruleLine (signs : RuleSigns) (widths : List Nat) : List Char :=
  signs.left :: ([signs.crossing].intercalate
    (widths.map fun w => List.replicate (w + 2) signs.stroke) ++ [signs.right])

abbrev CellLines := List (List Char)

def cellLines (text : String) : CellLines := text.toList.splitOn '\n'

def padTo (width : Nat) (line : List Char) : List Char :=
  line ++ List.replicate (width - columns line) ' '

/-- One line of a row. -/
def rowLine (widths : List Nat) (lines : List (List Char)) : List Char :=
  '│' :: (['┆'].intercalate
    ((widths.zip lines).map fun (w, line) => ' ' :: (padTo w line ++ [' '])) ++ ['│'])

/-- All lines of a row: as many as its tallest cell has. -/
def rowLines (widths : List Nat) (row : List CellLines) : List (List Char) :=
  let height := (row.map List.length).foldl max 0
  (List.range height).map fun i => rowLine widths (row.map (·.getD i []))

def cellWidth (cell : CellLines) : Nat := (cell.map columns).foldl max 0

/-- The width of each of `n` columns. -/
def columnWidths (n : Nat) (rows : List (List CellLines)) : List Nat :=
  (List.range n).map fun i => (rows.map fun row => cellWidth (row.getD i [])).foldl max 0

/-- The lines of a table with a header. -/
def tableLines (header : List String) (rows : List (List String)) : List String :=
  let cells := rows.map (·.map cellLines)
  let head := header.map cellLines
  let widths := columnWidths header.length (head :: cells)
  let body := [ruleLine rowSigns widths].intercalate (cells.map (rowLines widths))
  (ruleLine topSigns widths ::
    (rowLines widths head ++ ruleLine headerSigns widths ::
      (body ++ [ruleLine bottomSigns widths]))).map String.ofList

end RouteMigration.Text
