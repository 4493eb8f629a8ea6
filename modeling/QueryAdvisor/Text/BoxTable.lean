import QueryAdvisor.Text.Width
/-!
# Tables drawn with box characters

A table is a header and rows of cells. It is drawn with a full frame of box-drawing
characters: a solid outer border, dotted lines between the columns, a double line under the
header, and dashed lines between rows. Every cell has one blank on each side, and its text is
aligned left within the widest cell of its column, measured in display columns. A cell with
several lines makes its row as tall as its tallest cell, the others padded with blank lines.
-/

namespace QueryAdvisor

/-- A table of text cells under a header. -/
structure BoxTable where
  header : List String
  rows : List (List String)

namespace BoxTable

/-- A text repeated `n` times. -/
def repeatText (s : String) (n : Nat) : String := String.join (List.replicate n s)

/-- The lines of a cell. -/
def cellLines (cell : String) : List String := cell.splitOn "\n"

/-- The widest line of a cell. -/
def cellWidth (cell : String) : Nat := ((cellLines cell).map displayWidth).foldl max 0

/-- The width of each column: its widest cell, header included. -/
def widths (t : BoxTable) : List Nat :=
  (List.range t.header.length).map (fun i =>
    ((t.header :: t.rows).map (fun row => cellWidth (row.getD i ""))).foldl max 0)

/-- A border line: its left end, the fill of each column, the joints, and its right end. -/
def border (ws : List Nat) (left fill joint right : String) : String :=
  left ++ joint.intercalate (ws.map (fun w => repeatText fill (w + 2))) ++ right

/-- The lines of a row of cells. -/
def rowLines (ws : List Nat) (row : List String) : List String :=
  let cells := (List.range ws.length).map (fun i => cellLines (row.getD i ""))
  let height := (cells.map List.length).foldl max 1
  (List.range height).map (fun k =>
    "│" ++ "┆".intercalate ((ws.zip cells).map (fun (w, lines) =>
      let line := lines.getD k ""
      " " ++ line ++ repeatText " " (w - displayWidth line) ++ " ")) ++ "│")

/-- The drawing of the table, its lines joined by newlines. -/
def render (t : BoxTable) : String :=
  let ws := t.widths
  let body := t.rows.map (rowLines ws)
  let between := border ws "├" "╌" "┼" "┤"
  let rowsText := (body.intersperse [between]).flatten
  "\n".intercalate ([border ws "┌" "─" "┬" "┐"] ++ rowLines ws t.header ++ [border ws "╞" "═" "╪" "╡"] ++
    rowsText ++ [border ws "└" "─" "┴" "┘"])

end BoxTable

end QueryAdvisor
