import Packetry.Text.Lines
import Packetry.Text.Width

/-!
# Tables

Tables with a frame whose corners are round. The first row is the heading and is set apart by a
line. A column is as wide as its widest cell, with a space on either side. A cell may have
several lines; its row is then as high as the highest of its cells.
-/

namespace Packetry.Table

open Text

/-- The lines of a cell. -/
def cellLines (cell : String) : List (List Char) :=
  fields '\n' cell.toList

/-- The greatest number of a list, or zero. -/
def greatest (ns : List Nat) : Nat :=
  ns.foldl max 0

/-- The width of a cell. -/
def cellWidth (cell : String) : Nat :=
  greatest ((cellLines cell).map width)

/-- The widths of the columns of some rows. -/
def columnWidths (rows : List (List String)) (columns : Nat) : List Nat :=
  (List.range columns).map fun i => greatest (rows.map fun row => cellWidth (row.getD i ""))

/-- A line of the frame. -/
def frameLine (left cross right : Char) (widths : List Nat) : List Char :=
  [left] ++ List.intercalate [cross] (widths.map fun w => List.replicate (w + 2) '─') ++
    [right, '\n']

/-- A line of a cell, filled up to a width. -/
def filled (line : List Char) (w : Nat) : List Char :=
  [' '] ++ line ++ List.replicate (w - width line) ' ' ++ [' ']

/-- The lines of a row. -/
def rowLines (widths : List Nat) (row : List String) : List Char :=
  let cells := row.map cellLines
  let height := greatest (cells.map (·.length))
  ((List.range height).map fun i =>
    ['│'] ++ List.intercalate ['│'] (cells.zipWith (fun c w => filled (c.getD i []) w) widths) ++
      ['│', '\n']).flatten

/-- The table of a heading and of rows below it. -/
def render (heading : List String) (rows : List (List String)) : String :=
  let widths := columnWidths (heading :: rows) heading.length
  String.ofList <|
    frameLine '╭' '┬' '╮' widths ++ rowLines widths heading ++ frameLine '├' '┼' '┤' widths ++
      (rows.map (rowLines widths)).flatten ++ frameLine '╰' '┴' '╯' widths

end Packetry.Table
