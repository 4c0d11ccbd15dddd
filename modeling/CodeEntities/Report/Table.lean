import CodeEntities.Text.Split
import CodeEntities.Text.Width

namespace CodeEntities

structure Table where
  header : List String
  rows : List (List String)
  deriving Repr, DecidableEq, Inhabited

namespace Table

def cellLines (cell : String) : List String := Text.split (· == '\n') cell

def cellWidth (cell : String) : Nat := ((cellLines cell).map Text.displayWidth).foldl max 0

def widths (t : Table) : List Nat :=
  t.header.zipIdx.map fun (name, i) =>
    ((name :: t.rows.map fun row => row.getD i "").map cellWidth).foldl max 0

def spaces (n : Nat) : String := String.ofList (List.replicate n ' ')

def padded (width : Nat) (line : String) : String :=
  " " ++ line ++ spaces (width - Text.displayWidth line) ++ " "

def rule (left joint right : String) (widths : List Nat) : String :=
  left ++ Text.join joint (widths.map fun w => String.ofList (List.replicate (w + 2) '─')) ++ right

-- The lines of a row; cells with fewer lines than the others end in empty ones.
def rowLines (widths : List Nat) (row : List String) : List String :=
  let cells := row.map cellLines
  let height := (cells.map List.length).foldl max 0
  (List.range height).map fun i =>
    "│" ++ Text.join "│" (List.zipWith (fun w lines => padded w (lines.getD i "")) widths cells) ++ "│"

def render (t : Table) : String :=
  if t.rows.isEmpty then ""
  else
    let w := t.widths
    Text.join "\n" <|
      [rule "╭" "┬" "╮" w] ++ rowLines w t.header ++ [rule "├" "┼" "┤" w] ++
        t.rows.flatMap (rowLines w) ++ [rule "╰" "┴" "╯" w]

end Table

end CodeEntities
