import ActionRegistry.Text

/-!
# Tables

A table has a line of headers, a line of dashes and a line for every row. Each column is as wide as
its widest cell, two blanks are between columns, and no line ends in blanks.
-/

namespace ActionRegistry.CommandLine

abbrev Row (n : Nat) := Fin n → String

structure Table (n : Nat) where
  headers : Row n
  rows : List (Row n)

namespace Table

variable {n : Nat}

/-- The number of characters in the widest cell of a column, the header included. -/
def width (t : Table n) (column : Fin n) : Nat :=
  t.rows.foldl (fun widest row => max widest (row column).length) (t.headers column).length

def padded (width : Nat) (cell : String) : String :=
  cell ++ String.ofList (List.replicate (width - cell.length) ' ')

def line (t : Table n) (row : Row n) : String :=
  let cells := (List.finRange n).map fun column => padded (t.width column) (row column)
  Text.trimEnd (String.intercalate "  " cells)

def dashes (t : Table n) : Row n := fun column =>
  String.ofList (List.replicate (t.width column) '-')

def lines (t : Table n) : List String :=
  t.line t.headers :: t.line t.dashes :: t.rows.map t.line

def render (t : Table n) : String := String.join (t.lines.map (· ++ "\n"))

end Table

end ActionRegistry.CommandLine
