import ComponentCompiler.Text.Width

/-!
# Tables in a terminal

A table has a numbered column and a column of texts. Each column is as wide as its widest cell with
a space on each side; numbers stand on the right, texts on the left.

## Main definitions

* `Command.Table`, `Command.Table.render` — a table and its text

## Main results

* `Command.textWidth_fill` — a filled cell has the width asked for
-/

namespace ComponentCompiler.Command

/-- Texts under a title and a heading, to be numbered. -/
structure Table where
  title : String
  heading : String
  rows : List String

/-- The spaces that fill a text up to a width. -/
def fill (width : Nat) (text : String) : String :=
  String.ofList (List.replicate (width - Text.textWidth text.toList) ' ')

theorem textWidth_fill {width : Nat} {text : String}
    (fits : Text.textWidth text.toList ≤ width) :
    Text.textWidth text.toList + (fill width text).toList.length = width := by
  simp only [fill, String.toList_ofList, List.length_replicate]
  omega

/-- A horizontal line with the given ends and crossing. -/
def line (stroke : Char) (left crossing right : String) (first second : Nat) : String :=
  let run := fun width => String.ofList (List.replicate (width + 2) stroke)
  left ++ run first ++ crossing ++ run second ++ right

/-- A row with the given bars. -/
def row (bar : String) (first second : Nat) (number text : String) : String :=
  bar ++ " " ++ fill first number ++ number ++ " " ++ bar ++ " " ++ text ++ fill second text ++
    " " ++ bar

/-- The width of the widest of some texts. -/
def widest (texts : List String) : Nat :=
  (texts.map fun text => Text.textWidth text.toList).foldl max 0

/-- The lines of a table. -/
def Table.render (table : Table) : List String :=
  let numbers := (List.range table.rows.length).map fun i => toString (i + 1)
  let first := widest ("#" :: numbers)
  let second := widest (table.heading :: table.rows)
  let rows := (numbers.zip table.rows).map fun (number, text) => row "│" first second number text
  [table.title, line '━' "┏" "┳" "┓" first second, row "┃" first second "#" table.heading,
    line '━' "┡" "╇" "┩" first second] ++ rows ++ [line '─' "└" "┴" "┘" first second]

end ComponentCompiler.Command
