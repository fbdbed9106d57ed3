import ComponentCompiler.Text.Line

/-!
# Tidying a page

A page is tidied line by line: white space at the ends of lines is removed, runs of empty lines
shrink, and the page ends with a line feed. The setup section stands between two fences, and a page
whose first fence is never closed is refused.

## Main definitions

* `fence` — the line that opens and closes the setup section
* `trimmedLines` — the lines of a page without white space at their ends
* `collapseBreaks` — shrinks runs of line feeds to two
* `tidy` — the tidied page

## Main results

* `tidy_eq_none_iff` — a page is refused just if its first line is a fence and no other line is
-/

namespace ComponentCompiler

/-- The line that opens and closes the setup section. -/
def fence : List Char := ['-', '-', '-']

/-- A text without the line feeds at its two ends. -/
def stripBreaks (text : List Char) : List Char :=
  ((text.dropWhile (· == '\n')).reverse.dropWhile (· == '\n')).reverse

/-- The lines of a page without white space at their ends. -/
def trimmedLines (page : List Char) : List (List Char) :=
  (Text.splitAt '\n' (stripBreaks page)).map Text.trimEnd

/-- Whether a text starts with two line feeds. -/
def startsWithGap : List Char → Bool
  | '\n' :: '\n' :: _ => true
  | _ => false

/-- Shrinks each run of line feeds to two. -/
def collapseBreaks : List Char → List Char
  | [] => []
  | c :: rest =>
    if c = '\n' && startsWithGap rest then collapseBreaks rest else c :: collapseBreaks rest

/-- Whether the first line is a fence and no other line is. -/
def leavesFenceOpen : List (List Char) → Bool
  | [] => false
  | first :: others => first == fence && !others.contains fence

/-- The tidied page; there is none if the first fence is never closed. -/
def tidyText (page : List Char) : Option (List Char) :=
  let lines := trimmedLines page
  if leavesFenceOpen lines then none
  else some (collapseBreaks (Text.joinWith '\n' lines) ++ ['\n'])

theorem tidy_eq_none_iff (page : List Char) :
    tidyText page = none ↔ leavesFenceOpen (trimmedLines page) = true := by
  simp only [tidyText]
  split <;> simp_all

/-- What is said about a page whose first fence is never closed. -/
def openFence : String := "Unclosed frontmatter fence"

/-- Changes the text of a page, or says why it cannot. -/
abbrev Formatter := String → Except String String

/-- The tidied page. -/
def tidy : Formatter := fun page =>
  match tidyText page.toList with
  | some text => .ok (String.ofList text)
  | none => .error openFence

end ComponentCompiler
