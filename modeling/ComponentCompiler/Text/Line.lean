import ComponentCompiler.Text.Blank

/-!
# Lines

A text is taken apart at a separator character, or at the ends of its lines. Indentation works line
by line and knows every line end of the Unicode standard, so that a line separator inside a piece of
code is indented like a line feed.

## Main definitions

* `splitAt`, `joinWith` — the parts of a text between separators, and back
* `keepLines` — the lines of a text, each with its line end
* `indent` — a text with a margin before each line that is not blank

## Main results

* `joinWith_splitAt` — joining the parts gives back the text
* `flatten_keepLines` — the lines of a text make it up
-/

namespace ComponentCompiler.Text

/-- The parts of a text between the occurrences of a separator; there is always at least one. -/
def splitAt (separator : Char) : List Char → List (List Char)
  | [] => [[]]
  | c :: rest =>
    if c = separator then [] :: splitAt separator rest
    else
      match splitAt separator rest with
      | [] => [[c]]
      | part :: parts => (c :: part) :: parts

/-- Joins parts with a separator character between them. -/
def joinWith (separator : Char) : List (List Char) → List Char
  | [] => []
  | [part] => part
  | part :: next :: parts => part ++ separator :: joinWith separator (next :: parts)

theorem splitAt_ne_nil (separator : Char) (text : List Char) : splitAt separator text ≠ [] := by
  cases text with
  | nil => simp [splitAt]
  | cons c rest =>
    unfold splitAt
    split
    · simp
    · split <;> simp

theorem joinWith_splitAt (separator : Char) (text : List Char) :
    joinWith separator (splitAt separator text) = text := by
  induction text with
  | nil => rfl
  | cons c rest ih =>
    unfold splitAt
    split
    · next h =>
      subst h
      cases parts : splitAt c rest with
      | nil => exact absurd parts (splitAt_ne_nil c rest)
      | cons part more =>
        rw [parts] at ih
        simp [joinWith, ih]
    · cases parts : splitAt separator rest with
      | nil => exact absurd parts (splitAt_ne_nil separator rest)
      | cons part more =>
        rw [parts] at ih
        cases more with
        | nil => simpa [joinWith] using ih
        | cons next others => simpa [joinWith] using ih

/-- A character at which a line ends. -/
def isLineBreak (c : Char) : Bool :=
  let n := c.toNat
  (10 ≤ n && n ≤ 13) || (28 ≤ n && n ≤ 30) || n == 0x85 || n == 0x2028 || n == 0x2029

/-- Puts a character in front of the first line. -/
def consToFirst (c : Char) : List (List Char) → List (List Char)
  | [] => [[c]]
  | line :: lines => (c :: line) :: lines

/-- The lines of a text, each with the line end that closes it. A carriage return and a line feed
behind it are one line end. -/
def keepLines : List Char → List (List Char)
  | [] => []
  | '\r' :: '\n' :: rest => ['\r', '\n'] :: keepLines rest
  | c :: rest => if isLineBreak c then [c] :: keepLines rest else consToFirst c (keepLines rest)

theorem flatten_consToFirst (c : Char) (lines : List (List Char)) :
    (consToFirst c lines).flatten = c :: lines.flatten := by
  cases lines <;> simp [consToFirst]

theorem flatten_keepLines (text : List Char) : (keepLines text).flatten = text := by
  fun_induction keepLines text with
  | case1 => rfl
  | case2 rest ih => simp [ih]
  | case3 c rest _ _ ih => simp [ih]
  | case4 c rest _ _ ih => simp [flatten_consToFirst, ih]

/-- Puts the margin before a line, unless the line is blank. -/
def indentLine (margin line : List Char) : List Char :=
  if isBlankText line then line else margin ++ line

/-- Puts the margin before each line of a text that is not blank. -/
def indent (margin text : List Char) : List Char :=
  (keepLines text).flatMap (indentLine margin)

/-- Puts the margin before each line of a string that is not blank. -/
def indented (margin text : String) : String :=
  String.ofList (indent margin.toList text.toList)

end ComponentCompiler.Text
