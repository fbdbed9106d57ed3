/-!
# White space

White space is trimmed from lines, from whole texts and from the ends of names. It is the white
space of the Unicode standard together with the four separators U+001C to U+001F. The zero-width
space and the byte order mark do not count.

## Main definitions

* `isBlank` — the characters that are white space
* `trimStart`, `trimEnd`, `trim` — a text without the white space at its start, its end or both
* `isBlankText` — whether a text is empty or white space only
* `trimmed` — `trim` on strings

## Main results

* `isBlank_of_isWhitespace` — the blanks of ASCII are white space
* `trimStart_append_of_blank`, `trimEnd_append_of_blank` — trimming undoes adding white space
-/

namespace ComponentCompiler.Text

/-- A character that is white space. -/
def isBlank (c : Char) : Bool :=
  let n := c.toNat
  (9 ≤ n && n ≤ 13) || (28 ≤ n && n ≤ 32) || n == 0x85 || n == 0xA0 || n == 0x1680 ||
    (0x2000 ≤ n && n ≤ 0x200A) || n == 0x2028 || n == 0x2029 || n == 0x202F ||
    n == 0x205F || n == 0x3000

theorem isBlank_of_isWhitespace {c : Char} (white : c.isWhitespace = true) :
    isBlank c = true := by
  simp only [Char.isWhitespace, Bool.or_eq_true, decide_eq_true_eq] at white
  rcases white with ((h | h) | h) | h <;> subst h <;> decide

/-- A text without the white space at its start. -/
def trimStart (text : List Char) : List Char :=
  text.dropWhile isBlank

/-- A text without the white space at its end. -/
def trimEnd (text : List Char) : List Char :=
  (text.reverse.dropWhile isBlank).reverse

/-- A text without the white space at its two ends. -/
def trim (text : List Char) : List Char :=
  trimEnd (trimStart text)

/-- Whether a text is empty or white space only. -/
def isBlankText (text : List Char) : Bool :=
  text.all isBlank

/-- A string without the white space at its two ends. -/
def trimmed (text : String) : String :=
  String.ofList (trim text.toList)

theorem trimStart_append_of_blank {margin : List Char} (text : List Char)
    (blank : isBlankText margin = true) : trimStart (margin ++ text) = trimStart text := by
  induction margin with
  | nil => rfl
  | cons c rest ih =>
    simp only [isBlankText, List.all_cons, Bool.and_eq_true] at blank
    simpa [trimStart, blank.1] using ih blank.2

theorem trimEnd_append_of_blank {margin : List Char} (text : List Char)
    (blank : isBlankText margin = true) : trimEnd (text ++ margin) = trimEnd text := by
  have reversed : isBlankText margin.reverse = true := by
    simpa [isBlankText] using blank
  have key := trimStart_append_of_blank text.reverse reversed
  simp only [trimStart] at key
  simp [trimEnd, key]

end ComponentCompiler.Text
