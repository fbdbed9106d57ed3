/-!
# Characters of JavaScript snippets

The lexical grammar of the embedded language sorts characters into blanks, line ends and the
characters that identifiers are made of. Identifiers are defined by exclusion: every character that
is no blank, no control character and no punctuation may start one, and digits may follow. So
letters of every script, `$` and `_` need no table.

## Main definitions

* `isBlank` — the characters that may stand between two tokens
* `isLineEnd` — the blanks that end a line
* `isIdentifierStart`, `isIdentifierPart` — the characters of identifiers
-/

namespace ComponentCompiler.Script

/-- A blank separates tokens and means nothing else. The zero-width space, the word joiner and the
byte order mark count as blanks. -/
def isBlank (c : Char) : Bool :=
  let n := c.toNat
  (9 ≤ n && n ≤ 13) || n == 0x20 || n == 0x85 || n == 0xA0 || n == 0x1680 ||
    (0x2000 ≤ n && n ≤ 0x200B) || n == 0x2028 || n == 0x2029 || n == 0x202F ||
    n == 0x205F || n == 0x2060 || n == 0x3000 || n == 0xFEFF

/-- A line end closes a line comment and lets a statement end without a semicolon. -/
def isLineEnd (c : Char) : Bool :=
  c == '\n' || c == '\r' || c.toNat == 0x2028 || c.toNat == 0x2029

/-- The ASCII characters, control characters aside, that never belong to an identifier: all
punctuation but the dollar sign and the underscore. -/
def isPunctuation (c : Char) : Bool :=
  let n := c.toNat
  (0x21 ≤ n && n ≤ 0x23) || (0x25 ≤ n && n ≤ 0x2F) || (0x3A ≤ n && n ≤ 0x40) ||
    (0x5B ≤ n && n ≤ 0x5E) || n == 0x60 || (0x7B ≤ n && n ≤ 0x7E)

/-- A decimal digit. -/
def isDigit (c : Char) : Bool :=
  0x30 ≤ c.toNat && c.toNat ≤ 0x39

/-- A character that may start an identifier. -/
def isIdentifierStart (c : Char) : Bool :=
  0x20 ≤ c.toNat && !isDigit c && !isPunctuation c && !isBlank c

/-- A character that may continue an identifier. -/
def isIdentifierPart (c : Char) : Bool :=
  isIdentifierStart c || isDigit c

/-- A hexadecimal digit. -/
def isHexDigit (c : Char) : Bool :=
  isDigit c || (0x61 ≤ c.toNat && c.toNat ≤ 0x66) || (0x41 ≤ c.toNat && c.toNat ≤ 0x46)

/-- An octal digit. -/
def isOctalDigit (c : Char) : Bool :=
  0x30 ≤ c.toNat && c.toNat ≤ 0x37

end ComponentCompiler.Script
