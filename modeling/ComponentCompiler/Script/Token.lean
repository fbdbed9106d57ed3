import ComponentCompiler.Script.Character

/-!
# Lengths of the tokens of a snippet

Each function of this file looks at the front of a text and says how many characters the token
there takes, without deciding whether that token is welcome: which kinds of token may come next is
known to the reader of the grammar only, because a slash can divide or open a regular expression.
A scanner that can fail answers `none`, or `0` where a token of no characters cannot exist.

## Main definitions

* `triviaLength` — blanks and comments
* `wordLength` — identifiers and reserved words, escapes included
* `numberLength`, `stringLength`, `regexLength`, `templateTextLength` — literals
* `punctuatorAt` — the longest operator, bracket or separator
* `isReserved` — the words that are no identifiers
-/

namespace ComponentCompiler.Script

/-- How many characters at the front satisfy the test. -/
def runLength (test : Char → Bool) : List Char → Nat
  | [] => 0
  | c :: rest => if test c then runLength test rest + 1 else 0

/-- Whether a text starts with the given characters. -/
def startsWith (start : List Char) (text : List Char) : Bool :=
  start.isPrefixOf text

/-! ### Blanks and comments -/

/-- The length of the text up to and including the first `*/`. -/
def blockCommentBody : List Char → Option Nat
  | '*' :: '/' :: _ => some 2
  | _ :: rest => (blockCommentBody rest).map (· + 1)
  | [] => none

/-- The length of the comment at the front. A block comment that is never closed is no comment. -/
def commentLength : List Char → Option Nat
  | '/' :: '/' :: rest => some (runLength (fun c => !isLineEnd c) rest + 2)
  | '/' :: '*' :: rest => (blockCommentBody rest).map (· + 2)
  | _ => none

/-! ### Words -/

/-- The length of the escaped character at the front, four hexadecimal digits or any number of them
in braces after a backslash and a `u`; `0` if there is none. -/
def unicodeEscapeLength : List Char → Nat
  | '\\' :: 'u' :: '\x7b' :: rest =>
    let digits := runLength isHexDigit rest
    if digits != 0 && (rest.drop digits).head? == some '\x7d' then digits + 4 else 0
  | '\\' :: 'u' :: rest => if 4 ≤ runLength isHexDigit rest then 6 else 0
  | _ => 0

/-- The length of a run of identifier characters and escapes; characters of an escape that has been
recognised are passed over. -/
def wordTail : (passed : Nat) → List Char → Nat
  | _, [] => 0
  | passed + 1, _ :: rest => wordTail passed rest + 1
  | 0, c :: rest =>
    if isIdentifierPart c then wordTail 0 rest + 1
    else match unicodeEscapeLength (c :: rest) with
      | 0 => 0
      | n + 1 => wordTail n rest + 1

/-- The length of the word at the front; `0` if there is none. -/
def wordLength (text : List Char) : Nat :=
  match text with
  | [] => 0
  | c :: _ =>
    if isIdentifierStart c || unicodeEscapeLength text != 0 then wordTail 0 text else 0

/-- The words that can never be identifiers. -/
def reservedWords : List (List Char) :=
  ["break", "case", "catch", "class", "const", "continue", "debugger", "default", "delete", "do",
    "else", "export", "extends", "false", "finally", "for", "function", "if", "import", "in",
    "instanceof", "new", "null", "return", "super", "switch", "this", "throw", "true", "try",
    "typeof", "var", "void", "while", "with"].map String.toList

/-- Whether a word is reserved, and so no identifier. -/
def isReserved (word : List Char) : Bool :=
  reservedWords.contains word

/-! ### Numbers -/

/-- The length of a run of digits in which single underscores may separate digits. -/
def digitRun (isDigit : Char → Bool) : List Char → Nat
  | '_' :: c :: rest => if isDigit c then digitRun isDigit rest + 2 else 0
  | c :: rest => if isDigit c then digitRun isDigit rest + 1 else 0
  | [] => 0

/-- The length of digits that start with a digit. -/
def digitsLength (isDigit : Char → Bool) (text : List Char) : Nat :=
  match text with
  | '_' :: _ => 0
  | _ => digitRun isDigit text

/-- The length of an exponent; `0` if there is none. -/
def exponentLength : List Char → Nat
  | c :: rest =>
    if c == 'e' || c == 'E' then
      let sign := match rest with
        | '+' :: _ | '-' :: _ => 1
        | _ => 0
      match digitsLength isDigit (rest.drop sign) with
      | 0 => 0
      | digits => digits + sign + 1
    else 0
  | [] => 0

/-- The length of digits after a marker such as `0x`, with an optional `n` at the end. -/
def markedDigits (isDigit : Char → Bool) (text : List Char) : Nat :=
  match digitsLength isDigit text with
  | 0 => 0
  | digits => digits + 2 + if (text.drop digits).head? == some 'n' then 1 else 0

/-- The length of a decimal literal that starts with a digit. -/
def decimalLength (text : List Char) : Nat :=
  let whole := digitsLength isDigit text
  match text.drop whole with
  | 'n' :: _ => whole + 1
  | '.' :: rest =>
    let fraction := digitsLength isDigit rest
    whole + 1 + fraction + exponentLength (rest.drop fraction)
  | rest => whole + exponentLength rest

/-- The length of the numeric literal at the front; `0` if there is none. -/
def numberLength (text : List Char) : Nat :=
  match text with
  | '0' :: mark :: rest =>
    if mark == 'x' || mark == 'X' then markedDigits isHexDigit rest
    else if mark == 'o' || mark == 'O' then markedDigits isOctalDigit rest
    else if mark == 'b' || mark == 'B' then markedDigits (fun c => c == '0' || c == '1') rest
    else decimalLength text
  | '.' :: rest =>
    match digitsLength isDigit rest with
    | 0 => 0
    | digits => digits + 1 + exponentLength (rest.drop digits)
  | c :: _ => if isDigit c then decimalLength text else 0
  | [] => 0

/-! ### Strings, templates and regular expressions -/

/-- The length of what follows the backslash of an escape in a string or template; `none` if the
escape is malformed. -/
def escapeBodyLength : List Char → Option Nat
  | [] => none
  | 'x' :: a :: b :: _ => if isHexDigit a && isHexDigit b then some 3 else none
  | 'x' :: _ => none
  | 'u' :: rest =>
    match unicodeEscapeLength ('\\' :: 'u' :: rest) with
    | 0 => none
    | n + 1 => some n
  | '\r' :: '\n' :: _ => some 2
  | c :: rest => if isOctalDigit c then some (min 3 (runLength isOctalDigit rest + 1)) else some 1

/-- The length of the rest of a string literal, its closing quote included. Line ends may only
stand after a backslash; characters of an escape that has been recognised are passed over. -/
def stringTail (quote : Char) : (passed : Nat) → List Char → Option Nat
  | _, [] => none
  | passed + 1, _ :: rest => (stringTail quote passed rest).map (· + 1)
  | 0, c :: rest =>
    if c == quote then some 1
    else if c == '\n' || c == '\r' then none
    else if c == '\\' then
      match escapeBodyLength rest with
      | none => none
      | some n => (stringTail quote n rest).map (· + 1)
    else (stringTail quote 0 rest).map (· + 1)

/-- Whether a character opens and closes string literals. -/
def isQuote (c : Char) : Bool :=
  c == '"' || c.toNat == 0x27

/-- The length of the string literal at the front, quotes included. -/
def stringLength : List Char → Option Nat
  | c :: rest => if isQuote c then (stringTail c 0 rest).map (· + 1) else none
  | [] => none

/-- The length of the literal text of a template, up to its closing backtick or the next
substitution. -/
def templateTextLength : (passed : Nat) → List Char → Option Nat
  | _, [] => none
  | passed + 1, _ :: rest => (templateTextLength passed rest).map (· + 1)
  | 0, '$' :: '\x7b' :: _ => some 0
  | 0, c :: rest =>
    if c.toNat == 0x60 then some 0
    else if c == '\\' then
      match escapeBodyLength rest with
      | none => none
      | some n => (templateTextLength n rest).map (· + 1)
    else (templateTextLength 0 rest).map (· + 1)

/-- The length of the rest of a regular expression, its closing slash included. Inside a character
class a slash is an ordinary character. -/
def regexTail : (inClass : Bool) → List Char → Option Nat
  | _, [] => none
  | inClass, '\\' :: c :: rest =>
    if isLineEnd c then none else (regexTail inClass rest).map (· + 2)
  | inClass, c :: rest =>
    if isLineEnd c then none
    else if c == '[' then (regexTail true rest).map (· + 1)
    else if c == ']' then (regexTail false rest).map (· + 1)
    else if c == '/' && !inClass then some 1
    else (regexTail inClass rest).map (· + 1)

/-- The length of the regular expression literal at the front, flags included. An empty pattern
would be a comment. -/
def regexLength : List Char → Option Nat
  | '/' :: '*' :: _ | '/' :: '/' :: _ => none
  | '/' :: rest =>
    (regexTail false rest).map fun body =>
      body + 1 + runLength (fun c => 0x61 ≤ c.toNat && c.toNat ≤ 0x7A) (rest.drop body)
  | _ => none

/-! ### Operators, brackets and separators -/

/-- The operators of more than one character that start with the given character, longest first. -/
def longPunctuators : Char → List (List Char)
  | '>' => [['>', '>', '>', '='], ['>', '>', '>'], ['>', '>', '='], ['>', '>'], ['>', '=']]
  | '<' => [['<', '<', '='], ['<', '<'], ['<', '=']]
  | '=' => [['=', '=', '='], ['=', '='], ['=', '>']]
  | '!' => [['!', '=', '='], ['!', '=']]
  | '*' => [['*', '*', '='], ['*', '*'], ['*', '=']]
  | '&' => [['&', '&', '='], ['&', '&'], ['&', '=']]
  | '|' => [['|', '|', '='], ['|', '|'], ['|', '=']]
  | '?' => [['?', '?', '='], ['?', '?'], ['?', '.']]
  | '+' => [['+', '+'], ['+', '=']]
  | '-' => [['-', '-'], ['-', '=']]
  | '/' => [['/', '=']]
  | '%' => [['%', '=']]
  | '^' => [['^', '=']]
  | '.' => [['.', '.', '.']]
  | _ => []

/-- The longest operator, bracket or separator at the front; empty if there is none. A question
mark before a decimal fraction stands alone, so that `a?.5:b` is a conditional. -/
def punctuatorAt (text : List Char) : List Char :=
  match text with
  | [] => []
  | '?' :: '.' :: c :: _ => if isDigit c then ['?'] else ['?', '.']
  | c :: _ =>
    match (longPunctuators c).find? (startsWith · text) with
    | some long => long
    | none => if isPunctuation c && !isQuote c && c.toNat != 0x60 && c != '\\' then [c] else []

end ComponentCompiler.Script
