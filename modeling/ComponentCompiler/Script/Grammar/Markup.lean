import ComponentCompiler.Script.Grammar.Goal

/-!
# Markup inside expressions

An expression can be a markup element: tags with attributes around literal text, further elements
and expressions in braces. Blanks inside tags mean nothing, while blanks between tags are text, so
the rules leave the text after a tag among children unread. Names of opening and closing tags are
not compared.

## Main definitions

* `markupElementRule` — an element, or a fragment whose tags have no name
* `markupAttributesRule`, `markupChildrenRule` — what a tag, and what an element, holds
-/

namespace ComponentCompiler.Script

variable {source : List Char}

/-- The length of a name in a tag; hyphens may follow its first character. A reserved word is no
name. -/
def markupNameLength (text : List Char) : Nat :=
  match text with
  | [] => 0
  | c :: _ =>
    let n := runLength (fun c => isIdentifierPart c || c == '-') text
    if isIdentifierStart c && !isReserved (text.take n) then n else 0

/-- Passes one character; what follows stays unread if `raw`. -/
def Cursor.shiftChar (raw : Bool) (c : Cursor source) : Cursor source :=
  if raw then c.shiftRaw .punctuator 1 else c.shift .punctuator 1

/-- Passes the given character. -/
def Cursor.expectChar (char : Char) (raw : Bool) (c : Cursor source) : Option (Cursor source) :=
  if c.seesChar char then some (c.shiftChar raw) else none

/-- Passes a name in a tag. An escape would carry on the word at its front, so none may follow. -/
def Cursor.expectMarkupName (kind : TokenKind) (c : Cursor source) : Option (Cursor source) :=
  match markupNameLength c.upcoming with
  | 0 => none
  | n => if n < wordLength c.upcoming then none else some (c.shift kind n)

/-- A tag name: a plain name, one with a namespace, or names joined by dots. -/
def markupNameRule (self : Rules source) (c : Cursor source) : Option (Cursor source) := do
  let (start, c) := c.mark
  let c ← c.expectMarkupName .identifier
  if c.seesChar ':' then (c.shiftChar false).expectMarkupName .identifier
  else self (.markupNameTail start) c

/-- The further names after the first dot of a tag name. They have no hyphens, and such a name has no
namespace. -/
def markupNameTailRule (self : Rules source) (start : Nat) (c : Cursor source) :
    Option (Cursor source) := do
  if c.seesChar '.' then
    let c := c.shiftChar false
    if wordLength c.upcoming < markupNameLength c.upcoming then none
    else
      let c ← c.expectMarkupName .propertyName
      self (.markupNameTail start) (c.close .member start)
  else if c.seesChar ':' then none
  else some c

/-- An expression in braces, which may be spread or missing. What follows it stays unread if it
stands among the children of an element. -/
def markupExpressionRule (self : Rules source) (inside : Bool) (c : Cursor source) :
    Option (Cursor source) := do
  let (start, c) := c.mark
  let c ← c.expectChar '\x7b' false
  let c ←
    if c.seesChar '\x7d' then some c
    else if c.sees "..." then self (.assignment true) c.shiftNext
    else self (.expression true) c
  let c ← c.expectChar '\x7d' inside
  some (c.close .markupExpression start)

/-- The length of the quoted value at the front of a text, quotes included. -/
def markupTextValueLength : List Char → Option Nat
  | quote :: after =>
    let n := runLength (fun c => c != quote) after
    if isQuote quote && n < after.length then some (n + 2) else none
  | [] => none

/-- A value after the equals sign of an attribute. -/
def markupValueRule (self : Rules source) (c : Cursor source) : Option (Cursor source) :=
  if c.seesChar '\x7b' then markupExpressionRule self false c
  else if c.seesChar '<' then self (.markupElement false) c
  else (markupTextValueLength c.upcoming).map fun n => c.shift .string n

/-- The attributes of a tag, each with a name or an expression in braces. -/
def markupAttributesRule (self : Rules source) (c : Cursor source) : Option (Cursor source) := do
  if c.seesChar '\x7b' then
    let c ← markupExpressionRule self false c
    self .markupAttributes c
  else if markupNameLength c.upcoming == 0 then some c
  else
    let (start, c) := c.mark
    let c ← c.expectMarkupName .propertyName
    let c ← if c.seesChar ':' then (c.shiftChar false).expectMarkupName .propertyName else some c
    let c ← if c.seesChar '=' then markupValueRule self (c.shiftChar false) else some c
    self .markupAttributes (c.close .markupAttribute start)

/-- The length of the character reference at the front of a text. -/
def characterReferenceLength : List Char → Option Nat
  | '&' :: '#' :: x :: rest =>
    let hex := x == 'x' || x == 'X'
    let digits := if hex then rest else x :: rest
    let n := runLength (if hex then isHexDigit else isDigit) digits
    let most := if hex then 6 else 5
    if 0 < n && n ≤ most && (digits.drop n).head? == some ';' then
      some (n + (if hex then 4 else 3))
    else none
  | '&' :: rest =>
    let n := runLength Char.isAlpha rest
    if 0 < n && n ≤ 30 && (rest.drop n).head? == some ';' then some (n + 2) else none
  | _ => none

/-- The length of the literal text at the front of the children of an element; `none` if there is
none. -/
def markupTextLength (text : List Char) : Option Nat :=
  match runLength (fun c => !("<\x7b>\x7d&".toList.contains c)) text with
  | 0 => characterReferenceLength text
  | n => some n

/-- The children of a markup element, up to its closing tag. -/
def markupChildrenRule (self : Rules source) (c : Cursor source) : Option (Cursor source) := do
  if startsWith ['<', '/'] c.rest then some c
  else if startsWith ['<'] c.rest then
    let c ← self (.markupElement true) c
    self .markupChildren c
  else if startsWith ['\x7b'] c.rest then
    let c ← markupExpressionRule self true c
    self .markupChildren c
  else
    let n ← markupTextLength c.rest
    self .markupChildren (c.shiftRaw .markupText n)

/-- The closing tag of an element. -/
def closingTagRule (self : Rules source) (inside : Bool) (c : Cursor source) :
    Option (Cursor source) := do
  let (start, c) := c.mark
  let c := c.shift .punctuator 2
  let c ← if c.seesChar '>' then some c else markupNameRule self c
  let c ← c.expectChar '>' inside
  some (c.close .markupTag start)

/-- A markup element, or a fragment whose tags have no name. -/
def markupElementRule (self : Rules source) (inside : Bool) (c : Cursor source) :
    Option (Cursor source) := do
  let (start, c) := c.mark
  let c ← c.expectChar '<' false
  if c.seesChar '>' then
    let c ← self .markupChildren ((c.shiftChar true).close .markupTag start)
    let c ← closingTagRule self inside c
    some (c.close .markupElement start)
  else
    let c ← markupNameRule self c
    let c ← self .markupAttributes c
    if c.seesChar '/' then
      let c ← (c.shiftChar false).expectChar '>' inside
      some ((c.close .markupTag start).close .markupElement start)
    else
      let c ← c.expectChar '>' true
      let c ← self .markupChildren (c.close .markupTag start)
      let c ← closingTagRule self inside c
      some (c.close .markupElement start)

end ComponentCompiler.Script
