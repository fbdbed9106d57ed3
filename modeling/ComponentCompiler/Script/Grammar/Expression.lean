import ComponentCompiler.Script.Grammar.Goal

/-!
# Expressions

The rules for expressions follow the usual precedences. Two of them cannot tell at first what they
read: a row in parentheses turns out to be the parameters of an arrow function when an arrow
follows, and an object or array literal turns out to be a pattern when an equals sign follows. They
read what both can be; `ComponentCompiler.Script.Check` looks at the finished tree again.

## Main definitions

* `expressionRule`, `assignmentRule`, `binaryRule`, `unaryRule`, `operandRule` — from loose to tight
* `accessTailRule` — what may follow an operand
* `entriesRule` — object literals
* `templatePartsRule` — templates
-/

namespace ComponentCompiler.Script

variable {source : List Char}

/-! ### Sequences and assignments -/

/-- Assignments separated by commas; several of them form a sequence. -/
def expressionRule (self : Rules source) (allowIn : Bool) (c : Cursor source) :
    Option (Cursor source) := do
  let (start, c) := c.mark
  let c ← self (.assignment allowIn) c
  if c.sees "," then
    let c ← self (.sequenceTail allowIn) c.shiftNext
    some (c.close .sequence start)
  else some c

/-- The rest of a sequence after a comma. -/
def sequenceTailRule (self : Rules source) (allowIn : Bool) (c : Cursor source) :
    Option (Cursor source) := do
  let c ← self (.assignment allowIn) c
  if c.sees "," then self (.sequenceTail allowIn) c.shiftNext else some c

/-- The arrow and body of an arrow function whose parameters have been read. -/
def arrowRule (self : Rules source) (start : Nat) (allowIn : Bool) (c : Cursor source) :
    Option (Cursor source) := do
  let c ← c.expect "=>"
  let c ← if c.sees "\x7b" then self .block c else self (.assignment allowIn) c
  some (c.close .arrow start)

/-- Whether an arrow follows the next character. -/
def arrowFollows (c : Cursor source) : Bool :=
  startsWith ['=', '>'] (c.lookahead 1)

/-- Whether an identifier and an arrow follow the next word on its line. -/
def asyncArrowFollows (c : Cursor source) : Bool :=
  let after := c.afterWord
  let n := wordLength after
  !c.wordEndsLine && n != 0 && !isReserved (after.take n) &&
    startsWith ['=', '>'] (skipTrivia (after.drop n))

/-- The operators that assign, and whether they assign without reading the old value. -/
def assignmentOperator? (text : List Char) : Option Bool :=
  if text == ['='] then some true
  else if ["+=", "-=", "*=", "/=", "%=", "^=", "&=", "|=", ">>=", ">>>=", "<<=", "**=", "&&=",
    "||=", "??="].any (fun operator => text == operator.toList) then some false
  else none

/-- Whether a yield that has been read has no operand: its line ends, or what comes next can only
follow a finished expression. -/
def yieldsNothing (c : Cursor source) : Bool :=
  c.atEnd || c.afterLineEnd || c.seesWord "in" ||
    [")", "]", "\x7d", ",", ";", ":"].any fun text => c.sees text

/-- A yield, whose operand may be missing unless the yield delegates to it. -/
def yieldRule (self : Rules source) (start : Nat) (allowIn : Bool) (c : Cursor source) :
    Option (Cursor source) := do
  let c := c.shiftWord .keyword
  if c.sees "*" then
    let c ← self (.assignment allowIn) c.shiftNext
    some (c.close .yield start)
  else if yieldsNothing c then some (c.close .yield start)
  else
    let c ← self (.assignment allowIn) c
    some (c.close .yield start)

/-- The condition has been read; what follows its question mark is read here. -/
def conditionalRule (self : Rules source) (start : Nat) (allowIn : Bool) (c : Cursor source) :
    Option (Cursor source) := do
  let c ← c.expect "?"
  let c ← self (.assignment true) c
  let c ← c.expect ":"
  let c ← self (.assignment allowIn) c
  some (c.close .conditional start)

/-- An assignment, a conditional, an arrow function or a binary operation. -/
def assignmentRule (self : Rules source) (allowIn : Bool) (c : Cursor source) :
    Option (Cursor source) := do
  let (start, c) := c.mark
  if c.seesWord "yield" then yieldRule self start allowIn c
  else if c.seesIdentifier && startsWith ['=', '>'] c.afterWord then
    arrowRule self start allowIn ((c.shiftWord .identifier).close .parameters start)
  else if c.seesWord "async" && asyncArrowFollows c then
    let (parameter, c) := (c.shiftWord .keyword).mark
    arrowRule self start allowIn ((c.shiftWord .identifier).close .parameters parameter)
  else
    let c ← self (.binary 0 allowIn) c
    -- An arrow function reaches as far as it can, so nothing may follow it here.
    if c.lastIs .arrow then some c
    else if c.sees "?" then conditionalRule self start allowIn c
    else match assignmentOperator? c.next, c.last? with
      | some plain, some target =>
        if target.isTarget plain then
          let c ← self (.assignment allowIn) c.shiftNext
          some (c.close (if plain then .assignment else .augmentedAssignment) start)
        else none
      | _, _ => some c

/-! ### Binary and unary operators -/

/-- How tightly the binary operators bind. -/
def precedence? (operator : List Char) : Option Nat :=
  [("??", 1), ("||", 2), ("&&", 3), ("|", 4), ("^", 5), ("&", 6), ("==", 7), ("!=", 7),
    ("===", 7), ("!==", 7), ("<", 8), (">", 8), ("<=", 8), (">=", 8), ("<<", 9), (">>", 9),
    (">>>", 9), ("+", 10), ("-", 10), ("*", 11), ("/", 11), ("%", 11), ("**", 12)].findSome?
    fun (text, level) => if operator == text.toList then some level else none

/-- How tightly the binary operator that comes next binds, if one comes next. -/
def Cursor.binaryOperator? (allowIn : Bool) (c : Cursor source) : Option Nat :=
  if c.seesWord "instanceof" || (allowIn && c.seesWord "in") then some 8
  else precedence? c.next

/-- Operands joined by operators that bind at least as tightly as the level. -/
def binaryRule (self : Rules source) (level : Nat) (allowIn : Bool) (c : Cursor source) :
    Option (Cursor source) := do
  let (start, c) := c.mark
  let c ← self .unary c
  if c.lastIs .arrow then some c else self (.binaryTail start level allowIn) c

/-- Joins the left operand that has been read with the operands after it. Exponents associate to
the right, all other operators to the left. -/
def binaryTailRule (self : Rules source) (start level : Nat) (allowIn : Bool)
    (c : Cursor source) : Option (Cursor source) :=
  match c.binaryOperator? allowIn with
  | none => some c
  | some binding =>
    if binding < level then some c
    else do
      let c := if c.word.isEmpty then c.shiftNext else c.shiftWord .keyword
      -- Only the exponent admits an operator of its own level on its right.
      let c ← self (.binary (if binding == 12 then 12 else binding + 1) allowIn) c
      self (.binaryTail start level allowIn) (c.close .binary start)

/-- An operand with its unary operators, calls and member accesses. -/
def unaryRule (self : Rules source) (c : Cursor source) : Option (Cursor source) := do
  let (start, c) := c.mark
  if c.sees "!" || c.sees "~" || c.sees "+" || c.sees "-" then
    let c ← self .unary c.shiftNext
    some (c.close .unary start)
  else if c.sees "++" || c.sees "--" then
    let c ← self .unary c.shiftNext
    some (c.close .update start)
  else if c.seesWord "typeof" || c.seesWord "void" || c.seesWord "delete" then
    let c ← self .unary (c.shiftWord .keyword)
    some (c.close .unary start)
  else if c.seesWord "await" then
    let c ← self .unary (c.shiftWord .keyword)
    some (c.close .await start)
  else
    let c ← primaryRule self start true c
    if c.lastIs .arrow then some c
    -- On a new line these signs belong to the next statement.
    else if (c.sees "++" || c.sees "--") && !c.afterLineEnd then
      some (c.shiftNext.close .update start)
      else some c

/-! ### Operands -/

/-- Whether a row consists of at least one item, each followed by a comma but the last, and none of
them spread. -/
def isSequenceRow : List Tree → Bool
  | [] => false
  | [item] => !item.isPunctuator "," && !item.isForm .spread
  | item :: comma :: rest =>
    !item.isPunctuator "," && !item.isForm .spread && comma.isPunctuator "," && isSequenceRow rest

/-- A row in parentheses: the parameters of an arrow function if an arrow follows, and otherwise
one expression. -/
def parenthesisRule (self : Rules source) (c : Cursor source) : Option (Cursor source) := do
  let (start, c) := c.mark
  let c ← c.expect "("
  let (row, c) := c.mark
  let c ← self (.elements ")") c
  if c.sees ")" then
    if arrowFollows c then arrowRule self start true (c.shiftNext.close .parameters start)
    else
      let items := significant (c.done.take (c.done.length - row)).reverse
      if isSequenceRow items then
        let c := if items.length == 1 then c else c.close .sequence row
        some (c.shiftNext.close .parenthesized start)
      else none
  else none

/-- The arguments of an operand that started at the mark, with their parentheses. After the word
`async` they are the parameters of an arrow function if an arrow follows. -/
def applicationRule (self : Rules source) (start : Nat) (c : Cursor source) :
    Option (Cursor source) := do
  let isAsync := c.lastIsName "async"
  let (row, c) := c.mark
  let c ← c.expect "("
  let c ← self (.elements ")") c
  let c ← c.expect ")"
  if c.sees "=>" then
    if isAsync then arrowRule self start true (c.close .parameters row) else none
  else some (c.close .arguments row)

/-- An object construction, or the word that names the constructor of the running call. -/
def constructionRule (self : Rules source) (c : Cursor source) : Option (Cursor source) := do
  let (start, c) := c.mark
  let c ← c.expectWord "new"
  -- A dot before a digit begins a number.
  if c.sees "." && numberLength c.upcoming == 0 then
    let c ← c.shiftNext.expectWord "target"
    some (c.close .metaProperty start)
  else
    let (callee, c) := c.mark
    let c ← primaryRule self callee false c
    let c ← if c.sees "(" then applicationRule self callee c else some c
    some (c.close .construction start)

/-- The word `import` inside an expression: a call, or the properties of the module. -/
def importRule (c : Cursor source) : Option (Cursor source) := do
  let (start, c) := c.mark
  let c ← c.expectWord "import"
  if c.sees "." then
    let c ← c.shiftNext.expectWord "meta"
    some (c.close .metaProperty start)
  else if c.sees "(" then some c
  else none

/-- A template, from its first backtick. -/
def templateRule (self : Rules source) (c : Cursor source) : Option (Cursor source) := do
  let (start, c) := c.mark
  let c ← self .templateParts (c.shiftRaw .punctuator 1)
  some (c.close .template start)

/-- The texts and substitutions of a template, its closing backtick included. -/
def templatePartsRule (self : Rules source) (c : Cursor source) : Option (Cursor source) := do
  let n ← templateTextLength 0 c.rest
  let c := if n == 0 then c else c.shiftRaw .templateText n
  if startsWith ['$', '\x7b'] c.rest then
    let (start, c) := c.mark
    let c ← self (.expression true) (c.shift .punctuator 2)
    if c.sees "\x7d" then
      self .templateParts ((c.shiftRaw .punctuator 1).close .substitution start)
    else none
  else some (c.shift .punctuator 1)

/-- A word in operand position. -/
def wordRule (self : Rules source) (c : Cursor source) : Option (Cursor source) :=
  if c.seesWord "function" then functionRule self c
  else if c.seesWord "class" then classRule self c
  else if c.seesWord "new" then constructionRule self c
  else if c.seesWord "import" then importRule c
  else if ["this", "super", "null", "true", "false"].any (fun text => c.seesWord text) then
    some (c.shiftWord .keyword)
  else if isReserved c.word then none
  else if c.seesWord "async" && !c.wordEndsLine &&
      (c.afterWord.take (wordLength c.afterWord)) == "function".toList then functionRule self c
  else some (c.shiftWord .identifier)

/-- Items in brackets. -/
def arrayRule (self : Rules source) (c : Cursor source) : Option (Cursor source) := do
  let (start, c) := c.mark
  let c ← c.expect "["
  let c ← self (.elements "]") c
  let c ← c.expect "]"
  some (c.close .array start)

/-- Entries in braces. -/
def objectRule (self : Rules source) (c : Cursor source) : Option (Cursor source) := do
  let (start, c) := c.mark
  let c ← c.expect "\x7b"
  let c ← self .entries c
  let c ← c.expect "\x7d"
  some (c.close .object start)

/-- A literal, a name, a function, or an expression in parentheses. -/
def operandRule (self : Rules source) (c : Cursor source) : Option (Cursor source) :=
  if !c.word.isEmpty then wordRule self c
  else if c.seesChar '(' then parenthesisRule self c
  else if c.seesChar '[' then arrayRule self c
  else if c.seesChar '\x7b' then objectRule self c
  else if c.seesChar '\x60' then templateRule self c
  else if c.seesChar '/' then c.expectRegex
  else if c.seesChar '<' then self (.markupElement false) c
  else if c.seesChar '#' then c.expectPrivateName
  else literalRule c

/-- The call of an operand that has been read, and what follows the call. -/
def callTailRule (self : Rules source) (start : Nat) (c : Cursor source) :
    Option (Cursor source) := do
  let c ← applicationRule self start c
  if c.lastIs .arrow then some c else self (.accessTail start true) (c.close .call start)

/-- Member accesses, subscripts, calls and templates after an operand. -/
def accessTailRule (self : Rules source) (start : Nat) (allowCall : Bool) (c : Cursor source) :
    Option (Cursor source) := do
  let resume (form : Form) (c : Cursor source) : Option (Cursor source) :=
    self (.accessTail start allowCall) (c.close form start)
  if c.sees "." || c.sees "?." then
    let optional := c.sees "?."
    let c := c.shiftNext
    if c.sees "#" then
      let c ← c.expectPrivateName
      resume .member c
    else if !c.word.isEmpty then resume .member (c.shiftWord .propertyName)
    else if optional && c.sees "(" then
      let c ← argumentsRule self c
      resume .call c
    else if optional && c.sees "[" then
      let c ← self (.expression true) c.shiftNext
      let c ← c.expect "]"
      resume .subscript c
    else none
  else if c.sees "[" then
    let c ← self (.expression true) c.shiftNext
    let c ← c.expect "]"
    resume .subscript c
  else if allowCall && c.sees "(" then callTailRule self start c
  else if c.seesChar '\x60' then
    let c ← templateRule self c
    resume .call c
  else if c.isCutOff then none
  else some c

/-! ### Rows of items and entries -/

/-- An item, which may be spread. -/
def itemRule (self : Rules source) (c : Cursor source) : Option (Cursor source) := do
  let (start, c) := c.mark
  if c.sees "..." then
    let c ← self (.assignment true) c.shiftNext
    some (c.close .spread start)
  else self (.assignment true) c

/-- Items separated by commas, up to the given bracket; items may be missing. -/
def elementsRule (self : Rules source) (closer : String) (c : Cursor source) :
    Option (Cursor source) := do
  if c.sees closer then some c
  else if c.sees "," then self (.elements closer) c.shiftNext
  else
    let c ← itemRule self c
    if c.sees "," then self (.elements closer) c.shiftNext
    else if c.sees closer then some c
    else none

/-- A value after its key. -/
def pairRule (self : Rules source) (start : Nat) (c : Cursor source) :
    Option (Cursor source) := do
  let c ← c.expect ":"
  let c ← self (.assignment true) c
  some (c.close .pair start)

/-- An entry whose key is a plain word: a method, a pair, or the word alone. A word alone may have
a default value, which is meant for patterns. -/
def wordEntryRule (self : Rules source) (start : Nat) (c : Cursor source) :
    Option (Cursor source) := do
  let after := punctuatorAt c.afterWord
  if after == ['('] then methodRule self start (c.shiftWord .propertyName)
  else if after == [':'] then pairRule self start (c.shiftWord .propertyName)
  else if isReserved c.word then none
  else
    let c := c.shiftWord .shorthand
    if c.sees "=" then
      let c ← self (.assignment true) c.shiftNext
      some (c.close .shorthandDefault start)
    else some c

/-- Whether the next word modifies the method after it, and is not a key itself. -/
def seesMethodModifier (c : Cursor source) : Bool :=
  (c.seesWord "get" || c.seesWord "set" || c.seesWord "async") && !c.afterWord.isEmpty &&
    !(["(", ",", ":", "\x7d", "="].any fun text => punctuatorAt c.afterWord == text.toList)

/-- An entry of an object literal. -/
def entryRule (self : Rules source) (c : Cursor source) : Option (Cursor source) := do
  let (start, c) := c.mark
  if c.sees "..." then
    let c ← self (.assignment true) c.shiftNext
    some (c.close .spread start)
  else if c.sees "*" then
    let c ← keyRule self c.shiftNext
    methodRule self start c
  else if seesMethodModifier c then
    let c := c.shiftWord .keyword
    let c := if c.sees "*" then c.shiftNext else c
    let c ← keyRule self c
    methodRule self start c
  else if !c.word.isEmpty then wordEntryRule self start c
  else
    let c ← keyRule self c
    if c.sees "(" then methodRule self start c else pairRule self start c

/-- The entries of an object literal, up to its closing brace; entries may be missing. -/
def entriesRule (self : Rules source) (c : Cursor source) : Option (Cursor source) := do
  if c.sees "\x7d" then some c
  else if c.sees "," then self .entries c.shiftNext
  else
    let c ← entryRule self c
    if c.sees "," then self .entries c.shiftNext
    else if c.sees "\x7d" then some c
    else none

end ComponentCompiler.Script
