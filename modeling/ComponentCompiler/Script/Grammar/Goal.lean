import ComponentCompiler.Script.Cursor

/-!
# Goals of the snippet grammar

The grammar is written as one rule per goal. A rule moves a cursor over what its goal describes, or
fails; where it needs another goal it calls a given reader of goals. Tying the knot is left to
`ComponentCompiler.Script.Grammar`, so that each rule here is an ordinary function, and laws of the
whole grammar are proved rule by rule.

## Main definitions

* `Goal` — what a rule reads
* `Rule`, `Rules` — how a cursor is moved
-/

namespace ComponentCompiler.Script

/-- What a rule reads. Goals that continue a node carry the mark where that node started. In the
head of a loop the operator `in` is not allowed, and `allowIn` says so. -/
inductive Goal where
  /-- Statements up to a closing brace, a case label or the end. -/
  | statements
  /-- One statement. -/
  | statement
  /-- Statements in braces. -/
  | block
  /-- Declared names with their initial values, separated by commas. -/
  | declarators (allowIn : Bool)
  /-- The cases of a switch. -/
  | switchCases
  /-- The names in the braces of an import or export. -/
  | specifiers
  /-- Assignments separated by commas. -/
  | expression (allowIn : Bool)
  /-- The rest of an expression that has passed a comma. -/
  | sequenceTail (allowIn : Bool)
  /-- An assignment, a conditional, an arrow function or a binary operation. -/
  | assignment (allowIn : Bool)
  /-- Operands joined by operators that bind at least as tightly as the level. -/
  | binary (level : Nat) (allowIn : Bool)
  /-- The rest of a binary operation whose left operand has been read. -/
  | binaryTail (mark : Nat) (level : Nat) (allowIn : Bool)
  /-- An operand with its unary operators, calls and member accesses. -/
  | unary
  /-- A literal, a name, a function, or an expression in parentheses. -/
  | operand
  /-- Member accesses, subscripts, calls and templates after an operand. -/
  | accessTail (mark : Nat) (allowCall : Bool)
  /-- Items separated by commas, up to the given bracket. -/
  | elements (closer : String)
  /-- The entries of an object literal. -/
  | entries
  /-- The members of a class. -/
  | members
  /-- The texts and substitutions of a template, its closing backtick included. -/
  | templateParts
  /-- A markup element, which stands among the children of another one if `inside`. -/
  | markupElement (inside : Bool)
  /-- The further names after the first dot of a tag name. -/
  | markupNameTail (mark : Nat)
  /-- The attributes of a tag. -/
  | markupAttributes
  /-- The children of a markup element, up to its closing tag. -/
  | markupChildren
deriving DecidableEq, Repr

/-- A way to move a cursor over some text, or to fail. -/
abbrev Rule (source : List Char) := Cursor source → Option (Cursor source)

/-- A rule for each goal. -/
abbrev Rules (source : List Char) := Goal → Rule source

variable {source : List Char}

/-- Whether what comes next cannot follow an operand: an arrow, or a word on the same line that is no
operator. A function or class may be a statement of its own, so any word may follow it. -/
def Cursor.isCutOff (c : Cursor source) : Bool :=
  c.sees "=>" ||
    (!c.word.isEmpty && !c.afterLineEnd && !c.lastIs .function && !c.lastIs .classExpression &&
      !c.seesWord "in" && !c.seesWord "instanceof" &&
      !(c.seesWord "of" && !startsWith ['=', '>'] c.afterWord))

/-- Whether what comes next is joined to the last token: a name or digit with no blank between. -/
def Cursor.isJoined (c : Cursor source) : Bool :=
  c.trivia.isEmpty && c.upcoming.head?.any isIdentifierPart &&
    !c.seesWord "in" && !c.seesWord "instanceof"

/-- A string or a number. No name can stand right behind a number. -/
def literalRule (c : Cursor source) : Option (Cursor source) :=
  if numberLength c.upcoming == 0 then c.expectString
  else
    let c := c.shift .number (numberLength c.upcoming)
    if c.isJoined then none else some c

/-- An operand with its calls and member accesses. An arrow function reaches as far as it can, so
nothing may follow it here. -/
def primaryRule (self : Rules source) (start : Nat) (allowCall : Bool) (c : Cursor source) :
    Option (Cursor source) := do
  let c ← self .operand c
  if c.lastIs .arrow then some c else self (.accessTail start allowCall) c

/-- Statements in braces. -/
def blockRule (self : Rules source) (c : Cursor source) : Option (Cursor source) := do
  let (start, c) := c.mark
  let c ← c.expect "\x7b"
  let c ← self .statements c
  let c ← c.expect "\x7d"
  some (c.close .block start)

/-- The parameters of a function, with their parentheses. -/
def parametersRule (self : Rules source) (c : Cursor source) : Option (Cursor source) := do
  let (start, c) := c.mark
  let c ← c.expect "("
  let c ← self (.elements ")") c
  let c ← c.expect ")"
  some (c.close .parameters start)

/-- The arguments of a call, with their parentheses. -/
def argumentsRule (self : Rules source) (c : Cursor source) : Option (Cursor source) := do
  let (start, c) := c.mark
  let c ← c.expect "("
  let c ← self (.elements ")") c
  let c ← c.expect ")"
  some (c.close .arguments start)

/-- A name, string, number or expression in brackets that names an entry of an object or a member
of a class. -/
def keyRule (self : Rules source) (c : Cursor source) : Option (Cursor source) := do
  let (start, c) := c.mark
  if c.sees "[" then
    let c ← self (.assignment true) c.shiftNext
    let c ← c.expect "]"
    some (c.close .computedName start)
  else if c.sees "#" then c.expectPrivateName
  else if !c.word.isEmpty then some (c.shiftWord .propertyName)
  else literalRule c

/-- The parameters and body of a method whose name has been read. -/
def methodRule (self : Rules source) (start : Nat) (c : Cursor source) :
    Option (Cursor source) := do
  let c ← parametersRule self c
  let c ← self .block c
  some (c.close .method start)

/-- A function, which may be asynchronous, a generator, and anonymous. -/
def functionRule (self : Rules source) (c : Cursor source) : Option (Cursor source) := do
  let (start, c) := c.mark
  let c := if c.seesWord "async" then c.shiftWord .keyword else c
  let c ← c.expectWord "function"
  let c := if c.sees "*" then c.shiftNext else c
  let c := if c.seesIdentifier then c.shiftWord .declaredName else c
  let c ← parametersRule self c
  let c ← self .block c
  some (c.close .function start)

/-! ### Classes -/

/-- Passes at most `limit` words that modify the member they stand before. A word is the name of
the member itself if the member goes on right after it. -/
def passModifiers : (limit : Nat) → Cursor source → Cursor source
  | 0, c => c
  | limit + 1, c =>
    let isModifier := c.seesWord "static" || c.seesWord "get" || c.seesWord "set" ||
      (c.seesWord "async" && !c.wordEndsLine)
    let after := c.afterWord
    let namesMember := after.isEmpty ||
      ["(", "=", ";", "\x7d"].any fun text => punctuatorAt after == text.toList
    if isModifier && !namesMember then passModifiers limit (c.shiftWord .keyword) else c

/-- The end of a field: a semicolon, or the end of its line or class. -/
def fieldEnd (c : Cursor source) : Option (Cursor source) :=
  if c.sees ";" then some c.shiftNext
  else if c.sees "\x7d" || c.afterLineEnd then some c
  else none

/-- A field, a method or a static block. -/
def memberRule (self : Rules source) (c : Cursor source) : Option (Cursor source) := do
  let (start, c) := c.mark
  let c := passModifiers 3 c
  -- A brace right after the modifiers can only open a static block.
  if c.sees "\x7b" then
    let c ← self .block c
    some (c.close .staticBlock start)
  else
    let c := if c.sees "*" then c.shiftNext else c
    let c ← keyRule self c
    if c.sees "(" then methodRule self start c
    else
      let c ← if c.sees "=" then self (.assignment true) c.shiftNext else some c
      fieldEnd (c.close .field start)

/-- The members of a class, up to its closing brace. -/
def membersRule (self : Rules source) (c : Cursor source) : Option (Cursor source) := do
  if c.sees "\x7d" then some c
  else if c.sees ";" then self .members c.shiftNext
  else
    let c ← memberRule self c
    self .members c

/-- A class, which may be anonymous. -/
def classRule (self : Rules source) (c : Cursor source) : Option (Cursor source) := do
  let (start, c) := c.mark
  let c ← c.expectWord "class"
  let c := if c.seesIdentifier then c.shiftWord .declaredName else c
  let c ← if c.seesWord "extends" then do
      let c := c.shiftWord .keyword
      let (parent, c) := c.mark
      primaryRule self parent true c
    else some c
  let (body, c) := c.mark
  let c ← c.expect "\x7b"
  let c ← self .members c
  let c ← c.expect "\x7d"
  some ((c.close .classBody body).close .classExpression start)

end ComponentCompiler.Script
