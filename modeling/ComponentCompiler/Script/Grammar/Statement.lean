import ComponentCompiler.Script.Grammar.Goal

/-!
# Statements

The rules for statements, declarations and modules. A statement ends with a semicolon, or without
one before a closing brace, at the end of a line, and at the end of the text. A return may stand
outside functions, because a snippet can be the body of one.

## Main definitions

* `statementRule`, `statementsRule` — single statements and rows of them
* `declarationRule`, `declaratorsRule` — declared names
* `importRule`, `exportRule` — modules
-/

namespace ComponentCompiler.Script

variable {source : List Char}

/-- The end of a statement. No statement starts with a colon, so none ends in front of one. -/
def semicolon (c : Cursor source) : Option (Cursor source) :=
  if c.sees ";" then some c.shiftNext
  else if c.sees "\x7d" || c.atEnd || (c.afterLineEnd && !c.sees ":") then some c
  else none

/-- An expression in parentheses. -/
def conditionRule (self : Rules source) (c : Cursor source) : Option (Cursor source) := do
  let (start, c) := c.mark
  let c ← c.expect "("
  let c ← self (.expression true) c
  let c ← c.expect ")"
  some (c.close .parenthesized start)

/-! ### Declarations -/

/-- A declared name or pattern. -/
def bindingRule (self : Rules source) (c : Cursor source) : Option (Cursor source) :=
  if c.sees "[" || c.sees "\x7b" then self .operand c else c.expectIdentifier

/-- Declared names with their initial values, separated by commas. -/
def declaratorsRule (self : Rules source) (allowIn : Bool) (c : Cursor source) :
    Option (Cursor source) := do
  let (start, c) := c.mark
  let c ← bindingRule self c
  let c ← if c.sees "=" then self (.assignment allowIn) c.shiftNext else some c
  let c := c.close .declarator start
  if c.sees "," then self (.declarators allowIn) c.shiftNext else some c

/-- Whether a declaration comes next. The word `let` declares only if a name or pattern follows. -/
def seesDeclaration (c : Cursor source) : Bool :=
  c.seesWord "var" || c.seesWord "const" ||
    (c.seesWord "let" &&
      (punctuatorAt c.afterWord == ['['] || punctuatorAt c.afterWord == ['\x7b'] ||
        (let word := c.afterWord.take (wordLength c.afterWord)
         !word.isEmpty && !isReserved word)))

/-- A declaration of variables. -/
def declarationRule (self : Rules source) (c : Cursor source) : Option (Cursor source) := do
  let (start, c) := c.mark
  let c ← self (.declarators true) (c.shiftWord .keyword)
  let c ← semicolon c
  some (c.close .declaration start)

/-- The word after the given text, past any trivia. -/
def wordAfter (text : List Char) : List Char :=
  text.take (wordLength text)

/-- Whether a named function comes next. -/
def seesNamedFunction (c : Cursor source) : Bool :=
  let named (after : List Char) : Bool :=
    let after := if startsWith ['*'] after then skipTrivia (after.drop 1) else after
    !(wordAfter after).isEmpty && !isReserved (wordAfter after)
  if c.seesWord "function" then named c.afterWord
  else
    c.seesWord "async" && !c.wordEndsLine && wordAfter c.afterWord == "function".toList &&
      named (skipTrivia (c.afterWord.drop 8))

/-- Whether a named class comes next. -/
def seesNamedClass (c : Cursor source) : Bool :=
  c.seesWord "class" && !(wordAfter c.afterWord).isEmpty && !isReserved (wordAfter c.afterWord)

/-! ### Control flow -/

/-- An `if` with its branches. -/
def ifRule (self : Rules source) (c : Cursor source) : Option (Cursor source) := do
  let (start, c) := c.mark
  let c ← conditionRule self (c.shiftWord .keyword)
  let c ← self .statement c
  let c ← if c.seesWord "else" then self .statement (c.shiftWord .keyword) else some c
  some (c.close .ifStatement start)

/-- The rest of a loop over the items of a value, from the word `of` or `in`. -/
def forEachTailRule (self : Rules source) (start : Nat) (c : Cursor source) :
    Option (Cursor source) := do
  let c ← self (.expression true) (c.shiftWord .keyword)
  let c ← c.expect ")"
  let c ← self .statement c
  some (c.close .forEach start)

/-- The rest of a loop with a condition, from the first semicolon of its head. -/
def forTailRule (self : Rules source) (start : Nat) (c : Cursor source) :
    Option (Cursor source) := do
  let c ← c.expect ";"
  let c ← if c.sees ";" then some c else self (.expression true) c
  let c ← c.expect ";"
  let c ← if c.sees ")" then some c else self (.expression true) c
  let c ← c.expect ")"
  let c ← self .statement c
  some (c.close .forStatement start)

/-- A `for` loop of either kind. -/
def forRule (self : Rules source) (c : Cursor source) : Option (Cursor source) := do
  let (start, c) := c.mark
  let c := c.shiftWord .keyword
  let c := if c.seesWord "await" then c.shiftWord .keyword else c
  let c ← c.expect "("
  let (head, c) := c.mark
  if c.sees ";" then forTailRule self start c
  else if seesDeclaration c then
    let c ← self (.declarators false) (c.shiftWord .keyword)
    let c := c.close .declaration head
    if c.seesWord "of" || c.seesWord "in" then forEachTailRule self start c
    else forTailRule self start c
  else
    let c ← self (.expression false) c
    if c.seesWord "of" || c.seesWord "in" then
      if (c.last?.map (·.isTarget true)).getD false then
        forEachTailRule self start (c.close .target head)
      else none
    else forTailRule self start c

/-- A `while` loop. -/
def whileRule (self : Rules source) (c : Cursor source) : Option (Cursor source) := do
  let (start, c) := c.mark
  let c ← conditionRule self (c.shiftWord .keyword)
  let c ← self .statement c
  some (c.close .whileStatement start)

/-- A `do` loop; the semicolon after its condition may be left out anywhere. -/
def doRule (self : Rules source) (c : Cursor source) : Option (Cursor source) := do
  let (start, c) := c.mark
  let c ← self .statement (c.shiftWord .keyword)
  let c ← c.expectWord "while"
  let c ← conditionRule self c
  let c := if c.sees ";" then c.shiftNext else c
  some (c.close .doStatement start)

/-- A `with` statement. -/
def withRule (self : Rules source) (c : Cursor source) : Option (Cursor source) := do
  let (start, c) := c.mark
  let c ← conditionRule self (c.shiftWord .keyword)
  let c ← self .statement c
  some (c.close .withStatement start)

/-- A `switch` with its cases. -/
def switchRule (self : Rules source) (c : Cursor source) : Option (Cursor source) := do
  let (start, c) := c.mark
  let c ← conditionRule self (c.shiftWord .keyword)
  let c ← c.expect "\x7b"
  let c ← self .switchCases c
  let c ← c.expect "\x7d"
  some (c.close .switchStatement start)

/-- The cases of a switch, up to its closing brace. -/
def switchCasesRule (self : Rules source) (c : Cursor source) : Option (Cursor source) := do
  if c.sees "\x7d" then some c
  else
    let (start, c) := c.mark
    let c ←
      if c.seesWord "case" then self (.expression true) (c.shiftWord .keyword)
      else c.expectWord "default"
    let c ← c.expect ":"
    let c ← self .statements c
    self .switchCases (c.close .switchCase start)

/-- The handler of a `try`, whose parameter may be missing. -/
def catchRule (self : Rules source) (c : Cursor source) : Option (Cursor source) := do
  let (start, c) := c.mark
  let c := c.shiftWord .keyword
  let c ←
    if c.sees "(" then do
      let (parameter, c) := c.mark
      let c ← bindingRule self c.shiftNext
      let c ← c.expect ")"
      some (c.close .parameters parameter)
    else some c
  let c ← self .block c
  some (c.close .catchClause start)

/-- A `try` with its handler and its final block. -/
def tryRule (self : Rules source) (c : Cursor source) : Option (Cursor source) := do
  let (start, c) := c.mark
  let c ← self .block (c.shiftWord .keyword)
  let c ← if c.seesWord "catch" then catchRule self c else some c
  let c ← if c.seesWord "finally" then self .block (c.shiftWord .keyword) else some c
  some (c.close .tryStatement start)

/-- A `return`, whose value may be missing. -/
def returnRule (self : Rules source) (c : Cursor source) : Option (Cursor source) := do
  let (start, c) := c.mark
  let c := c.shiftWord .keyword
  let c ←
    if c.sees ";" || c.sees "\x7d" || c.atEnd || c.afterLineEnd then some c
    else self (.expression true) c
  let c ← semicolon c
  some (c.close .jump start)

/-- A `throw`. -/
def throwRule (self : Rules source) (c : Cursor source) : Option (Cursor source) := do
  let (start, c) := c.mark
  let c ← self (.expression true) (c.shiftWord .keyword)
  let c ← semicolon c
  some (c.close .jump start)

/-- A `break`, `continue` or `debugger`; the first two may name a label. -/
def jumpRule (c : Cursor source) : Option (Cursor source) := do
  let (start, c) := c.mark
  let labels := !c.seesWord "debugger"
  let c := c.shiftWord .keyword
  let c :=
    if labels && c.seesIdentifier && !c.afterLineEnd then c.shiftWord .identifier else c
  let c ← semicolon c
  some (c.close .jump start)

/-! ### Modules -/

/-- A name or string that names something in another module. -/
def moduleName (c : Cursor source) : Option (Cursor source) :=
  if c.word.isEmpty then c.expectString else some (c.shiftWord .identifier)

/-- The names in the braces of an import or export. -/
def specifiersRule (self : Rules source) (c : Cursor source) : Option (Cursor source) := do
  if c.sees "\x7d" then some c
  else
    let c ← moduleName c
    let c ← if c.seesWord "as" then moduleName (c.shiftWord .keyword) else some c
    if c.sees "," then self .specifiers c.shiftNext
    else if c.sees "\x7d" then some c
    else none

/-- Names in braces. -/
def namedRule (self : Rules source) (c : Cursor source) : Option (Cursor source) := do
  let c ← c.expect "\x7b"
  let c ← self .specifiers c
  c.expect "\x7d"

/-- All names of a module under one name, or names in braces. -/
def bundleRule (self : Rules source) (c : Cursor source) : Option (Cursor source) := do
  if c.sees "*" then
    let c ← c.shiftNext.expectWord "as"
    c.expectIdentifier
  else namedRule self c

/-- The module that names come from. -/
def sourceRule (c : Cursor source) : Option (Cursor source) := do
  let c ← c.expectWord "from"
  c.expectString

/-- An import of names, or of a module for its effects. -/
def importStatementRule (self : Rules source) (c : Cursor source) : Option (Cursor source) := do
  let (start, c) := c.mark
  let c := c.shiftWord .keyword
  let c ←
    if (stringLength c.upcoming).isSome then c.expectString
    else if c.seesIdentifier then do
      let c := c.shiftWord .identifier
      let c ← if c.sees "," then bundleRule self c.shiftNext else some c
      sourceRule c
    else do
      let c ← bundleRule self c
      sourceRule c
  let c ← if c.seesWord "with" then self .operand (c.shiftWord .keyword) else some c
  let c ← semicolon c
  some (c.close .importDeclaration start)

/-- An export of names, of a declaration, or of a default value. -/
def exportStatementRule (self : Rules source) (c : Cursor source) : Option (Cursor source) := do
  let (start, c) := c.mark
  let c := c.shiftWord .keyword
  let c ←
    if c.sees "*" then do
      let c := c.shiftNext
      let c ← if c.seesWord "as" then moduleName (c.shiftWord .keyword) else some c
      let c ← sourceRule c
      semicolon c
    else if c.sees "\x7b" then do
      let c ← namedRule self c
      let c ← if c.seesWord "from" then sourceRule c else some c
      semicolon c
    else if c.seesWord "default" then do
      let c := c.shiftWord .keyword
      if seesNamedFunction c then functionRule self c
      else if seesNamedClass c then classRule self c
      else do
        let c ← self (.assignment true) c
        if c.lastIs .function || c.lastIs .classExpression then some c else semicolon c
    else if seesDeclaration c then declarationRule self c
    else if seesNamedFunction c then functionRule self c
    else if seesNamedClass c then classRule self c
    else none
  some (c.close .exportDeclaration start)

/-! ### Statements -/

/-- A statement after its label. -/
def labeledRule (self : Rules source) (c : Cursor source) : Option (Cursor source) := do
  let (start, c) := c.mark
  let c ← c.expectIdentifier
  let c ← c.expect ":"
  let c ← self .statement c
  some (c.close .labeled start)

/-- An expression that stands as a statement. -/
def expressionStatementRule (self : Rules source) (c : Cursor source) :
    Option (Cursor source) := do
  let (start, c) := c.mark
  let c ← self (.expression true) c
  let c ← semicolon c
  some (c.close .expressionStatement start)

/-- One statement. -/
def statementRule (self : Rules source) (c : Cursor source) : Option (Cursor source) :=
  if c.word.isEmpty then
    if c.sees "\x7b" then self .block c
    else if c.sees ";" then
      let (start, c) := c.mark
      some (c.shiftNext.close .emptyStatement start)
    else expressionStatementRule self c
  else if seesDeclaration c then declarationRule self c
  else if seesNamedFunction c then functionRule self c
  else if seesNamedClass c then classRule self c
  else if c.seesWord "if" then ifRule self c
  else if c.seesWord "for" then forRule self c
  else if c.seesWord "while" then whileRule self c
  else if c.seesWord "do" then doRule self c
  else if c.seesWord "with" then withRule self c
  else if c.seesWord "switch" then switchRule self c
  else if c.seesWord "try" then tryRule self c
  else if c.seesWord "return" then returnRule self c
  else if c.seesWord "throw" then throwRule self c
  else if c.seesWord "break" || c.seesWord "continue" || c.seesWord "debugger" then jumpRule c
  -- Before a parenthesis or a dot, `import` is an operand.
  else if c.seesWord "import" && punctuatorAt c.afterWord != ['('] &&
      punctuatorAt c.afterWord != ['.'] then importStatementRule self c
  else if c.seesWord "export" then exportStatementRule self c
  else if c.seesIdentifier && punctuatorAt c.afterWord == [':'] then labeledRule self c
  else expressionStatementRule self c

/-- Statements up to a closing brace, a case label or the end. -/
def statementsRule (self : Rules source) (c : Cursor source) : Option (Cursor source) := do
  if c.atEnd || c.sees "\x7d" || c.seesWord "case" || c.seesWord "default" then some c
  else
    let c ← self .statement c
    self .statements c

end ComponentCompiler.Script
