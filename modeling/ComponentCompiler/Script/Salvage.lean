import ComponentCompiler.Script.Cursor

/-!
# Trees of faulty snippets

A snippet that follows no grammar still holds names and member accesses. Its text is cut into
tokens as far as possible, and names joined by dots are gathered into member accesses. Text after
an opening quote, comment mark or slash that is never closed counts as swallowed: a string or
regular expression takes the rest of its line, a comment or template the rest of the text.

An asynchronous method without an object around it is faulty too. Its braces are taken for those of
an object literal, so that the words before an equals sign or colon in them name entries.

## Main definitions

* `looseTokens` — the tokens of any text
* `nameEntries` — finds the words that name entries in an asynchronous method
* `joinMembers` — gathers names joined by dots
* `salvage` — the tree of any text, with `text_salvage`
-/

namespace ComponentCompiler.Script

/-- Where a token of a faulty text stands: in the literal text of a template, or in a substitution
inside of which the given number of braces is open. -/
inductive Nesting where
  | template
  | substitution (openBraces : Nat)
deriving DecidableEq, Repr

/-- What is known before the next token of a faulty text: whether the token before it ends an
operand, so that a slash would divide, and the templates it stands in. -/
structure Surroundings where
  afterOperand : Bool
  nesting : List Nesting
deriving DecidableEq, Repr

/-- The number of characters up to the end of the line. -/
def lineLength (text : List Char) : Nat :=
  runLength (fun c => !isLineEnd c) text

/-- What is known after a punctuator. -/
def Surroundings.afterPunctuator (s : Surroundings) (text : List Char) : Surroundings :=
  let nesting := match text, s.nesting with
    | ['\x7b'], .substitution n :: outer => .substitution (n + 1) :: outer
    | ['\x7d'], .substitution 0 :: outer => outer
    | ['\x7d'], .substitution (n + 1) :: outer => .substitution n :: outer
    | _, nesting => nesting
  let afterOperand :=
    if text == ['+', '+'] || text == ['-', '-'] then s.afterOperand
    else text == [')'] || text == [']'] || text == ['\x7d']
  ⟨afterOperand, nesting⟩

/-- The next token inside the literal text of a template: the text, the closing backtick, or the
opening of a substitution. -/
def looseTemplateToken (s : Surroundings) (outer : List Nesting) (text : List Char) :
    TokenKind × Nat × Surroundings :=
  match templateTextLength 0 text with
  | none => (.templateText, text.length, s)
  | some 0 =>
    if startsWith ['$'] text then (.punctuator, 2, ⟨false, .substitution 0 :: s.nesting⟩)
    else (.punctuator, 1, ⟨true, outer⟩)
  | some n => (.templateText, n, s)

/-- The next token of a faulty text: its kind, its length, and what is known after it. -/
def looseToken (s : Surroundings) (text : List Char) : TokenKind × Nat × Surroundings :=
  match s.nesting with
  | .template :: outer => looseTemplateToken s outer text
  | _ =>
    -- Closed comments are trivia, so a comment mark that is left is never closed.
    match triviaAt text with
    | some (kind, n) => (kind, n, s)
    | none =>
      let operand (kind : TokenKind) (n : Nat) : TokenKind × Nat × Surroundings :=
        (kind, n, { s with afterOperand := true })
      if startsWith ['/', '*'] text then (.comment, text.length, s)
      else if startsWith ['\x60'] text then (.punctuator, 1, ⟨false, .template :: s.nesting⟩)
      else if (text.head?.map isQuote).getD false then
        operand .string ((stringLength text).getD (lineLength text))
      else if startsWith ['/'] text && !s.afterOperand then
        operand .regex ((regexLength text).getD (lineLength text))
      else match wordLength text, numberLength text, (punctuatorAt text).length with
        | n + 1, _, _ =>
          let word := text.take (n + 1)
          if isReserved word then
            (.keyword, n + 1, { s with
              afterOperand :=
                ["this", "super", "null", "true", "false"].any (word == ·.toList) })
          else operand .identifier (n + 1)
        | 0, n + 1, _ => operand .number (n + 1)
        | 0, 0, n + 1 => (.punctuator, n + 1, s.afterPunctuator (text.take (n + 1)))
        | 0, 0, 0 => (.stray, 1, s)

/-- The tokens of any text. The supply of fuel bounds their number. -/
def looseTokens : (fuel : Nat) → Surroundings → List Char → List Tree
  | _, _, [] => []
  | 0, _, text => [.token .stray text]
  | fuel + 1, s, text =>
    match looseToken s text with
    | (kind, n, s') => .token kind (text.take n) :: looseTokens fuel s' (text.drop n)

theorem textOf_looseTokens (fuel : Nat) (s : Surroundings) (text : List Char) :
    textOf (looseTokens fuel s text) = text := by
  induction fuel generalizing s text with
  | zero => cases text <;> simp [looseTokens]
  | succ fuel ih =>
    cases text with
    | nil => simp [looseTokens]
    | cons c rest => simp [looseTokens, ih]

/-! ### Asynchronous methods -/

/-- How much of an asynchronous method has been passed. -/
inductive MethodPart where
  /-- Nothing yet. -/
  | front
  /-- The word `async`. -/
  | modifier
  /-- The name of the method. -/
  | name
  /-- Its parameters, inside of which the given number of parentheses is open. -/
  | parameters (openParentheses : Nat)
  /-- The parameters with their closing parenthesis. -/
  | signature
  /-- The words of an entry, up to an equals sign or colon. -/
  | key
  /-- The value of an entry, inside of which the given number of brackets is open. -/
  | value (openBrackets : Nat)
  /-- The whole method, or a text that is no method. -/
  | over
deriving DecidableEq, Repr

/-- Whether a tree is one of the given punctuators. -/
def Tree.isOneOf (texts : List String) (tree : Tree) : Bool :=
  texts.any (tree.isPunctuator ·)

/-- The part of a method after a token that is no trivia. -/
def MethodPart.after (part : MethodPart) (tree : Tree) : MethodPart :=
  match part with
  | .front =>
    if tree.isToken .identifier && tree.text == "async".toList then .modifier else .over
  | .modifier => if tree.isToken .identifier then .name else .over
  | .name => if tree.isPunctuator "(" then .parameters 0 else .over
  | .parameters n =>
    if tree.isPunctuator "(" then .parameters (n + 1)
    else if tree.isPunctuator ")" then
      match n with
      | 0 => .signature
      | m + 1 => .parameters m
    else .parameters n
  | .signature => if tree.isPunctuator "\x7b" then .key else .over
  | .key =>
    if tree.isOneOf ["=", ":"] then .value 0
    else if tree.isPunctuator "\x7d" then .over
    else .key
  | .value n =>
    if tree.isOneOf ["(", "[", "\x7b"] then .value (n + 1)
    else if tree.isOneOf [")", "]", "\x7d"] then
      match n with
      | 0 => .over
      | m + 1 => .value m
    else if n == 0 && tree.isPunctuator "," then .key
    else .value n
  | .over => .over

/-- Marks the words that name entries in an asynchronous method. -/
def nameEntries : MethodPart → List Tree → List Tree
  | _, [] => []
  | part, tree :: rest =>
    if tree.isTrivia then tree :: nameEntries part rest
    else
      (match part, tree with
        | .key, .token .identifier text => .token .shorthand text
        | _, tree => tree) :: nameEntries (part.after tree) rest

theorem textOf_nameEntries (part : MethodPart) (row : List Tree) :
    textOf (nameEntries part row) = textOf row := by
  induction row generalizing part with
  | nil => simp [nameEntries]
  | cons tree rest ih =>
    unfold nameEntries
    split
    · simp [ih]
    · split <;> simp [ih]

/-! ### Member accesses -/

/-- What stands before the next token while names are joined: nothing of interest, a dot, or a name
or member access that further names may continue. -/
inductive Pending where
  | nothing
  | dot
  | chain (head : Tree)

/-- The tree that is held back. -/
def Pending.trees : Pending → List Tree
  | .chain head => [head]
  | _ => []

/-- What stands before the next token after a tree that is no name. Trivia do not separate a name
from the dot before it. -/
def Pending.after (pending : Pending) (tree : Tree) : Pending :=
  if tree.isPunctuator "." || tree.isPunctuator "?." then .dot
  else match pending, tree.isTrivia with
    | .dot, true => .dot
    | _, _ => .nothing

@[simp] theorem Pending.trees_after (pending : Pending) (tree : Tree) :
    (pending.after tree).trees = [] := by
  unfold Pending.after
  split
  · rfl
  · split <;> rfl

/-- Gathers names joined by plain dots into member accesses. A name after any other dot belongs to
what stands before the dot, and starts no chain. -/
def joinMembers : Pending → List Tree → List Tree
  | pending, [] => pending.trees
  | .chain head, .token .punctuator ['.'] :: .token .identifier name :: rest =>
    joinMembers (.chain (.node .member
      [head, .token .punctuator ['.'], .token .propertyName name])) rest
  | .dot, .token .identifier name :: rest =>
    .token .propertyName name :: joinMembers .nothing rest
  | pending, tree :: rest =>
    pending.trees ++
      if tree.isToken .identifier then joinMembers (.chain tree) rest
      else tree :: joinMembers (pending.after tree) rest

theorem textOf_joinMembers (pending : Pending) (row : List Tree) :
    textOf (joinMembers pending row) = textOf pending.trees ++ textOf row := by
  fun_induction joinMembers pending row with
  | case1 pending => simp
  | case2 head name rest ih => simp [ih, Pending.trees]
  | case3 name rest ih => simp [ih, Pending.trees]
  | case4 pending tree rest _ _ ihName ihOther =>
    split
    · simp [ihName, Pending.trees]
    · simp [ihOther]

/-- The tree of any text. -/
def salvage (text : List Char) : Tree :=
  .node .program (joinMembers .nothing
    (nameEntries .front (looseTokens text.length ⟨false, []⟩ text)))

@[simp] theorem text_salvage (text : List Char) : (salvage text).text = text := by
  simp [salvage, textOf_joinMembers, textOf_nameEntries, textOf_looseTokens, Pending.trees]

end ComponentCompiler.Script
