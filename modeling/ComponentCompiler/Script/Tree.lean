/-!
# Concrete trees of JavaScript snippets

A snippet is read into a tree whose leaves are its tokens, blanks and comments included. The tree
is concrete: joining the texts of its leaves gives back the text that was read, so a change of the
snippet can be described as a change of some subtrees, and everything else stays as written.

## Main definitions

* `TokenKind`, `Form` — what a leaf and what an inner node stand for
* `Tree` — concrete trees
* `Tree.text`, `textOf` — the text that a tree, or a row of trees, covers
* `Tree.isTrivia`, `significant` — the trees that are not blanks or comments
-/

namespace ComponentCompiler.Script

/-- What a leaf of a tree stands for. -/
inductive TokenKind where
  /-- White space between tokens. -/
  | blank
  /-- A line comment or a block comment. -/
  | comment
  /-- A name in operand position, in a pattern, or of a label. -/
  | identifier
  /-- The name that a function or class is given where it is written. -/
  | declaredName
  /-- A name after a dot, or the key of an object entry. -/
  | propertyName
  /-- A name that starts with `#`. -/
  | privateName
  /-- A name that stands for a whole object entry. -/
  | shorthand
  /-- A reserved word, or a word with a special meaning where it stands. -/
  | keyword
  /-- A numeric literal. -/
  | number
  /-- A string literal with its quotes. -/
  | string
  /-- The literal text of a template. -/
  | templateText
  /-- A regular expression literal with its flags. -/
  | regex
  /-- An operator, bracket or separator. -/
  | punctuator
  /-- The literal text between two tags. -/
  | markupText
  /-- Characters that no token can start with. -/
  | stray
deriving DecidableEq, Repr, Inhabited

/-- What an inner node of a tree stands for. -/
inductive Form where
  | program | block | expressionStatement | emptyStatement | declaration | declarator
  | ifStatement | forStatement | forEach | whileStatement | doStatement | switchStatement
  | switchCase | tryStatement | catchClause | withStatement | jump | labeled
  | importDeclaration | exportDeclaration
  | function | parameters | arrow | classExpression | classBody | field | staticBlock
  | sequence | assignment | augmentedAssignment | target | conditional | binary | unary | update | await | yield
  | construction | call | arguments | member | subscript | metaProperty
  | parenthesized | array | object | pair | shorthandDefault | spread | method | computedName
  | template | substitution
  | markupElement | markupTag | markupAttribute | markupExpression
deriving DecidableEq, Repr, Inhabited

/-- A concrete tree: a token with its text, or a node with its children in order. -/
inductive Tree where
  | token (kind : TokenKind) (text : List Char)
  | node (form : Form) (children : List Tree)
deriving Repr, Inhabited

mutual

/-- The text that a tree covers. -/
def Tree.text : Tree → List Char
  | .token _ text => text
  | .node _ children => textOf children

/-- The text that a row of trees covers. -/
def textOf : List Tree → List Char
  | [] => []
  | tree :: rest => tree.text ++ textOf rest

end

@[simp] theorem Tree.text_token (kind : TokenKind) (text : List Char) :
    (Tree.token kind text).text = text := by
  simp [Tree.text]

@[simp] theorem Tree.text_node (form : Form) (children : List Tree) :
    (Tree.node form children).text = textOf children := by
  simp [Tree.text]

@[simp] theorem textOf_nil : textOf [] = [] := by
  simp [textOf]

@[simp] theorem textOf_cons (tree : Tree) (rest : List Tree) :
    textOf (tree :: rest) = tree.text ++ textOf rest := by
  simp [textOf]

@[simp] theorem textOf_append (front back : List Tree) :
    textOf (front ++ back) = textOf front ++ textOf back := by
  induction front with
  | nil => simp
  | cons tree rest ih => simp [ih]

namespace Tree

/-- Blanks and comments are trivia: they separate tokens and have no part in the grammar. -/
def isTrivia : Tree → Bool
  | .token .blank _ | .token .comment _ => true
  | _ => false

/-- The form of an inner node. -/
def form? : Tree → Option Form
  | .node form _ => some form
  | .token _ _ => none

/-- Whether a tree is an inner node of the given form. -/
def isForm (form : Form) (tree : Tree) : Bool :=
  tree.form? == some form

/-- Whether a tree is a token of the given kind. -/
def isToken (kind : TokenKind) : Tree → Bool
  | .token k _ => k == kind
  | .node _ _ => false

/-- Whether a tree is the given operator, bracket or separator. -/
def isPunctuator (text : String) : Tree → Bool
  | .token .punctuator t => t == text.toList
  | _ => false

/-- Whether a tree can be assigned to; patterns only if the old value is not read. -/
def isTarget (plain : Bool) : Tree → Bool
  | .token .identifier _ => true
  | .node .member _ | .node .subscript _ | .node .parenthesized _ => true
  | .node .object _ | .node .array _ => plain
  | _ => false

end Tree

/-- The trees of a row that are not trivia. -/
def significant (row : List Tree) : List Tree :=
  row.filter (fun tree => !tree.isTrivia)

end ComponentCompiler.Script
