import ComponentCompiler.Script.Token
import ComponentCompiler.Script.Tree

/-!
# A cursor that reads a snippet into a tree

A cursor stands between the trees that have been read and the text that is still to be read. It
moves by two steps only: it turns the next characters into a token, or it gathers the latest trees
into a node. Both steps keep the text, and the cursor carries the proof of it: whatever a grammar
does with a cursor, the trees it ends with cover exactly the text it started from.

An expression is read as if it stood between parentheses, so that an object literal at its front is
no block. These two parentheses are not part of the text: their tokens are empty. A cursor that is
`Enclosure.opening` has yet to pass the first of them, and one that is `Enclosure.closing` the
second, which stands at the end of the text.

## Main definitions

* `Cursor` — the trees read so far, the trivia before the next token, the text that is left
* `Cursor.start` — the cursor at the front of a text
* `Cursor.shift`, `Cursor.shiftRaw` — turn characters into a token
* `Cursor.mark`, `Cursor.close` — gather the trees since a mark into a node
* `Cursor.tree` — the tree of all that was read, with `Cursor.text_tree`
-/

namespace ComponentCompiler.Script

/-- The kind and length of the blank or comment at the front, if there is one. -/
def triviaAt (text : List Char) : Option (TokenKind × Nat) :=
  match runLength isBlank text with
  | 0 => (commentLength text).map (TokenKind.comment, ·)
  | n => some (.blank, n)

/-- Splits a text into at most `limit` blanks and comments and the text that follows them. -/
def splitTrivia : (limit : Nat) → List Char → List Tree × List Char
  | 0, text => ([], text)
  | limit + 1, text =>
    match triviaAt text with
    | none => ([], text)
    | some (kind, n) =>
      let tail := splitTrivia limit (text.drop n)
      (.token kind (text.take n) :: tail.1, tail.2)

theorem textOf_splitTrivia (limit : Nat) (text : List Char) :
    textOf (splitTrivia limit text).1 ++ (splitTrivia limit text).2 = text := by
  induction limit generalizing text with
  | zero => simp [splitTrivia]
  | succ limit ih =>
    unfold splitTrivia
    split
    · simp
    · simp [ih]

/-- The text after the blanks and comments at the front. -/
def skipTrivia (text : List Char) : List Char :=
  (splitTrivia text.length text).2

/-- Which of the two unwritten parentheses around an expression are still to come. -/
inductive Enclosure where
  | opening | closing | absent
deriving DecidableEq, Repr

/-- A position in a text, with the trees read before it. -/
structure Cursor (source : List Char) where
  /-- The trees read so far that are not gathered yet, the latest first. -/
  done : List Tree
  /-- The blanks and comments between the last token and the next. -/
  trivia : List Tree
  /-- The text that is still to be read. -/
  rest : List Char
  /-- The unwritten parentheses that are still to come. -/
  enclosure : Enclosure
  /-- Nothing of the text is lost. -/
  whole : textOf (done.reverse ++ trivia) ++ rest = source

namespace Cursor

variable {source : List Char}

/-- Reads on past blanks and comments. -/
def settle (c : Cursor source) : Cursor source :=
  { c with
    trivia := c.trivia ++ (splitTrivia c.rest.length c.rest).1
    rest := (splitTrivia c.rest.length c.rest).2
    whole := Eq.trans (by simp [textOf_splitTrivia]) c.whole }

/-- The cursor at the front of a text, which stands between unwritten parentheses if `enclosed`. -/
def start (enclosed : Bool) (source : List Char) : Cursor source :=
  if enclosed then ⟨[], [], source, .opening, by simp⟩
  else settle ⟨[], [], source, .absent, by simp⟩

/-- Counts the blanks and comments before the next token among the trees read. -/
def flush (c : Cursor source) : Cursor source :=
  { c with
    done := c.trivia.reverse ++ c.done
    trivia := []
    whole := Eq.trans (by simp) c.whole }

/-- Adds an unwritten parenthesis. -/
def pass (kind : TokenKind) (enclosure : Enclosure) (c : Cursor source) : Cursor source :=
  { c with
    done := .token kind [] :: (c.trivia.reverse ++ c.done)
    trivia := []
    enclosure := enclosure
    whole := Eq.trans (by simp) c.whole }

/-- Turns the next `n` characters into a token. What follows the token is left unread, blanks and
comments too: the literal text of templates and markup starts right there. -/
def shiftRaw (kind : TokenKind) (n : Nat) (c : Cursor source) : Cursor source :=
  match c.enclosure, c.rest with
  | .opening, _ => c.pass kind .closing
  | .closing, [] => c.pass kind .absent
  | _, _ =>
    { c with
      done := .token kind (c.rest.take n) :: (c.trivia.reverse ++ c.done)
      trivia := []
      rest := c.rest.drop n
      whole := Eq.trans (by simp) c.whole }

/-- Turns the next `n` characters into a token and reads on to the next token. -/
def shift (kind : TokenKind) (n : Nat) (c : Cursor source) : Cursor source :=
  (c.shiftRaw kind n).settle

/-- The number of trees read before the next token. A node that starts here is closed with it. -/
def mark (c : Cursor source) : Nat × Cursor source :=
  (c.flush.done.length, c.flush)

/-- Gathers the trees read since the mark into a node. -/
def close (form : Form) (mark : Nat) (c : Cursor source) : Cursor source :=
  { c with
    done := .node form (c.done.take (c.done.length - mark)).reverse ::
      c.done.drop (c.done.length - mark)
    whole := Eq.trans (by
      rw [show c.done.reverse = (c.done.drop (c.done.length - mark)).reverse ++
        (c.done.take (c.done.length - mark)).reverse by
          rw [← List.reverse_append, List.take_append_drop]]
      simp) c.whole }

/-- The tree of all that was read. -/
def tree (c : Cursor source) : Tree :=
  .node .program (c.done.reverse ++ c.trivia)

/-- When nothing is left to read, the tree covers exactly the text. -/
theorem text_tree (c : Cursor source) (h : c.rest = []) : c.tree.text = source := by
  have := c.whole
  simpa [tree, h] using this

/-! ### Looking ahead -/

/-- The text of the next token and what follows it; an unwritten parenthesis counts as written. -/
def upcoming (c : Cursor source) : List Char :=
  match c.enclosure, c.rest with
  | .opening, _ => ['(']
  | .closing, [] => [')']
  | _, rest => rest

/-- The operator, bracket or separator that comes next; empty if something else does. -/
def next (c : Cursor source) : List Char :=
  punctuatorAt c.upcoming

/-- Whether the given operator, bracket or separator comes next. -/
def sees (text : String) (c : Cursor source) : Bool :=
  c.next == text.toList

/-- The word that comes next; empty if something else does. -/
def word (c : Cursor source) : List Char :=
  let text := c.upcoming
  text.take (wordLength text)

/-- Whether the given word comes next. -/
def seesWord (text : String) (c : Cursor source) : Bool :=
  c.word == text.toList

/-- Whether a word that may be an identifier comes next. -/
def seesIdentifier (c : Cursor source) : Bool :=
  !c.word.isEmpty && !isReserved c.word

/-- Whether the given character comes next. -/
def seesChar (char : Char) (c : Cursor source) : Bool :=
  c.upcoming.head? == some char

/-- Whether nothing is left to read. -/
def atEnd (c : Cursor source) : Bool :=
  c.upcoming.isEmpty

/-- Whether a line ends between the last token and the next. -/
def afterLineEnd (c : Cursor source) : Bool :=
  c.trivia.any fun tree => tree.text.any isLineEnd

/-- The text that follows the next `n` characters and the trivia after them. -/
def lookahead (n : Nat) (c : Cursor source) : List Char :=
  match c.enclosure, c.rest with
  | .opening, rest => skipTrivia rest
  | _, rest => skipTrivia (rest.drop n)

/-- The text that follows the word that comes next. -/
def afterWord (c : Cursor source) : List Char :=
  c.lookahead c.word.length

/-- Whether a line ends right after the word that comes next. -/
def wordEndsLine (c : Cursor source) : Bool :=
  let after := c.rest.drop c.word.length
  (splitTrivia after.length after).1.any fun tree => tree.text.any isLineEnd

/-- The tree that was read last. -/
def last? (c : Cursor source) : Option Tree :=
  c.done.head?

/-- Whether the tree that was read last is a node of the given form. -/
def lastIs (form : Form) (c : Cursor source) : Bool :=
  (c.last?.map (·.isForm form)).getD false

/-- Whether the tree that was read last is the given name. -/
def lastIsName (name : String) (c : Cursor source) : Bool :=
  match c.last? with
  | some (.token .identifier text) => text == name.toList
  | _ => false

/-! ### Passing single tokens -/

/-- Passes the operator, bracket or separator that comes next. -/
def shiftNext (c : Cursor source) : Cursor source :=
  c.shift .punctuator c.next.length

/-- Passes the word that comes next as a token of the given kind. -/
def shiftWord (kind : TokenKind) (c : Cursor source) : Cursor source :=
  c.shift kind c.word.length

/-- Passes the given operator, bracket or separator. -/
def expect (text : String) (c : Cursor source) : Option (Cursor source) :=
  if c.sees text then some c.shiftNext else none

/-- Passes the given word. -/
def expectWord (text : String) (c : Cursor source) : Option (Cursor source) :=
  if c.seesWord text then some (c.shiftWord .keyword) else none

/-- Passes an identifier. -/
def expectIdentifier (c : Cursor source) : Option (Cursor source) :=
  if c.seesIdentifier then some (c.shiftWord .identifier) else none

/-- Passes a string literal. -/
def expectString (c : Cursor source) : Option (Cursor source) :=
  (stringLength c.upcoming).map fun n => c.shift .string n

/-- Passes a regular expression literal. -/
def expectRegex (c : Cursor source) : Option (Cursor source) :=
  (regexLength c.upcoming).map fun n => c.shift .regex n

/-- Passes a name after the number sign that comes next. -/
def expectPrivateName (c : Cursor source) : Option (Cursor source) :=
  match wordLength (c.upcoming.drop 1) with
  | 0 => none
  | n => some (c.shift .privateName (n + 1))

end Cursor

end ComponentCompiler.Script
