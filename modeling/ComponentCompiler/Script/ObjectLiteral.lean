import ComponentCompiler.Script.Snippet
import ComponentCompiler.Json.Reader
import ComponentCompiler.Json.Writer
import ComponentCompiler.Text.Blank
import ComponentCompiler.Text.Quoted

/-!
# Object literals

Styles and class tables are written as object literals. Two things are done with them: their keys
are renamed, with everything else kept as written, and a literal whose values are all known is read
into pairs of a key and a value.

## Main definitions

* `objectLiteral?` — the object literal that a text consists of
* `Tree.renameKeys`, `renameKeys` — renames the keys of a literal and of the literals nested in it
* `Entry`, `entriesOf` — the entries of a literal
* `literalText?` — the text of a value that is known
* `evaluateLiteral` — the pairs of a literal whose values are all known

## Main results

* `text_renameKeys_of_token` — a token is no literal and keeps its text
-/

namespace ComponentCompiler.Script

/-- The object literal that a text consists of, blanks and comments aside. -/
def objectLiteral? (snippet : Snippet) : Option Focus :=
  snippet.expression?.filter fun focus => focus.tree.isForm .object

/-- Whether a text consists of one object literal. -/
def isObjectLiteral (code : List Char) : Bool :=
  (objectLiteral? (Snippet.ofExpression code)).isSome

/-! ### Renaming keys -/

/-- A key in the quotes of a document. -/
def quotedKey (rename : List Char → List Char) (key : List Char) : List Char :=
  (Json.quoteText (String.ofList (rename key))).toList

mutual

/-- Renames the keys of an object literal, and of the literals that are values of its entries. -/
def Tree.renameKeys (rename : List Char → List Char) : Tree → Tree
  | .node .object entries => .node .object (renameEntries rename entries)
  | tree => tree

/-- Renames the keys of entries. A name that stands for a whole entry becomes the value of the
renamed key. -/
def renameEntries (rename : List Char → List Char) : List Tree → List Tree
  | [] => []
  | .token .shorthand name :: rest =>
    .token .shorthand (quotedKey rename name ++ ':' :: ' ' :: name) :: renameEntries rename rest
  | .node .pair parts :: rest => .node .pair (renamePair rename parts) :: renameEntries rename rest
  | tree :: rest => tree :: renameEntries rename rest

/-- Renames the key of a pair if it is a name, and the keys of its value if that is a literal. -/
def renamePair (rename : List Char → List Char) : List Tree → List Tree
  | [] => []
  | .token .propertyName name :: rest =>
    .token .propertyName (quotedKey rename name) :: renamePair rename rest
  | .node .object entries :: rest =>
    .node .object (renameEntries rename entries) :: renamePair rename rest
  | tree :: rest => tree :: renamePair rename rest

end

theorem text_renameKeys_of_token (rename : List Char → List Char) (kind : TokenKind)
    (text : List Char) : (Tree.renameKeys rename (.token kind text)).text = text := by
  simp [Tree.renameKeys]

/-- What comes of renaming the keys of a text. -/
inductive Renaming where
  /-- The text is no expression. -/
  | unreadable
  /-- The text is an expression of another kind. -/
  | notAnObject
  /-- The text with the new keys. -/
  | renamed (code : List Char)
deriving DecidableEq, Repr

/-- Renames the keys of a text that consists of one object literal. -/
def renameKeys (rename : List Char → List Char) (code : List Char) : Renaming :=
  let snippet := Snippet.ofExpression code
  if snippet.isFaulty then .unreadable
  else
    match objectLiteral? snippet with
    | none => .notAnObject
    | some focus =>
      .renamed (focus.before ++ (focus.tree.renameKeys rename).text ++ focus.after)

/-! ### Reading entries -/

/-- An entry of an object literal. -/
inductive Entry where
  | pair (key value : Tree)
  | shorthand (name : List Char)
  | spread
  | method
deriving Repr

/-- The entry that a tree among the children of a literal is. -/
def Tree.entry? : Tree → Option Entry
  | .node .pair parts =>
    match significant parts with
    | [key, _, value] => some (.pair key value)
    | _ => none
  | .node .spread _ => some .spread
  | .node .method _ => some .method
  | .token .shorthand name => some (.shorthand name)
  | _ => none

/-- The entries of an object literal in order. -/
def entriesOf : Tree → List Entry
  | .node .object children => children.filterMap Tree.entry?
  | _ => []

/-- Replaces each occurrence of an escaped single quote by the quote. -/
def unescapeSingle : List Char → List Char
  | '\\' :: '\'' :: rest => '\'' :: unescapeSingle rest
  | c :: rest => c :: unescapeSingle rest
  | [] => []

/-- Escapes each double quote. -/
def escapeDouble (text : List Char) : List Char :=
  text.flatMap fun c => if c = '"' then ['\\', '"'] else [c]

/-- The body of a string literal as it would be written between double quotes. -/
def doubleQuotedBody (literal : List Char) : List Char :=
  let body := (literal.drop 1).dropLast
  if literal.head? = some '\'' then escapeDouble (unescapeSingle body) else body

/-- The value of a string literal: its body read as a string of a document, or the body as it is
written between double quotes if it is none. -/
def stringValue (literal : List Char) : List Char :=
  let body := doubleQuotedBody literal
  match Json.readAll ('"' :: (body ++ ['"'])) with
  | .ok (.string value) => value.toList
  | _ => body

/-- The words that stand for a value of their own. -/
def literalWords : List (List Char) :=
  ["true".toList, "false".toList, "null".toList]

/-- The text of a value that is known: a string, a number, a number with a sign, a template without
substitutions, or a word for a value. A plus sign is left out. -/
def literalText? : Tree → Option (List Char)
  | .token .string text => some (stringValue text)
  | .token .number text => some text
  | .token .keyword text => if literalWords.contains text then some text else none
  | .node .unary parts =>
    match significant parts with
    | [.token _ ['-'], .token .number text] => some ('-' :: text)
    | [.token _ ['+'], .token .number text] => some text
    | _ => none
  | .node .template parts =>
    if parts.any (Tree.isForm .substitution) then none
    else some ((textOf parts).drop 1).dropLast
  | _ => none

/-- Why a text cannot be read into pairs. -/
inductive LiteralFault where
  | unreadable
  | notAnObject
  | spreadEntry
  | shorthandEntry
  | methodEntry
  | computedKey
  | unknownValue (key : List Char)
deriving DecidableEq, Repr

/-- The wording of a fault. -/
def LiteralFault.message : LiteralFault → String
  | .unreadable => "Could not parse style object"
  | .notAnObject => "Not an object literal"
  | .spreadEntry => "Unsupported spread entry"
  | .shorthandEntry => "Unsupported shorthand entry"
  | .methodEntry => "Unsupported method entry"
  | .computedKey => "Unsupported computed entry"
  | .unknownValue key => "Value of " ++ Text.quote (String.ofList key) ++ " is not a literal"

/-- The name that a key gives an entry, unless it has to be computed. -/
def keyName? : Tree → Option (List Char)
  | .node .computedName _ => none
  | .token .string text => some (stringValue text)
  | key => some key.text

/-- The pair that an entry stands for. -/
def evaluateEntry : Entry → Except LiteralFault (List Char × List Char)
  | .spread => .error .spreadEntry
  | .shorthand _ => .error .shorthandEntry
  | .method => .error .methodEntry
  | .pair key value =>
    match keyName? key with
    | none => .error .computedKey
    | some name =>
      match literalText? value with
      | none => .error (.unknownValue name)
      | some text => .ok (name, text)

/-- The pairs that entries stand for; the first entry without one decides the fault. -/
def evaluateEntries : List Entry → Except LiteralFault (List (List Char × List Char))
  | [] => .ok []
  | entry :: rest => do
    let pair ← evaluateEntry entry
    let pairs ← evaluateEntries rest
    return pair :: pairs

/-- The pairs of a text that consists of one object literal, white space around it aside. -/
def evaluateLiteral (code : List Char) : Except LiteralFault (List (List Char × List Char)) :=
  let snippet := Snippet.ofExpression (Text.trim code)
  if snippet.isFaulty then .error .unreadable
  else
    match objectLiteral? snippet with
    | none => .error .notAnObject
    | some focus => evaluateEntries (entriesOf focus.tree)

end ComponentCompiler.Script
