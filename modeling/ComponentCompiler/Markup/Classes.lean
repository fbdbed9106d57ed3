import ComponentCompiler.Component.Traversal
import ComponentCompiler.Digest.Md5
import ComponentCompiler.Embedding

/-!
# The classes of an element

An element can get classes from literal properties, from bindings, and from a style object, which
gives it a class of its own. A single literal class is written as it is; otherwise the classes are
joined when the page is made, so that empty ones leave no trace.

## Main definitions

* `Markup.scopedClass` — the class for a style object
* `Markup.classAttribute` — the class attribute of an element

## Main results

* `Markup.escapeQuotes_of_no_quote` — a text without quotes is kept in an attribute
-/

namespace ComponentCompiler.Markup

/-- The keys under which classes are given. -/
def classKeys : List String :=
  ["class", "className"]

/-- A character of an attribute: a quote is escaped. -/
def escapeQuote (c : Char) : List Char :=
  if c = '"' then ['&', 'q', 'u', 'o', 't', ';'] else [c]

/-- A text with its quotes escaped for an attribute. -/
def escapeQuotes (text : String) : String :=
  String.ofList (text.toList.flatMap escapeQuote)

theorem escapeQuotes_of_no_quote {text : String} (plain : '"' ∉ text.toList) :
    escapeQuotes text = text := by
  have kept : ∀ characters : List Char, '"' ∉ characters →
      characters.flatMap escapeQuote = characters := by
    intro characters absent
    induction characters with
    | nil => rfl
    | cons c rest ih =>
      simp only [List.mem_cons, not_or] at absent
      simp [escapeQuote, Ne.symm absent.1, ih absent.2]
  simp [escapeQuotes, kept _ plain]

/-- The class that a style object gives an element with the given name. -/
def scopedClass (name code : String) : String :=
  name ++ "-" ++ Digest.shortHash code

/-- A class or an expression for classes. -/
inductive ClassSource where
  | literal (text : String)
  | expression (code : String)
deriving DecidableEq, Repr

/-- A source of classes in a list of the embedded language. -/
def ClassSource.item : ClassSource → String
  | .literal text => Json.quoteText text
  | .expression code => code

/-- The classes of literal properties that are not blank. -/
def literalClasses (node : Node) : List ClassSource :=
  (classKeys.filterMap node.properties.get?).filterMap fun text =>
    if Text.isBlankText text.toList then none else some (.literal text)

/-- The classes of bindings with the given keys. -/
def boundClasses (node : Node) : List String → Run (List ClassSource)
  | [] => pure []
  | key :: rest =>
    match node.activeCode? key with
    | none => boundClasses node rest
    | some code => do
      let embedded ← embedCode .markup (some code)
      let others ← boundClasses node rest
      return .expression embedded :: others

/-- The class of a style object. -/
def styleClass (node : Node) : Run (List ClassSource) :=
  match node.activeCode? styleKey with
  | none => pure []
  | some code => do
    let name := scopedClass node.name code
    Run.emit (.style name code)
    return [.literal name]

/-- The attribute for classes; it is left out if there are none. -/
def joinClasses : List ClassSource → String
  | [] => ""
  | [.literal text] => "class=\"" ++ escapeQuotes text ++ "\""
  | sources =>
    "class=\x7b[" ++ ", ".intercalate (sources.map ClassSource.item) ++
      "].filter(Boolean).join(' ')\x7d"

/-- The class attribute of an element: literal classes, bound classes, and the class of its style
object. -/
def classAttribute (node : Node) : Run String := do
  let bound ← boundClasses node classKeys
  let styled ← styleClass node
  return joinClasses (literalClasses node ++ bound ++ styled)

end ComponentCompiler.Markup
