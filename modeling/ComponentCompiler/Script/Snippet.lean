import ComponentCompiler.Script.Grammar
import ComponentCompiler.Script.Salvage

/-!
# Snippets

A snippet of embedded code is usually an expression, but the body of a method or hook is a row of
statements. It is read as an expression first, between unwritten parentheses, and as statements if
that fails. A text that is neither is faulty, and still has a tree that covers it.

## Main definitions

* `Snippet` — a tree with the way it was read
* `Snippet.ofExpression`, `Snippet.ofCode` — read a text, as an expression only or in either way
* `Snippet.expression?` — the single expression that a text consists of

## Main results

* `Snippet.text_ofExpression`, `Snippet.text_ofCode` — the tree covers exactly the text
* `Snippet.whole_expression?` — the single expression stands in the text
-/

namespace ComponentCompiler.Script

/-- A text with the way it was read. -/
inductive Snippet where
  /-- The text follows the grammar between unwritten parentheses. -/
  | expression (tree : Tree)
  /-- The text follows the grammar as it stands. -/
  | statements (tree : Tree)
  /-- The text follows the grammar in neither way. -/
  | faulty (tree : Tree)

namespace Snippet

/-- The tree that covers the text. -/
def tree : Snippet → Tree
  | .expression tree | .statements tree | .faulty tree => tree

/-- Whether the text does not follow the grammar. -/
def isFaulty : Snippet → Bool
  | .faulty _ => true
  | _ => false

/-- Reads a text between unwritten parentheses only. -/
def ofExpression (code : List Char) : Snippet :=
  match readProgram true code with
  | some tree => .expression tree
  | none => .faulty (salvage code)

/-- Reads a text as an expression, or else as statements. -/
def ofCode (code : List Char) : Snippet :=
  match ofExpression code with
  | .expression tree => .expression tree
  | other =>
    match readProgram false code with
    | some tree => .statements tree
    | none => other

theorem text_ofExpression (code : List Char) : (ofExpression code).tree.text = code := by
  unfold ofExpression
  split
  · next h => exact text_of_readProgram h
  · exact text_salvage code

theorem text_ofCode (code : List Char) : (ofCode code).tree.text = code := by
  have h := text_ofExpression code
  unfold ofCode
  split
  · next he => rw [he] at h; exact h
  · split
    · next hs => exact text_of_readProgram hs
    · exact h

end Snippet

/-! ### The expression in the parentheses -/

/-- A tree of a row, with the text of the row before and after it. -/
structure Focus where
  before : List Char
  tree : Tree
  after : List Char

/-- The only tree of a row that is not trivia. -/
def focus? : List Tree → Option Focus
  | [] => none
  | tree :: rest =>
    if tree.isTrivia then
      (focus? rest).map fun f => { f with before := tree.text ++ f.before }
    else if rest.all Tree.isTrivia then some ⟨[], tree, textOf rest⟩
    else none

/-- The only tree between the first and the last one of a row. -/
def focusBetween? : List Tree → Option Focus
  | [] => none
  | opening :: rest =>
    match rest.getLast? with
    | none => none
    | some closing =>
      (focus? rest.dropLast).map fun f =>
        ⟨opening.text ++ f.before, f.tree, f.after ++ closing.text⟩

/-- Looks into the node at the focus. -/
def Focus.inner? (form : Form) (look : List Tree → Option Focus) (f : Focus) : Option Focus :=
  match f.tree with
  | .node g children =>
    if g = form then
      (look children).map fun i => ⟨f.before ++ i.before, i.tree, i.after ++ f.after⟩
    else none
  | .token _ _ => none

/-- The single expression that the text consists of, if it was read as one; the text around it
holds blanks and comments. -/
def Snippet.expression? : Snippet → Option Focus
  | .expression tree =>
    ((Focus.inner? .program focus? ⟨[], tree, []⟩).bind
      (Focus.inner? .expressionStatement focus?)).bind
      (Focus.inner? .parenthesized focusBetween?)
  | _ => none

/-! ### The text around a focus -/

/-- The text of the row that a focus is in. -/
def Focus.whole (f : Focus) : List Char :=
  f.before ++ f.tree.text ++ f.after

theorem whole_focus? {row : List Tree} {f : Focus} (found : focus? row = some f) :
    f.whole = textOf row := by
  induction row generalizing f with
  | nil => cases found
  | cons tree rest ih =>
    unfold focus? at found
    split at found
    · obtain ⟨inner, innerFound, rfl⟩ := Option.map_eq_some_iff.1 found
      have covered := ih innerFound
      simp only [Focus.whole] at covered ⊢
      simp [← covered]
    · split at found
      · cases found
        simp [Focus.whole]
      · cases found

theorem whole_focusBetween? {row : List Tree} {f : Focus} (found : focusBetween? row = some f) :
    f.whole = textOf row := by
  cases row with
  | nil => cases found
  | cons opening rest =>
    simp only [focusBetween?] at found
    split at found
    · cases found
    · next closing last =>
      obtain ⟨inner, innerFound, rfl⟩ := Option.map_eq_some_iff.1 found
      have covered := whole_focus? innerFound
      obtain ⟨front, rfl⟩ := List.getLast?_eq_some_iff.1 last
      simp only [Focus.whole, List.dropLast_concat] at covered ⊢
      simp [← covered]

theorem Focus.whole_inner? {form : Form} {look : List Tree → Option Focus} {f inner : Focus}
    (covers : ∀ {row : List Tree} {i : Focus}, look row = some i → i.whole = textOf row)
    (found : f.inner? form look = some inner) : inner.whole = f.whole := by
  obtain ⟨before, tree, after⟩ := f
  cases tree with
  | token kind text => cases found
  | node own children =>
    simp only [Focus.inner?] at found
    split at found
    · obtain ⟨i, innerFound, rfl⟩ := Option.map_eq_some_iff.1 found
      have covered := covers innerFound
      simp only [Focus.whole, Tree.text_node] at covered ⊢
      simp [← covered]
    · cases found

/-- The expression that a text consists of, and the text around it, make up the text. -/
theorem Snippet.whole_expression? {snippet : Snippet} {f : Focus}
    (found : snippet.expression? = some f) : f.whole = snippet.tree.text := by
  cases snippet with
  | expression tree =>
    simp only [Snippet.expression?] at found
    obtain ⟨statement, inProgram, found⟩ := Option.bind_eq_some_iff.1 found
    obtain ⟨parentheses, inStatement, inProgram⟩ := Option.bind_eq_some_iff.1 inProgram
    rw [Focus.whole_inner? whole_focusBetween? found, Focus.whole_inner? whole_focus? inProgram,
      Focus.whole_inner? whole_focus? inStatement]
    simp [Focus.whole, Snippet.tree]
  | statements tree => cases found
  | faulty tree => cases found

end ComponentCompiler.Script
