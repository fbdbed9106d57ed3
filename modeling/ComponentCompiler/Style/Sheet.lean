import ComponentCompiler.Component.Basic
import ComponentCompiler.Text.Line

/-!
# Scoped style sheets

The style sheet of a component can be confined to its elements: each selector of a rule at the top
level is followed by an attribute that only these elements carry. Blocks are found by counting
braces, and what stands before a block at the top level is a list of selectors, unless it starts
with an at sign.

## Main definitions

* `Style.scopeSelectors` — the text before a block, with the attribute on each selector
* `Style.scope` — a style sheet with the attribute on each selector of its rules
* `Style.sheetOf` — the style sheet of a component

## Main results

* `Style.scopeFrom_of_no_brace` — a text without braces is kept
-/

namespace ComponentCompiler.Style

/-- The attribute that confines a style sheet. -/
def scopeAttribute (stem : String) : String :=
  "data-astro-" ++ stem

/-- A selector with the attribute behind it. -/
def scopeSelector (mark selector : List Char) : List Char :=
  Text.trim selector ++ '[' :: (mark ++ [']'])

/-- The selectors of a list, with the attribute behind each; blank ones are dropped. -/
def scopedList (mark text : List Char) : List (List Char) :=
  ((Text.splitAt ',' text).filter (!Text.isBlankText ·)).map (scopeSelector mark)

/-- The text before a block at the top level. A list of selectors keeps the white space before it
and gets the attribute on each selector; an at-rule stays as it is. -/
def scopeSelectors (mark text : List Char) : List Char :=
  if (Text.trimStart text).head? == some '@' then text
  else
    text.takeWhile Text.isBlank ++ [',', ' '].intercalate (scopedList mark text) ++ [' ']

/-- The rest of a style sheet with the attribute on its selectors. `depth` is the count of open
braces, negative after stray closing ones, and `pending` holds the characters since the last block
at the top level, or since the brace that opened the current one, the last one first. -/
def scopeFrom (mark : List Char) (depth : Int) (pending : List Char) :
    List Char → List Char
  | [] => pending.reverse
  | '\x7b' :: rest =>
    if depth = 0 then
      -- What is pending is the text before a block at the top level.
      scopeSelectors mark pending.reverse ++ scopeFrom mark 1 ['\x7b'] rest
    else scopeFrom mark (depth + 1) ('\x7b' :: pending) rest
  | '\x7d' :: rest =>
    if depth = 1 then
      ('\x7d' :: pending).reverse ++ scopeFrom mark 0 [] rest
    else scopeFrom mark (depth - 1) ('\x7d' :: pending) rest
  | c :: rest => scopeFrom mark depth (c :: pending) rest

theorem scopeFrom_of_no_brace {mark text : List Char} {depth : Int} {pending : List Char}
    (plain : ∀ c ∈ text, c ≠ '\x7b' ∧ c ≠ '\x7d') :
    scopeFrom mark depth pending text = pending.reverse ++ text := by
  induction text generalizing pending with
  | nil => simp [scopeFrom]
  | cons c rest ih =>
    have here := plain c List.mem_cons_self
    unfold scopeFrom
    split
    · simp_all
    · simp_all
    · simp_all
    · next other same =>
      obtain ⟨rfl, rfl⟩ := List.cons.inj same
      rw [ih fun d member => plain d (List.mem_cons_of_mem _ member)]
      simp

/-- A style sheet with the attribute on each selector of the rules at its top level. -/
def scope (mark sheet : String) : String :=
  String.ofList (scopeFrom mark.toList 0 [] sheet.toList)

/-- Whether a component asks for its style sheet to be confined. -/
def isConfined (component : Component) : Bool :=
  !((component.annotations.get? "scopedStyle").getD .null).isFalsy

/-- The style sheet of a component, without white space around it. It is confined to the component
if the component asks for it and a stem for the attribute is given. -/
def sheetOf (component : Component) (stem : Option String) : String :=
  let sheet := Text.trimmed (component.style.getD "")
  match stem.filter (!·.isEmpty) with
  | some stem =>
    if isConfined component && !sheet.isEmpty then scope (scopeAttribute stem) sheet else sheet
  | none => sheet

end ComponentCompiler.Style
