import ComponentCompiler.Hydration
import ComponentCompiler.Markup.Classes
import ComponentCompiler.Text.Line

/-!
# Markup from nodes

A node is rendered by its stored kind. Texts that are white space only are skipped in a list of
children. An element shows its classes, its properties and its bindings in order, and asks to be
made live if it handles an interactive event or is held by name.

## Main definitions

* `Markup.Settings` — what the markup depends on besides the nodes
* `Markup.attributes` — the attributes for the bindings of an element
* `Markup.render`, `Markup.renderAll`, `Markup.renderChildren` — the markup of a node and of a list
  of nodes

## Main results

* `Markup.renderAll_cons_of_blank` — a blank text is skipped
-/

namespace ComponentCompiler.Markup

/-- What the markup depends on besides the nodes. -/
structure Settings where
  /-- The directive on elements that have to be live. -/
  directive : Option String := some eagerDirective
  /-- The attribute that confines the style sheet. -/
  scopeAttribute : Option String := none

/-- The margin of one level. -/
def margin : String := "  "

/-- The elements without content. -/
def voidTags : List String :=
  ["area", "base", "br", "col", "embed", "hr", "img", "input", "link", "meta", "param", "source",
    "track", "wbr"]

/-- The elements that tell of a change with every key. -/
def typingTags : List String :=
  ["input", "textarea"]

/-- The elements that the style sheet of a component never applies to. -/
def unscopedTags : List String :=
  ["style", "script", "slot", "template"]

/-- A text in the braces that surround embedded code. -/
def braced (text : String) : String :=
  "\x7b" ++ text ++ "\x7d"

/-- The code of a slot. -/
def slotCode (node : Node) (key : String) : Run String :=
  embedCode .markup ((node.bindings.get? key).bind Binding.code)

/-- The handler of an event. -/
def eventAttribute (name key : String) (binding : Binding) (code : String) : String :=
  let event := if key = "onChange" && typingTags.contains name then "onInput" else key
  let async := if binding.isAsync then "async " else ""
  event ++ "=" ++ braced (async ++ "(" ++ ", ".intercalate binding.parameters ++ ") => " ++ code)

/-- Whether a binding is no attribute: classes, the style object and the text are written
elsewhere. -/
def isApart (key : String) : Bool :=
  classKeys.contains key || key == styleKey || key == textKey

/-- The attribute for a binding of an element with the given name. -/
def bindingAttribute (name key : String) (binding : Binding) (code : String) : Run String :=
  if binding.isSpread then do
    let embedded ← embedCode .markup (some code)
    return " " ++ braced ("...(" ++ embedded ++ ")")
  else if key = "ref" then
    return " bind:this=" ++ braced (Naming.camelCase code)
  else do
    let embedded ← embedCode .markup (some code)
    if Naming.isEvent key then return " " ++ eventAttribute name key binding embedded
    else if key = "innerHTML" then return " set:html=" ++ braced embedded
    else return " " ++ key ++ "=" ++ braced embedded

/-- The attributes for bindings; those without code are left out. -/
def attributes (name : String) : List (String × Binding) → Run String
  | [] => pure ""
  | (key, binding) :: rest =>
    if isApart key then attributes name rest
    else
      match binding.activeCode? with
      | none => attributes name rest
      | some code => do
        let text ← bindingAttribute name key binding code
        let others ← attributes name rest
        return text ++ others

/-- Whether a binding makes its element ask to be made live. -/
def activates (key : String) (binding : Binding) : Bool :=
  !isApart key && binding.activeCode?.isSome && !binding.isSpread &&
    (key == "ref" || isInteractive key)

/-- The directive of an element. -/
def directiveText (settings : Settings) (node : Node) : String :=
  match settings.directive with
  | none => ""
  | some directive =>
    if directive.isEmpty || directive == "none" then ""
    else if node.bindings.toList.any fun (key, binding) => activates key binding then
      " " ++ directive
    else ""

/-- The attributes for the literal properties of an element. -/
def propertyText (properties : Entries String) : String :=
  "".intercalate <| properties.toList.map fun (key, value) =>
    if classKeys.contains key || key == textKey then ""
    else " " ++ key ++ "=\"" ++ escapeQuotes value ++ "\""

/-- The attribute that confines the style sheet, for an element with the given name. -/
def scopeText (settings : Settings) (name : String) : String :=
  match settings.scopeAttribute with
  | none => ""
  | some mark => if mark.isEmpty || unscopedTags.contains name then "" else " " ++ mark

/-- The opening of an element, up to the bracket that closes it. -/
def opening (settings : Settings) (node : Node) : Run String := do
  let classes ← classAttribute node
  let classText := if classes.isEmpty then "" else " " ++ classes
  let bound ← attributes node.name node.bindings.toList
  return "<" ++ node.name ++ scopeText settings node.name ++ classText ++
    propertyText node.properties ++ bound ++ directiveText settings node

/-- The text of a node that is stored as a text. -/
def literalText (node : Node) : Run String :=
  match node.properties.get? textKey with
  | some text => pure text
  | none => Run.fail .missingText

/-- The code of a node that is stored as a dynamic text. -/
def dynamicText (node : Node) : Run String :=
  match node.bindings.get? textKey with
  | some binding => do
    let code ← embedCode .markup binding.code
    return braced code
  | none => Run.fail .missingText

/-- The head of a repetition: its items, and the names of the item and the index. -/
def repetitionHead (node : Node) : Run String := do
  let (item, index) := node.loopNames
  let names :=
    match index with
    | none => item
    | some index => item ++ ", " ++ index
  let items ← slotCode node "each"
  return items ++ ".map((" ++ names ++ ") => ("

mutual

/-- The markup of a node. -/
def render (settings : Settings) (node : Node) : Run String :=
  match node with
  | ⟨name, properties, bindings, children, alternative, annotations, scope, kind⟩ =>
    let node := ⟨name, properties, bindings, children, alternative, annotations, scope, kind⟩
    match kind with
    | .text => literalText node
    | .dynamicText => dynamicText node
    | .fragment => do
      let parts ← renderAll settings children
      return "\n".intercalate parts
    | .repetition => do
      let head ← repetitionHead node
      let parts ← renderAll settings children
      return braced (head ++ "\n" ++ Text.indented margin ("\n".intercalate parts) ++ "\n))")
    -- The alternative is rendered last, and also if it turns out to be empty.
    | .choice => do
      let condition ← slotCode node "when"
      let parts ← renderAll settings children
      let other ←
        match alternative with
        | none => pure ""
        | some other => render settings other
      let otherwise := if other.isEmpty then "null" else "(" ++ other ++ ")"
      return braced (condition ++ " ? (\n" ++ Text.indented margin ("\n".intercalate parts) ++
        "\n) : " ++ otherwise)
    | .element => do
      let start ← opening settings node
      if voidTags.contains name then return start ++ " />"
      else
        match node.activeCode? "innerHTML" with
        | some code => do
          let inner ← embedCode .markup (some code)
          return start ++ ">" ++ braced inner ++ "</" ++ name ++ ">"
        | none => do
          let parts ← renderAll settings children
          return start ++ ">" ++ "\n".intercalate parts ++ "</" ++ name ++ ">"

/-- The markup of each node of a list that is not a blank text. -/
def renderAll (settings : Settings) : List Node → Run (List String)
  | [] => pure []
  | node :: rest =>
    if node.isBlankText then renderAll settings rest
    else do
      let text ← render settings node
      let others ← renderAll settings rest
      return text :: others

end

theorem renderAll_cons_of_blank (settings : Settings) {node : Node} (rest : List Node)
    (blank : node.isBlankText = true) :
    renderAll settings (node :: rest) = renderAll settings rest := by
  simp [renderAll, blank]

/-- The markup of a list of nodes, one after the other on new lines. -/
def renderChildren (settings : Settings) (nodes : List Node) : Run String := do
  let parts ← renderAll settings nodes
  return "\n".intercalate parts

end ComponentCompiler.Markup
