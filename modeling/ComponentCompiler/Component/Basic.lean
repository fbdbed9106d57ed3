import ComponentCompiler.Json.Basic

/-!
# Components

A component has data (props and state), code that runs at certain moments of its life (hooks), and a
tree of markup nodes. A node carries literal properties and bindings of embedded code; some names
and keys give it a special meaning: it may stand for text, for a group without an element, for a
repetition, or for a choice between its children and an alternative.

What a node is rendered as is its kind. The kind is stored in the node, so an edit that renames a
node or changes its bindings leaves the kind behind until it is refreshed.

## Main definitions

* `Binding`, `Kind`, `Node` — the markup tree
* `Node.freshKind`, `Node.refresh` — the kind that a node should have
* `StateEntry`, `Hook`, `Hooks`, `ImportSpec`, `Component` — the rest of a component

## Main results

* `Node.freshKind_refresh` — refreshing a node once is enough
-/

namespace ComponentCompiler

/-- Embedded code that is attached to an attribute, an event or a slot of a node. -/
structure Binding where
  /-- The code; `none` if there is none, which differs from empty code. -/
  code : Option String := some ""
  /-- How the value is attached: `spread` stands for all attributes of an object. -/
  mode : String := "single"
  /-- The names of the parameters, if the code handles an event. -/
  arguments : Option (List String) := none
  isAsync : Bool := false
deriving DecidableEq, Repr, Inhabited

namespace Binding

/-- A binding of the given code with nothing else said. -/
def ofCode (code : String) : Binding :=
  { code := some code }

/-- The code, if there is any that is not empty. -/
def activeCode? (binding : Binding) : Option String :=
  binding.code.filter (!·.isEmpty)

/-- Whether the binding attaches all attributes of an object. -/
def isSpread (binding : Binding) : Bool :=
  binding.mode == "spread"

/-- The parameters of an event handler: the event alone if none are named. -/
def parameters (binding : Binding) : List String :=
  match binding.arguments with
  | none | some [] => ["event"]
  | some names => names

end Binding

/-- What a node is rendered as. -/
inductive Kind where
  /-- Literal text. -/
  | text
  /-- The value of embedded code. -/
  | dynamicText
  /-- The children without an element around them. -/
  | fragment
  /-- The children once for each item. -/
  | repetition
  /-- The children or the alternative. -/
  | choice
  /-- An element or a component. -/
  | element
deriving DecidableEq, Repr, Inhabited

/-- The word for a kind in summaries. -/
def Kind.name : Kind → String
  | .text => "text"
  | .dynamicText => "dynamic_text"
  | .fragment => "fragment"
  | .repetition => "for"
  | .choice => "show"
  | .element => "element"

/-- The key of the property or binding that holds the text of a text node. -/
def textKey : String := "_text"

/-- The key of the binding that holds a style object. -/
def styleKey : String := "css"

/-- The name of the annotation that holds the alternative of a node. -/
def alternativeKey : String := "else"

/-- A node of the markup tree. -/
structure Node where
  name : String
  /-- Literal attributes, and the text of a text node. -/
  properties : Entries String
  /-- Attributes, events and slots with embedded code. -/
  bindings : Entries Binding
  children : List Node
  /-- What a choice shows in place of its children. -/
  alternative : Option Node
  /-- What tools have noted down. If there is an alternative, an absent value under its name keeps
  its place among the annotations. -/
  annotations : Entries Json
  /-- The names that a repetition gives to its item and index. -/
  scope : Entries String
  /-- What the node was last found to be rendered as. -/
  kind : Kind
deriving Inhabited

namespace Node

/-- The code of the binding with the given key, if it is not empty. -/
def activeCode? (node : Node) (key : String) : Option String :=
  (node.bindings.get? key).bind Binding.activeCode?

/-- What a node with the given name, properties and bindings is rendered as. Text comes before a
special name. -/
def kindOf (name : String) (properties : Entries String) (bindings : Entries Binding) : Kind :=
  if ((properties.get? textKey).filter (!·.isEmpty)).isSome then .text
  else if ((bindings.get? textKey).bind Binding.activeCode?).isSome then .dynamicText
  else if name = "Fragment" then .fragment
  else if name = "For" then .repetition
  else if name = "Show" then .choice
  else .element

/-- What a node should be rendered as. -/
def freshKind (node : Node) : Kind :=
  kindOf node.name node.properties node.bindings

/-- The node with its kind brought up to date. -/
def refresh (node : Node) : Node :=
  { node with kind := node.freshKind }

@[simp] theorem freshKind_refresh (node : Node) : node.refresh.freshKind = node.freshKind := rfl

@[simp] theorem kind_refresh (node : Node) : node.refresh.kind = node.freshKind := rfl

@[simp] theorem refresh_refresh (node : Node) : node.refresh.refresh = node.refresh := rfl

/-- A node with the given name and children and nothing else. -/
def group (name : String) (children : List Node) : Node :=
  refresh
    { name := name
      properties := ∅
      bindings := ∅
      children := children
      alternative := none
      annotations := ∅
      scope := ∅
      kind := .element }

end Node

/-- A value of the component's state: an expression, the source of a method, or plain data. -/
structure StateEntry where
  value : Json
  /-- `method` marks the source of a method. -/
  role : String := "property"
deriving Inhabited

/-- Code that runs at a moment of the component's life. -/
structure Hook where
  code : String
  /-- The values whose change makes an update hook run. -/
  dependencies : Option String := none
deriving DecidableEq, Repr, Inhabited

/-- The hooks of a component. -/
structure Hooks where
  onInit : Option Hook := none
  onMount : List Hook := []
  /-- Update hooks may be declared and yet be none. -/
  onUpdate : Option (List Hook) := none
deriving DecidableEq, Repr, Inhabited

/-- The names that a component takes from another file. -/
structure ImportSpec where
  path : String
  /-- From the local name to the imported name, `default` or `*`. -/
  names : Entries String := ∅
deriving DecidableEq, Repr, Inhabited

/-- A component. -/
structure Component where
  name : String
  imports : List ImportSpec := []
  state : Entries StateEntry := ∅
  /-- From the name of a prop to its type, if one is given. -/
  props : Entries (Option String) := ∅
  hooks : Hooks := {}
  children : List Node := []
  style : Option String := none
  /-- The name of the type of all props. -/
  propsType : Option String := none
  annotations : Entries Json := ∅
deriving Inhabited

/-- The name of a component that has none of its own. -/
def defaultName : String := "MyComponent"

end ComponentCompiler
