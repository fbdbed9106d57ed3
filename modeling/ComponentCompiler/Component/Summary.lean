import ComponentCompiler.Component.Basic
import ComponentCompiler.Text.Quoted

/-!
# Summaries of components

A one-line summary tells what a component, a node or a binding is.

## Main definitions

* `Component.summary`, `Node.summary?`, `Binding.summary` — the summaries
-/

namespace ComponentCompiler

/-- The type and code of a binding. -/
def Binding.summary (binding : Binding) : String :=
  let code :=
    match binding.code with
    | none => "None"
    | some code => Text.quote code
  "Binding(type=" ++ binding.mode ++ ", code=" ++ code ++ ")"

/-- The first thirty characters of a text node; of another node its name, kind and sizes. A node
that is stored as a text and has none has no summary. -/
def Node.summary? (node : Node) : Option String :=
  if node.kind = .text then
    (node.properties.get? textKey).map fun text =>
      "Node(text=" ++ Text.quote (String.ofList (text.toList.take 30)) ++ ")"
  else
    some ("Node(name=" ++ node.name ++ ", kind=" ++ node.kind.name ++ ", props=" ++
      toString node.properties.size ++ ", bindings=" ++ toString node.bindings.size ++
      ", children=" ++ toString node.children.length ++ ")")

/-- The name of a component and its sizes. -/
def Component.summary (component : Component) : String :=
  "Component(name=" ++ component.name ++ ", state=" ++ toString component.state.size ++
    ", props=" ++ toString component.props.size ++ ", children=" ++
    toString component.children.length ++ ")"

end ComponentCompiler
