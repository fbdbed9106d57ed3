import ComponentCompiler.Component.Traversal
import ComponentCompiler.Plugin.Basic

/-!
# Ready-made hooks

Simple changes of a component or of a page are described as data, so that a plugin can be written
down without code of its own. A change of nodes leaves their stored kinds as they are.

## Main definitions

* `ComponentEdit`, `ComponentEdit.apply` — changes of a component
* `CodeEdit`, `CodeEdit.apply` — changes of the text of a page
* `PluginSpec`, `PluginSpec.plugin` — a plugin made of such changes

## Main results

* `replaceAll_of_empty` — an empty text to look for is found around every character
-/

namespace ComponentCompiler

/-- A change of a component. -/
inductive ComponentEdit where
  | renameComponent (name : String)
  | renameNodes (old new : String)
  /-- Puts all nodes into a node of the given name. -/
  | wrap (name : String)
  | setProperty (key value : String)
  | setBinding (key : String) (code : Option String)
  | setState (key : String) (value : Json)
  | setProp (key : String) (type : Option String)
  | setStyle (sheet : Option String)
  | annotate (key : String) (value : Json)
  | dropMount
  /-- Takes the component of a document instead. -/
  | replace (document : Json)
  | give (up : String)

/-- Sets a literal property of a node. -/
def Node.setProperty (key value : String) (node : Node) : Node :=
  { node with properties := node.properties.put key value }

/-- Binds code to a key of a node. -/
def Node.setBinding (key : String) (code : Option String) (node : Node) : Node :=
  { node with bindings := node.bindings.put key { code := code } }

/-- Renames a node. -/
def Node.rename (name : String) (node : Node) : Node :=
  { node with name := name }

/-- Removes the property and the binding with the given key. -/
def Node.delete (key : String) (node : Node) : Node :=
  { node with properties := node.properties.erase key, bindings := node.bindings.erase key }

/-- Adds a child at the end. -/
def Node.append (child : Node) (node : Node) : Node :=
  { node with children := node.children ++ [child] }

/-- Changes a component. -/
def ComponentEdit.apply : ComponentEdit → JsonHook
  | .renameComponent name, c => .ok { c with name := name }
  | .renameNodes old new, c =>
    .ok (c.mapNodes fun node => if node.name = old then node.rename new else node)
  | .wrap name, c => .ok { c with children := [Node.group name c.children] }
  | .setProperty key value, c => .ok (c.mapNodes (Node.setProperty key value))
  | .setBinding key code, c => .ok (c.mapNodes (Node.setBinding key code))
  | .setState key value, c => .ok { c with state := c.state.put key { value := value } }
  | .setProp key type, c => .ok { c with props := c.props.put key type }
  | .setStyle sheet, c => .ok { c with style := sheet }
  | .annotate key value, c => .ok { c with annotations := c.annotations.put key value }
  | .dropMount, c => .ok { c with hooks := { c.hooks with onMount := [] } }
  | .replace document, _ => loadComponent document
  | .give up, _ => .error (.raised up)

/-- Replaces the occurrences of a text that is not empty, from the left, where `skip` characters of
the last occurrence are still to be passed over. -/
def replaceFrom (old new : List Char) (skip : Nat) : List Char → List Char
  | [] => []
  | c :: rest =>
    match skip with
    | skip + 1 => replaceFrom old new skip rest
    | 0 =>
      if old.isPrefixOf (c :: rest) then new ++ replaceFrom old new (old.length - 1) rest
      else c :: replaceFrom old new 0 rest

/-- Replaces all occurrences of a text. The empty text occurs before each character and at the
end. -/
def replaceAll (old new text : List Char) : List Char :=
  if old.isEmpty then new ++ text.flatMap fun c => c :: new
  else replaceFrom old new 0 text

theorem replaceAll_of_empty (new text : List Char) :
    replaceAll [] new text = new ++ text.flatMap fun c => c :: new := by
  simp [replaceAll]

/-- A change of the text of a page. -/
inductive CodeEdit where
  | append (text : String)
  | prepend (text : String)
  | replace (old new : String)
  /-- Puts a comment with the name of the component on top. -/
  | banner
  | give (up : String)

/-- Changes the text of a page. -/
def CodeEdit.apply : CodeEdit → CodeHook
  | .append text, _, code => .ok (code ++ text)
  | .prepend text, _, code => .ok (text ++ code)
  | .replace old new, _, code =>
    .ok (String.ofList (replaceAll old.toList new.toList code.toList))
  | .banner, component, code => .ok ("<!-- " ++ component.name ++ " -->\n" ++ code)
  | .give up, _, _ => .error (.raised up)

/-- A plugin made of ready-made changes. -/
structure PluginSpec where
  name : String
  preJson : Option ComponentEdit := none
  postJson : Option ComponentEdit := none
  preCode : Option CodeEdit := none
  postCode : Option CodeEdit := none

/-- The plugin that makes the changes. -/
def PluginSpec.plugin (spec : PluginSpec) : Plugin where
  name := spec.name
  preJson := spec.preJson.map ComponentEdit.apply
  postJson := spec.postJson.map ComponentEdit.apply
  preCode := spec.preCode.map CodeEdit.apply
  postCode := spec.postCode.map CodeEdit.apply

end ComponentCompiler
