import ComponentCompiler.Component.Basic
import ComponentCompiler.Script.Reference
import ComponentCompiler.Text.Blank

/-!
# Walking over a component

The nodes of a tree are visited in order: a node, its children, its alternative. Most questions
about a component are questions about this walk and about all the code that the component carries.

## Main definitions

* `walk`, `Node.walk` — the nodes of a tree in order
* `Node.map` — a change of every node of a tree
* `Component.refs` — the names under which elements are held
* `Component.code`, `Component.propNames` — the code of a component, and the props that it has
* `Node.loopNames` — the names of the item and index of a repetition

## Main results

* `mem_walk_self` — a node is part of its own walk
-/

namespace ComponentCompiler

open Script (firstOccurrences propReferences)

mutual

/-- A node, the nodes below its children, and the nodes of its alternative. -/
def Node.walk (node : Node) : List Node :=
  match node with
  | ⟨name, properties, bindings, children, alternative, annotations, scope, kind⟩ =>
    ⟨name, properties, bindings, children, alternative, annotations, scope, kind⟩ ::
      (ComponentCompiler.walk children ++
        match alternative with
        | none => []
        | some other => Node.walk other)

/-- The nodes of a forest in order. -/
def walk : List Node → List Node
  | [] => []
  | node :: rest => Node.walk node ++ walk rest

end

@[simp] theorem walk_nil : walk [] = [] := by
  simp [walk]

@[simp] theorem walk_cons (node : Node) (rest : List Node) :
    walk (node :: rest) = node.walk ++ walk rest := by
  simp [walk]

theorem Node.walk_eq (node : Node) :
    node.walk = node :: (ComponentCompiler.walk node.children ++
      (node.alternative.map Node.walk).getD []) := by
  obtain ⟨name, properties, bindings, children, alternative, annotations, scope, kind⟩ := node
  cases alternative <;> simp [Node.walk]

theorem mem_walk_self (node : Node) : node ∈ node.walk := by
  rw [Node.walk_eq]
  exact List.mem_cons_self

theorem Node.walk_children_subset (node : Node) :
    ComponentCompiler.walk node.children ⊆ node.walk := by
  rw [Node.walk_eq]
  exact List.Subset.trans (List.subset_append_left _ _) (List.subset_cons_self _ _)

theorem Node.walk_alternative_subset {node other : Node} (held : node.alternative = some other) :
    other.walk ⊆ node.walk := by
  rw [Node.walk_eq node, held]
  exact List.Subset.trans (List.subset_append_right _ _) (List.subset_cons_self _ _)

mutual

/-- Changes a node and all nodes below it. The change sees a node whose children and alternative are
changed already. -/
def Node.map (change : Node → Node) (node : Node) : Node :=
  match node with
  | ⟨name, properties, bindings, children, alternative, annotations, scope, kind⟩ =>
    change
      ⟨name, properties, bindings, mapNodes change children,
        match alternative with
        | none => none
        | some other => some (Node.map change other),
        annotations, scope, kind⟩

/-- Changes all nodes of a forest. -/
def mapNodes (change : Node → Node) : List Node → List Node
  | [] => []
  | node :: rest => Node.map change node :: mapNodes change rest

end

theorem Node.map_eq (change : Node → Node) (node : Node) :
    node.map change = change
      { node with
        children := ComponentCompiler.mapNodes change node.children
        alternative := node.alternative.map (Node.map change) } := by
  obtain ⟨name, properties, bindings, children, alternative, annotations, scope, kind⟩ := node
  cases alternative <;> simp [Node.map]

/-- Changes all nodes of a component. -/
def Component.mapNodes (change : Node → Node) (component : Component) : Component :=
  { component with children := ComponentCompiler.mapNodes change component.children }

mutual

/-- Changes the node at the given place of the walk of a node. -/
def Node.mapAt (change : Node → Node) (place : Nat) (node : Node) : Node :=
  match node, place with
  | node, 0 => change node
  | ⟨name, properties, bindings, children, alternative, annotations, scope, kind⟩, place + 1 =>
    let count := (walk children).length
    if place < count then
      ⟨name, properties, bindings, mapNodesAt change place children, alternative, annotations,
        scope, kind⟩
    else
      ⟨name, properties, bindings, children,
        match alternative with
        | none => none
        | some other => some (Node.mapAt change (place - count) other),
        annotations, scope, kind⟩

/-- Changes the node at the given place of the walk of a forest, if the forest reaches that far. -/
def mapNodesAt (change : Node → Node) (place : Nat) : List Node → List Node
  | [] => []
  | node :: rest =>
    if place < (Node.walk node).length then Node.mapAt change place node :: rest
    else node :: mapNodesAt change (place - (Node.walk node).length) rest

end

/-! ### What the walk finds -/

namespace Component

/-- All nodes of a component in order. -/
def nodes (component : Component) : List Node :=
  walk component.children

/-- The names under which elements are held, each once, in the order of the walk. -/
def refs (component : Component) : List String :=
  firstOccurrences (component.nodes.filterMap (·.activeCode? "ref"))

/-- The code of the state entries. -/
def stateCode (component : Component) : List String :=
  component.state.values.filterMap fun entry => entry.value.string?

/-- The code of the bindings. -/
def bindingCode (component : Component) : List String :=
  component.nodes.flatMap fun node => node.bindings.values.filterMap Binding.activeCode?

/-- All code that a component carries. -/
def code (component : Component) : List String :=
  component.stateCode ++ component.hooks.onInit.toList.map Hook.code ++
    component.hooks.onMount.map Hook.code ++
    (component.hooks.onUpdate.getD []).map Hook.code ++ component.bindingCode

/-- The props that a component has: those it declares, and then those its code refers to. -/
def propNames (component : Component) : List String :=
  firstOccurrences (component.props.keys ++
    component.code.flatMap fun code => (propReferences code.toList).map String.ofList)

/-- Whether a component has props. -/
def hasProps (component : Component) : Bool :=
  !component.propNames.isEmpty

end Component

namespace Node

/-- The names that a repetition gives to its item and, if there is one, its index. -/
def loopNames (node : Node) : String × Option String :=
  ((((node.scope.get? "forName").filter (!·.isEmpty)).getD "item"),
    (node.scope.get? "indexName").filter (!·.isEmpty))

/-- Whether a node has a text that is white space only. -/
def isBlankText (node : Node) : Bool :=
  match node.properties.get? textKey with
  | some text => Text.isBlankText text.toList
  | none => false

end Node

/-- The nodes of a forest without those that have a blank text. -/
def visible (nodes : List Node) : List Node :=
  nodes.filter (!·.isBlankText)

/-! ### Internal annotations -/

/-- Whether a key is an internal annotation: it starts with a dollar sign. -/
def isInternal (key : String) : Bool :=
  key.toList.head? == some '$'

/-- A node without its own internal annotations and with its kind brought up to date. -/
def Node.stripOwn (node : Node) : Node :=
  refresh
    { node with
      properties := node.properties.filterKeys (!isInternal ·)
      bindings := node.bindings.filterKeys (!isInternal ·) }

/-- A component without internal annotations. -/
def Component.strip (component : Component) : Component :=
  component.mapNodes Node.stripOwn

end ComponentCompiler
