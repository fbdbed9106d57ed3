import ComponentCompiler.Component.Encode
import ComponentCompiler.Proofs.Component.Forest

/-!
# The canonical form of a component

The document of a component leaves out what makes no difference: empty lists of parameters, empty
prop types, and the dependencies of hooks unless they are those of an update hook and not empty.
Neither does it hold the kinds of nodes. The canonical form of a component is the component without
all this and with its kinds up to date. It has the same document, and everything that a compilation
finds out about the component is the same for its canonical form.

## Main definitions

* `Binding.canonical`, `Node.canonicalOwn`, `Hooks.canonical` — the canonical forms of the parts
* `Component.canonical` — the canonical form of a component

## Main results

* `Component.encode_canonical` — the canonical form has the same document
* `analyze_canonical`, `Component.propNames_canonical` — it is analysed alike
* `Component.canonical_refreshed` — stored kinds make no difference
-/

namespace ComponentCompiler

/-- A text that is not empty, if there is one. -/
abbrev nonempty? (text : Option String) : Option String :=
  text.filter (!·.isEmpty)

/-! ### Bindings -/

namespace Binding

/-- A binding whose parameters are not an empty list. -/
def canonical (binding : Binding) : Binding :=
  { binding with arguments := binding.arguments.filter (!·.isEmpty) }

variable (binding : Binding)

@[simp] theorem code_canonical : binding.canonical.code = binding.code := rfl

@[simp] theorem isSpread_canonical : binding.canonical.isSpread = binding.isSpread := rfl

@[simp] theorem activeCode?_canonical : binding.canonical.activeCode? = binding.activeCode? := rfl

@[simp] theorem parameters_canonical : binding.canonical.parameters = binding.parameters := by
  unfold canonical parameters
  rcases binding.arguments with _ | (_ | ⟨name, others⟩) <;> rfl

@[simp] theorem encode_canonical : binding.canonical.encode = binding.encode := by
  obtain ⟨code, mode, arguments, isAsync⟩ := binding
  rcases arguments with _ | (_ | ⟨name, others⟩) <;> rfl

end Binding

/-! ### Nodes -/

theorem encodeNodes_eq_map (nodes : List Node) : encodeNodes nodes = nodes.map Node.encode := by
  induction nodes with
  | nil => simp [encodeNodes]
  | cons node rest ih => simp [encodeNodes, ih]

namespace Node

/-- A node whose own bindings are canonical and whose kind is up to date. -/
def canonicalOwn (node : Node) : Node :=
  refresh { node with bindings := node.bindings.mapValues Binding.canonical }

theorem isOwn_canonicalOwn : IsOwn canonicalOwn := fun _ _ _ => rfl

theorem get?_bindings_canonicalOwn (node : Node) (key : String) :
    node.canonicalOwn.bindings.get? key = (node.bindings.get? key).map Binding.canonical :=
  Dictionary.get?_mapValues node.bindings Binding.canonical key

@[simp] theorem activeCode?_canonicalOwn (node : Node) (key : String) :
    node.canonicalOwn.activeCode? key = node.activeCode? key := by
  rw [activeCode?, get?_bindings_canonicalOwn, Option.bind_map]
  rfl

@[simp] theorem freshKind_canonicalOwn (node : Node) :
    node.canonicalOwn.freshKind = node.freshKind := by
  have code := activeCode?_canonicalOwn node textKey
  unfold activeCode? at code
  rw [freshKind, kindOf, code]
  rfl

/-- The canonical form of a node without its internal annotations. -/
theorem stripOwn_canonicalOwn (node : Node) :
    node.canonicalOwn.stripOwn = node.stripOwn.canonicalOwn := by
  show refresh { node with
      properties := node.properties.filterKeys (!isInternal ·)
      bindings := (node.bindings.mapValues Binding.canonical).filterKeys (!isInternal ·) } = _
  rw [Dictionary.filterKeys_mapValues]
  rfl

/-- The document of a node from those of its children and its alternative. -/
theorem encode_eq (node : Node) :
    node.encode = .object
      ([("@type", .string nodeMark), ("name", .string node.name),
        ("properties", Json.ofTexts node.properties),
        ("bindings", .object (node.bindings.mapValues Binding.encode).toList),
        ("children", .array (node.children.map Node.encode)),
        ("meta", .object
          (encodeAnnotations (node.alternative.map Node.encode) node.annotations))] ++
        encodeScope node.scope) := by
  obtain ⟨name, properties, bindings, children, alternative, annotations, scope, kind⟩ := node
  cases alternative <;> simp [Node.encode, encodeNodes_eq_map]

/-- The canonical form of a tree has the same document. -/
theorem encode_map_canonicalOwn (node : Node) : (node.map canonicalOwn).encode = node.encode := by
  induction node using Node.induct with
  | step node inChildren inAlternative =>
    -- The kind is not written down, so of the node itself only the bindings have to be compared.
    have bindings : (node.canonicalOwn.bindings.mapValues Binding.encode).toList =
        (node.bindings.mapValues Binding.encode).toList := by
      simp [canonicalOwn, refresh]
    have children : (node.children.map (Node.map canonicalOwn)).map Node.encode =
        node.children.map Node.encode := by
      simpa using inChildren
    have alternative : (node.alternative.map (Node.map canonicalOwn)).map Node.encode =
        node.alternative.map Node.encode := by
      rw [Option.map_map]
      exact Option.map_congr inAlternative
    rw [map_of_own isOwn_canonicalOwn, encode_eq, encode_eq node]
    simp only [children_withBelow, alternative_withBelow, children, alternative]
    rw [← bindings]
    rfl

end Node

/-! ### Hooks -/

/-- A hook without its dependencies. -/
def Hook.canonical (hook : Hook) : Hook :=
  { code := hook.code }

/-- An update hook whose dependencies are not empty. -/
def Hook.canonicalUpdate (hook : Hook) : Hook :=
  { hook with dependencies := nonempty? hook.dependencies }

@[simp] theorem Hook.code_canonical (hook : Hook) : hook.canonical.code = hook.code := rfl

@[simp] theorem Hook.code_canonicalUpdate (hook : Hook) :
    hook.canonicalUpdate.code = hook.code := rfl

@[simp] theorem Hook.encode_canonical (hook : Hook) : hook.canonical.encode = hook.encode := rfl

@[simp] theorem Hook.encodeUpdate_canonicalUpdate (hook : Hook) :
    hook.canonicalUpdate.encodeUpdate = hook.encodeUpdate := by
  simp [canonicalUpdate, encodeUpdate, Option.filter_filter]

/-- Hooks with the dependencies that are written down. -/
def Hooks.canonical (hooks : Hooks) : Hooks where
  onInit := hooks.onInit.map Hook.canonical
  onMount := hooks.onMount.map Hook.canonical
  onUpdate := hooks.onUpdate.map fun updates => updates.map Hook.canonicalUpdate

@[simp] theorem Hooks.encode_canonical (hooks : Hooks) : hooks.canonical.encode = hooks.encode := by
  obtain ⟨onInit, onMount, onUpdate⟩ := hooks
  cases onInit <;> cases onUpdate <;> simp [canonical, encode, Function.comp_def]

/-! ### Components -/

namespace Component

/-- A component without what its document leaves out, and with its kinds up to date. -/
def canonical (component : Component) : Component :=
  { component with
    props := component.props.mapValues nonempty?
    hooks := component.hooks.canonical
    children := ComponentCompiler.mapNodes Node.canonicalOwn component.children }

/-- The canonical form of a component has the same document. -/
theorem encode_canonical (component : Component) : component.canonical.encode = component.encode := by
  have nodes : encodeNodes component.canonical.children = encodeNodes component.children := by
    rw [canonical, mapNodes_eq_map, encodeNodes_eq_map, encodeNodes_eq_map, List.map_map]
    exact List.map_congr_left fun node _ => node.encode_map_canonicalOwn
  have props : (component.canonical.props.mapValues encodePropType).toList =
      (component.props.mapValues encodePropType).toList := by
    simp [canonical, encodePropType, Option.filter_filter]
  have hooks : component.canonical.hooks.encode = component.hooks.encode :=
    component.hooks.encode_canonical
  rw [encode, nodes, props, hooks]
  rfl

@[simp] theorem refs_canonical (component : Component) :
    component.canonical.refs = component.refs :=
  congrArg Script.firstOccurrences <| filterMap_walk_mapNodes Node.isOwn_canonicalOwn
    (fun node _ _ => node.activeCode?_canonicalOwn "ref") component.children

@[simp] theorem code_canonical (component : Component) :
    component.canonical.code = component.code := by
  have onInit : component.canonical.hooks.onInit.toList.map Hook.code =
      component.hooks.onInit.toList.map Hook.code := by
    rw [canonical, Hooks.canonical]
    cases component.hooks.onInit <;> rfl
  have onMount : component.canonical.hooks.onMount.map Hook.code =
      component.hooks.onMount.map Hook.code := by
    simp [canonical, Hooks.canonical, Function.comp_def, Hook.canonical]
  have onUpdate : (component.canonical.hooks.onUpdate.getD []).map Hook.code =
      (component.hooks.onUpdate.getD []).map Hook.code := by
    rw [canonical, Hooks.canonical]
    cases component.hooks.onUpdate <;> simp [Function.comp_def, Hook.canonicalUpdate]
  have bindings : component.canonical.bindingCode = component.bindingCode := by
    refine flatMap_walk_mapNodes Node.isOwn_canonicalOwn (fun node _ _ => ?_) component.children
    show ((node.bindings.mapValues Binding.canonical).toList.map Prod.snd).filterMap _ = _
    simp [Dictionary.values, List.filterMap_map, Function.comp_def]
  rw [code, onInit, onMount, onUpdate, bindings]
  rfl

@[simp] theorem propNames_canonical (component : Component) :
    component.canonical.propNames = component.propNames := by
  have props : component.canonical.props.keys = component.props.keys :=
    Dictionary.keys_mapValues component.props nonempty?
  rw [propNames, props, code_canonical, propNames]

/-- Bringing the kinds of a component up to date does not change its canonical form. -/
theorem canonical_refreshed (component : Component) :
    (component.mapNodes Node.refresh).canonical = component.canonical := by
  have nodes : ComponentCompiler.mapNodes Node.canonicalOwn
      (ComponentCompiler.mapNodes Node.refresh component.children) =
      ComponentCompiler.mapNodes Node.canonicalOwn component.children :=
    mapNodes_mapNodes Node.isOwn_refresh Node.isOwn_canonicalOwn component.children
  simp only [canonical, mapNodes, nodes]

end Component

/-- The analysis finds the same in the canonical form of a component. -/
theorem analyze_canonical (component : Component) :
    analyze component.canonical = analyze component := by
  have hits : eventHits component.canonical.children = eventHits component.children :=
    eventHits_mapNodes Node.isOwn_canonicalOwn (fun _ => rfl)
      (fun node => congrArg firstInteractive? (Dictionary.keys_mapValues node.bindings _))
      component.children
  have mounts : component.canonical.hooks.onMount =
      component.hooks.onMount.map Hook.canonical := rfl
  have updates : component.canonical.hooks.onUpdate.isSome = component.hooks.onUpdate.isSome :=
    Option.isSome_map
  simp only [analyze, component.refs_canonical, hits, mounts, updates, List.isEmpty_map,
    List.length_map]

end ComponentCompiler
