import ComponentCompiler.Component.Decode
import ComponentCompiler.Json.Writer

/-!
# Documents from components

A component is written back as a document. The document holds what a compilation can depend on:
empty lists of parameters, empty prop types and the dependencies of hooks other than update hooks
are left out.

## Main definitions

* `Node.encode` — the document of a node
* `Component.encode` — the document of a component
* `Component.document` — its text on one line

## Main results

* `encodeNodes_append` — the documents of a forest are those of its nodes
-/

namespace ComponentCompiler

/-- A string that may be absent. -/
def Json.ofOptional : Option String → Json
  | none => .null
  | some text => .string text

/-- An object whose values are strings. -/
def Json.ofTexts (entries : Entries String) : Json :=
  .object (entries.mapValues Json.string).toList

/-- The document of a binding. -/
def Binding.encode (binding : Binding) : Json :=
  let arguments : List (String × Json) :=
    match binding.arguments with
    | none | some [] => []
    | some names => [("arguments", .array (names.map .string))]
  let async : List (String × Json) := if binding.isAsync then [("async", .bool true)] else []
  .object
    ([("code", Json.ofOptional binding.code), ("type", .string binding.mode)] ++ arguments ++ async)

/-- The annotations of a node with the alternative in its place. -/
def encodeAnnotations (alternative : Option Json) (annotations : Entries Json) :
    List (String × Json) :=
  annotations.toList.map fun (key, value) =>
    if key = alternativeKey then (key, alternative.getD value) else (key, value)

/-- The scope of a node, left out if it is empty. -/
def encodeScope (scope : Entries String) : List (String × Json) :=
  if scope.isEmpty then [] else [("scope", Json.ofTexts scope)]

mutual

/-- The document of a node. -/
def Node.encode (node : Node) : Json :=
  match node with
  | ⟨name, properties, bindings, children, alternative, annotations, scope, _⟩ =>
    let alternative :=
      match alternative with
      | none => none
      | some other => some (Node.encode other)
    .object
      ([("@type", .string nodeMark), ("name", .string name), ("properties", Json.ofTexts properties),
          ("bindings", .object (bindings.mapValues Binding.encode).toList),
          ("children", .array (encodeNodes children)),
          ("meta", .object (encodeAnnotations alternative annotations))] ++ encodeScope scope)

/-- The documents of a forest. -/
def encodeNodes : List Node → List Json
  | [] => []
  | node :: rest => Node.encode node :: encodeNodes rest

end

theorem encodeNodes_append (front back : List Node) :
    encodeNodes (front ++ back) = encodeNodes front ++ encodeNodes back := by
  induction front with
  | nil => simp [encodeNodes]
  | cons node rest ih => simp [encodeNodes, ih]

/-- The document of a hook that runs once. -/
def Hook.encode (hook : Hook) : Json :=
  .object [("code", .string hook.code)]

/-- The document of an update hook. -/
def Hook.encodeUpdate (hook : Hook) : Json :=
  let dependencies : List (String × Json) :=
    match hook.dependencies.filter (!·.isEmpty) with
    | none => []
    | some text => [("deps", .string text)]
  .object (("code", .string hook.code) :: dependencies)

/-- The document of the hooks of a component. -/
def Hooks.encode (hooks : Hooks) : Json :=
  let onInit : List (String × Json) :=
    match hooks.onInit with
    | none => []
    | some hook => [("onInit", hook.encode)]
  let onUpdate : List (String × Json) :=
    match hooks.onUpdate with
    | none => []
    | some updates => [("onUpdate", .array (updates.map Hook.encodeUpdate))]
  .object (("onMount", .array (hooks.onMount.map Hook.encode)) :: (onInit ++ onUpdate))

/-- The document of an import. -/
def ImportSpec.encode (spec : ImportSpec) : Json :=
  .object [("path", .string spec.path), ("imports", Json.ofTexts spec.names)]

/-- The document of a state entry. -/
def StateEntry.encode (entry : StateEntry) : Json :=
  .object [("code", entry.value), ("type", .string entry.role)]

/-- The document of a prop with the given type. -/
def encodePropType (type : Option String) : Json :=
  match type.filter (!·.isEmpty) with
  | none => .object []
  | some text => .object [("type", .string text)]

/-- A member that is left out if its value is absent. -/
def optionalMember (key : String) : Option String → List (String × Json)
  | none => []
  | some text => [(key, .string text)]

/-- The document of a component. -/
def Component.encode (component : Component) : Json :=
  .object
    ([("@type", .string componentMark), ("name", .string component.name),
        ("imports", .array (component.imports.map ImportSpec.encode)),
        ("state", .object (component.state.mapValues StateEntry.encode).toList),
        ("props", .object (component.props.mapValues encodePropType).toList),
        ("hooks", component.hooks.encode),
        ("children", .array (encodeNodes component.children)),
        ("meta", .object component.annotations.toList)] ++
      optionalMember "style" component.style ++
      optionalMember "propsTypeRef" component.propsType)

/-- The text of the document of a component, on one line. -/
def Component.document (component : Component) : String :=
  component.encode.compact

end ComponentCompiler
