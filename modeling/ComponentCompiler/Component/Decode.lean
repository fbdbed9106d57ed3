import ComponentCompiler.Component.Basic
import ComponentCompiler.Json.Display

/-!
# Components from documents

A document is read section by section in a fixed order, and the first section that does not have the
expected shape decides the error. A section that is absent, empty, zero or false counts as absent,
and several sections have shorter forms.

## Main definitions

* `Place` — a place in a document
* `DocumentFault`, `DocumentError` — what is wrong with a document, and where
* `Node.decode` — the node that a document describes
* `Component.decode` — the component that a document describes

## Main results

* `Place.render_key`, `Place.render_index` — how the text of a place grows with each step
-/

namespace ComponentCompiler

/-! ### Places and faults -/

/-- A step from a value to a value inside of it. -/
inductive Step where
  | key (name : String)
  | index (i : Nat)
deriving DecidableEq, Repr

/-- A place in a document: the steps that lead there, the last one first. -/
abbrev Place := List Step

namespace Place

/-- The whole document. -/
def root : Place := []

/-- The member of an object at a place. -/
def key (place : Place) (name : String) : Place :=
  .key name :: place

/-- The item of a list at a place. -/
def index (place : Place) (i : Nat) : Place :=
  .index i :: place

/-- The text of a place: a dollar sign for the document, a dot before each name, and brackets around
each index. -/
def render : Place → String
  | [] => "$"
  | .key name :: outer => render outer ++ "." ++ name
  | .index i :: outer => render outer ++ "[" ++ toString i ++ "]"

@[simp] theorem render_key (place : Place) (name : String) :
    (place.key name).render = place.render ++ "." ++ name := rfl

@[simp] theorem render_index (place : Place) (i : Nat) :
    (place.index i).render = place.render ++ "[" ++ toString i ++ "]" := rfl

end Place

/-- What is wrong with a value of a document. -/
inductive DocumentFault where
  /-- An object was expected and a value of the named type found. -/
  | object (found : String)
  /-- A string was expected and a value of the named type found. -/
  | string (found : String)
  /-- The document is marked as something else than a component. -/
  | componentMark (found : Json)
  /-- The document is marked as something else than a node. -/
  | nodeMark (found : Json)
  | nodeName
  | bindingCode
  | bindingArguments
  | nodeList
  | importList
deriving Repr

/-- The wording of a fault. -/
def DocumentFault.message : DocumentFault → String
  | .object found => "Expected an object, got " ++ found
  | .string found => "Expected a string, got " ++ found
  | .componentMark found => "Expected a component document, got " ++ found.display
  | .nodeMark found => "Expected a node document, got " ++ found.display
  | .nodeName => "Node is missing 'name'"
  | .bindingCode => "Binding code must be a string"
  | .bindingArguments => "Binding arguments must be a list of names"
  | .nodeList => "Expected a list of nodes"
  | .importList => "Expected a list of imports"

/-- Why a document is refused. -/
inductive DocumentError where
  /-- A value does not have the expected shape. -/
  | invalid (fault : DocumentFault) (place : Place)
  /-- A value that is no sequence stands in the place of a list of hooks. -/
  | notASequence (place : Place)
deriving Repr

/-- The result of reading a part of a document. -/
abbrev Decoded (α : Type) := Except DocumentError α

/-- Refuses a value. -/
def refuseValue {α : Type} (fault : DocumentFault) (place : Place) : Decoded α :=
  .error (.invalid fault place)

/-- The members of an object. -/
def expectObject (place : Place) : Json → Decoded (List (String × Json))
  | .object members => .ok members
  | value => refuseValue (.object value.typeName) place

/-- The text of a string. -/
def expectString (place : Place) : Json → Decoded String
  | .string value => .ok value
  | value => refuseValue (.string value.typeName) place

/-- The text of a string that may be absent. -/
def optionalString (place : Place) : Json → Decoded (Option String)
  | .null => .ok none
  | value => (expectString place value).map some

/-- A member that may be left out. -/
def memberOr (default : Json) (key : String) (members : List (String × Json)) : Json :=
  (lookup? key members).getD default

/-- An optional section: what counts as absent is replaced by the empty section. -/
def sectionOr (empty : Json) (key : String) (members : List (String × Json)) : Json :=
  let value := memberOr .null key members
  if value.isFalsy then empty else value

/-- The members of an optional section that is an object. -/
def objectSection (place : Place) (key : String) (members : List (String × Json)) :
    Decoded (List (String × Json)) :=
  expectObject (place.key key) (sectionOr (.object []) key members)

/-- Checks the mark of a document, if it has one. -/
def checkMark (mark : String) (fault : Json → DocumentFault) (place : Place)
    (members : List (String × Json)) : Decoded Unit :=
  match lookup? "@type" members with
  | none | some .null => .ok ()
  | some (.string found) =>
    if found = mark then .ok () else refuseValue (fault (.string found)) (place.key "@type")
  | some found => refuseValue (fault found) (place.key "@type")

/-- The mark of a component document. -/
def componentMark : String := "@builder.io/mitosis/component"

/-- The mark of a node document. -/
def nodeMark : String := "@builder.io/mitosis/node"

/-- The pairs whose value is not absent, with their values as texts. -/
def textEntries (members : List (String × Json)) : Entries String :=
  Dictionary.ofList <| members.filterMap fun (key, value) =>
    if value.isNull then none else some (key, value.asText)

/-! ### Nodes -/

/-- The code of a binding, which may be absent. -/
def decodeBindingCode (place : Place) (members : List (String × Json)) :
    Decoded (Option String) :=
  match memberOr .null "code" members with
  | .null => .ok none
  | .string code => .ok (some code)
  | _ => refuseValue .bindingCode (place.key "code")

/-- The names of a list of strings. -/
def namesOf? : List Json → Option (List String)
  | [] => some []
  | .string name :: rest => (namesOf? rest).map (name :: ·)
  | _ => none

/-- The parameters of a binding, which may be absent. -/
def decodeArguments (place : Place) (members : List (String × Json)) :
    Decoded (Option (List String)) :=
  match memberOr .null "arguments" members with
  | .null => .ok none
  | .array items =>
    match namesOf? items with
    | some names => .ok (some names)
    | none => refuseValue .bindingArguments (place.key "arguments")
  | _ => refuseValue .bindingArguments (place.key "arguments")

/-- The binding that a document describes. -/
def Binding.decode (place : Place) (document : Json) : Decoded Binding := do
  let members ← expectObject place document
  let code ← decodeBindingCode place members
  let arguments ← decodeArguments place members
  let mode ← expectString (place.key "type") (sectionOr (.string "single") "type" members)
  return {
    code := code
    mode := mode
    arguments := arguments
    isAsync := !(memberOr (.bool false) "async" members).isFalsy }

/-- The bindings of a node; absent ones are left out. -/
def decodeBindings (place : Place) : List (String × Json) → Decoded (List (String × Binding))
  | [] => .ok []
  | (key, value) :: rest => do
    if value.isNull then decodeBindings place rest
    else
      let binding ← Binding.decode (place.key key) value
      let bindings ← decodeBindings place rest
      return (key, binding) :: bindings

/-- The annotations of a node. An alternative is kept apart and leaves an absent value. -/
def annotationEntries (members : List (String × Json)) : Entries Json :=
  Dictionary.ofList <| members.map fun (key, value) =>
    if key = alternativeKey then (key, .null) else (key, value)

mutual

/-- The node that a document describes. -/
def Node.decode (place : Place) : Json → Decoded Node
  | .object members => do
    checkMark nodeMark .nodeMark place members
    let name ←
      match lookup? "name" members with
      | some name => pure name
      | none => refuseValue .nodeName place
    let properties ← objectSection place "properties" members
    let bindingMembers ← objectSection place "bindings" members
    let bindings ← decodeBindings (place.key "bindings") bindingMembers
    let annotations ← objectSection place "meta" members
    let alternative ← alternativeIn (place.key "meta") members
    let scope ← objectSection place "scope" members
    -- The name has to be present from the start, and is looked at only now.
    let name ← expectString (place.key "name") name
    let children ← childrenIn (place.key "children") members
    return Node.refresh
      { name := name
        properties := textEntries properties
        bindings := Dictionary.ofList bindings
        children := children
        alternative := alternative
        annotations := annotationEntries annotations
        scope := textEntries scope
        kind := .element }
  | value => refuseValue (.object value.typeName) place

/-- The children among the members of a node or a component. -/
def childrenIn (place : Place) : List (String × Json) → Decoded (List Node)
  | [] => .ok []
  | (key, value) :: rest =>
    if key = "children" then decodeChildren place value else childrenIn place rest

/-- The children that a section describes. -/
def decodeChildren (place : Place) : Json → Decoded (List Node)
  | .array items => decodeNodes place 0 items
  | value => if value.isFalsy then .ok [] else refuseValue .nodeList place

/-- The nodes that the items of a list describe, where `i` items came before. -/
def decodeNodes (place : Place) (i : Nat) : List Json → Decoded (List Node)
  | [] => .ok []
  | item :: rest => do
    let node ← Node.decode (place.index i) item
    let nodes ← decodeNodes place (i + 1) rest
    return node :: nodes

/-- The alternative among the members of a node. -/
def alternativeIn (place : Place) : List (String × Json) → Decoded (Option Node)
  | [] => .ok none
  | (key, value) :: rest =>
    if key = "meta" then decodeAlternative place value else alternativeIn place rest

/-- The alternative that the annotations of a node describe. -/
def decodeAlternative (place : Place) : Json → Decoded (Option Node)
  | .object members => alternativeAmong place members
  | _ => .ok none

/-- The alternative among the annotations of a node. -/
def alternativeAmong (place : Place) : List (String × Json) → Decoded (Option Node)
  | [] => .ok none
  | (key, value) :: rest =>
    if key = alternativeKey then
      match value with
      | .null => .ok none
      | value => do
        let node ← Node.decode (place.key alternativeKey) value
        return some node
    else alternativeAmong place rest

end

/-! ### Components -/

/-- The imports that the items of a list describe, where `i` items came before. -/
def decodeImports (place : Place) (i : Nat) : List Json → Decoded (List ImportSpec)
  | [] => .ok []
  | item :: rest => do
    let members ← expectObject (place.index i) item
    let names ← objectSection (place.index i) "imports" members
    let path ← expectString ((place.index i).key "path") (memberOr .null "path" members)
    let specs ← decodeImports place (i + 1) rest
    return { path := path, names := Dictionary.ofList (names.map fun (k, v) => (k, v.asText)) } :: specs

/-- The imports that a section describes. -/
def decodeImportSection (place : Place) : Json → Decoded (List ImportSpec)
  | .array items => decodeImports place 0 items
  | _ => refuseValue .importList place

/-- The state entry that a value describes: an object with code and a role, or the bare value. -/
def StateEntry.decode (document : Json) : StateEntry :=
  match document with
  | .object members =>
    { value := memberOr .null "code" members
      role := (sectionOr (.string "property") "type" members).asText }
  | value => { value := value }

/-- The props that a list of names declares, where `i` items came before. -/
def decodePropNames (place : Place) (i : Nat) :
    List Json → Decoded (List (String × Option String))
  | [] => .ok []
  | item :: rest => do
    let name ← expectString (place.index i) item
    let props ← decodePropNames place (i + 1) rest
    return (name, none) :: props

/-- The type of a prop: given alone, or as a member of an object. -/
def decodePropType (place : Place) : Json → Decoded (Option String)
  | .object members => optionalString (place.key "type") (memberOr .null "type" members)
  | value => optionalString place value

/-- The props that the members of an object declare. -/
def decodePropMembers (place : Place) :
    List (String × Json) → Decoded (List (String × Option String))
  | [] => .ok []
  | (key, value) :: rest => do
    let type ← decodePropType (place.key key) value
    let props ← decodePropMembers place rest
    return (key, type) :: props

/-- The props that a section declares. -/
def decodeProps (place : Place) : Json → Decoded (List (String × Option String))
  | .array items => decodePropNames place 0 items
  | value => do
    let members ← expectObject place value
    decodePropMembers place members

/-- The hook that a value describes. -/
def Hook.decode (place : Place) (document : Json) : Decoded Hook := do
  let members ← expectObject place document
  let code ← expectString (place.key "code") (memberOr (.string "") "code" members)
  let dependencies ← optionalString (place.key "deps") (memberOr .null "deps" members)
  return { code := code, dependencies := dependencies }

/-- The hooks that the items of a sequence describe, where `i` items came before. -/
def decodeHookItems (place : Place) (i : Nat) : List Json → Decoded (List Hook)
  | [] => .ok []
  | item :: rest => do
    let hook ← Hook.decode (place.index i) item
    let hooks ← decodeHookItems place (i + 1) rest
    return hook :: hooks

/-- The items of a sequence of hooks: a single object stands for a list of one, and a string is the
sequence of its characters. -/
def hookItems (place : Place) : Json → Decoded (List Json)
  | .object members => .ok [.object members]
  | .array items => .ok items
  | .string text => .ok (text.toList.map fun c => .string (String.ofList [c]))
  | _ => .error (.notASequence place)

/-- The hooks that a section describes. -/
def decodeHookList (place : Place) (value : Json) : Decoded (List Hook) := do
  let items ← hookItems place value
  decodeHookItems place 0 items

/-- The mount hooks. An empty object is a hook all the same. -/
def decodeOnMount (place : Place) (value : Json) : Decoded (List Hook) :=
  match value with
  | .object _ => decodeHookList place value
  | value => if value.isFalsy then .ok [] else decodeHookList place value

/-- The update hooks, which are declared unless they are absent. -/
def decodeOnUpdate (place : Place) (value : Json) : Decoded (Option (List Hook)) :=
  match value with
  | .null => .ok none
  | value => (decodeHookList place value).map some

/-- The hook that runs first, if there is one. -/
def decodeOnInit (place : Place) (value : Json) : Decoded (Option Hook) :=
  match value with
  | .null => .ok none
  | value => (Hook.decode place value).map some

/-- The hooks that a section describes. -/
def Hooks.decode (place : Place) (document : Json) : Decoded Hooks := do
  let members ← expectObject place document
  let onInit ← decodeOnInit (place.key "onInit") (memberOr .null "onInit" members)
  let onMount ← decodeOnMount (place.key "onMount") (memberOr .null "onMount" members)
  let onUpdate ← decodeOnUpdate (place.key "onUpdate") (memberOr .null "onUpdate" members)
  return { onInit := onInit, onMount := onMount, onUpdate := onUpdate }

/-- The component that a document describes. -/
def Component.decode (document : Json) : Decoded Component := do
  let place := Place.root
  let members ← expectObject place document
  checkMark componentMark .componentMark place members
  let name ← expectString (place.key "name") (memberOr (.string defaultName) "name" members)
  let imports ← decodeImportSection (place.key "imports") (sectionOr (.array []) "imports" members)
  let state ← objectSection place "state" members
  let props ← decodeProps (place.key "props") (sectionOr (.object []) "props" members)
  let hooks ← Hooks.decode (place.key "hooks") (sectionOr (.object []) "hooks" members)
  let children ← childrenIn (place.key "children") members
  let style ← optionalString (place.key "style") (memberOr .null "style" members)
  let propsType ←
    optionalString (place.key "propsTypeRef") (memberOr .null "propsTypeRef" members)
  let annotations ← objectSection place "meta" members
  return {
    name := name
    imports := imports
    state := Dictionary.ofList (state.map fun (key, value) => (key, StateEntry.decode value))
    props := Dictionary.ofList props
    hooks := hooks
    children := children
    style := style
    propsType := propsType
    annotations := Dictionary.ofList annotations }

end ComponentCompiler
