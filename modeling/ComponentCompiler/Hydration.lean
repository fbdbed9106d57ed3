import ComponentCompiler.Component.Traversal

/-!
# Hydration

A component needs to be made alive in the browser if it holds elements by name, has mount or update
hooks, or handles events of the user. The analysis gives the reasons, and the directive that suits
them: a component that only handles events can wait until the browser is idle.

## Main definitions

* `interactiveEvents` — the events that need a live component
* `eventHits` — the nodes that handle them
* `Hydration`, `analyze` — the analysis

## Main results

* `needed_iff_reasons` — a component needs hydration just if there is a reason
-/

namespace ComponentCompiler

/-- The events that need a live component. -/
def interactiveEvents : List String :=
  ["onClick", "onChange", "onInput", "onSubmit", "onFocus", "onBlur", "onMouseOver", "onMouseOut",
    "onKeyDown", "onKeyUp", "onScroll"]

/-- Whether a key names an event that needs a live component. -/
def isInteractive (key : String) : Bool :=
  interactiveEvents.contains key

/-- A node that handles an event. -/
structure EventHit where
  event : String
  node : String
deriving DecidableEq, Repr

/-- The first interactive event of a list of keys. -/
def firstInteractive? (keys : List String) : Option String :=
  keys.find? isInteractive

mutual

/-- The nodes of a tree that handle events. Below a node that does, none is looked for. -/
def Node.eventHits (node : Node) : List EventHit :=
  match node with
  | ⟨name, _, bindings, children, alternative, _, _, _⟩ =>
    match firstInteractive? bindings.keys with
    | some event => [⟨event, name⟩]
    | none =>
      ComponentCompiler.eventHits children ++
        match alternative with
        | none => []
        | some other => Node.eventHits other

/-- The nodes of a forest that handle events. -/
def eventHits : List Node → List EventHit
  | [] => []
  | node :: rest => Node.eventHits node ++ eventHits rest

end

/-- The directive that makes a component live at once. -/
def eagerDirective : String := "client:load"

/-- The directive that waits until the browser is idle. -/
def idleDirective : String := "client:idle"

/-- The findings about a component. -/
structure Hydration where
  reasons : List String
  directive : String
  refCount : Nat
  hits : List EventHit
deriving DecidableEq, Repr

/-- Whether a component has to be made live. -/
def Hydration.needed (hydration : Hydration) : Bool :=
  !hydration.reasons.isEmpty

theorem needed_iff_reasons (hydration : Hydration) :
    hydration.needed = true ↔ hydration.reasons ≠ [] := by
  simp [Hydration.needed]

/-- The reason that an event handler gives. -/
def EventHit.reason (hit : EventHit) : String :=
  "handles " ++ hit.event ++ " on <" ++ hit.node ++ ">"

/-- The analysis of a component. -/
def analyze (component : Component) : Hydration :=
  let refs := component.refs
  let mounts := component.hooks.onMount
  let hits := eventHits component.children
  let refReasons := if refs.isEmpty then [] else ["uses " ++ toString refs.length ++ " ref(s)"]
  let mountReasons :=
    if mounts.isEmpty then [] else ["has " ++ toString mounts.length ++ " onMount hook(s)"]
  let updateReasons := if component.hooks.onUpdate.isSome then ["has onUpdate hooks"] else []
  { reasons := refReasons ++ mountReasons ++ updateReasons ++ hits.map EventHit.reason
    directive :=
      if !hits.isEmpty && refs.isEmpty && mounts.isEmpty then idleDirective else eagerDirective
    refCount := refs.length
    hits := hits }

end ComponentCompiler
