import ComponentCompiler.Hydration
import Mathlib.Data.List.Basic

/-!
# Trees of nodes

A node holds its children and perhaps an alternative. A property of all trees is proved once for a
node whose children and alternative have it. Most changes of a tree are made node by node, each
node being changed in its own data only; such changes follow one another as their changes of a
single node do, and what can be read off the nodes of the changed tree can be read off the nodes of
the tree.

## Main definitions

* `Node.IsOwn` — a change of a node that concerns neither its children nor its alternative
* `Node.IsSettled` — the stored kind of a node is the one that it should have

## Main results

* `Node.induct` — induction over a tree
* `Node.map_map` — two changes of a tree are one
* `map_walk_mapNodes` — what is read off a changed tree
* `settled_strip` — without internal annotations all kinds are up to date
-/

namespace ComponentCompiler

mutual

/-- What holds of a node if it holds of its children and its alternative holds of every node. -/
theorem Node.induct {motive : Node → Prop}
    (step : ∀ node, (∀ child ∈ node.children, motive child) →
      (∀ other, node.alternative = some other → motive other) → motive node) :
    (node : Node) → motive node
  | ⟨name, properties, bindings, children, alternative, annotations, scope, kind⟩ => by
    refine step _ (forest_induct step children) ?_
    intro other held
    -- The alternative has to be matched as a part of the node for the recursion to be accepted.
    match alternative, held with
    | some inner, held => exact Option.some.inj held ▸ Node.induct step inner

theorem forest_induct {motive : Node → Prop}
    (step : ∀ node, (∀ child ∈ node.children, motive child) →
      (∀ other, node.alternative = some other → motive other) → motive node) :
    (nodes : List Node) → ∀ child ∈ nodes, motive child
  | [], _, member => by cases member
  | node :: rest, child, member => by
    rcases List.mem_cons.1 member with same | later
    · exact same ▸ Node.induct step node
    · exact forest_induct step rest child later

end

/-! ### Forests as lists -/

theorem walk_eq_flatMap (nodes : List Node) : walk nodes = nodes.flatMap Node.walk := by
  induction nodes with
  | nil => simp
  | cons node rest ih => simp [ih]

theorem mapNodes_eq_map (change : Node → Node) (nodes : List Node) :
    mapNodes change nodes = nodes.map (Node.map change) := by
  induction nodes with
  | nil => simp [mapNodes]
  | cons node rest ih => simp [mapNodes, ih]

theorem Node.eventHits_eq (node : Node) :
    node.eventHits =
      match firstInteractive? node.bindings.keys with
      | some event => [⟨event, node.name⟩]
      | none =>
        ComponentCompiler.eventHits node.children ++
          (node.alternative.map Node.eventHits).getD [] := by
  obtain ⟨name, properties, bindings, children, alternative, annotations, scope, kind⟩ := node
  cases alternative <;> rw [Node.eventHits] <;> rfl

theorem eventHits_eq_flatMap (nodes : List Node) : eventHits nodes = nodes.flatMap Node.eventHits := by
  induction nodes with
  | nil => simp [eventHits]
  | cons node rest ih => simp [eventHits, ih]

theorem Node.walk_subset_of_mem {node : Node} {nodes : List Node} (member : node ∈ nodes) :
    node.walk ⊆ ComponentCompiler.walk nodes := by
  rw [walk_eq_flatMap]
  exact fun inner inside => List.mem_flatMap.2 ⟨node, member, inside⟩

theorem Node.walk_subset_of_child {node child : Node} (member : child ∈ node.children) :
    child.walk ⊆ node.walk :=
  List.Subset.trans (walk_subset_of_mem member) node.walk_children_subset

/-! ### Changes of single nodes -/

namespace Node

/-- A node with other children and another alternative. -/
def withBelow (node : Node) (children : List Node) (alternative : Option Node) : Node :=
  { node with children := children, alternative := alternative }

variable {node : Node} {children : List Node} {alternative : Option Node}

@[simp] theorem children_withBelow : (node.withBelow children alternative).children = children := rfl

@[simp] theorem alternative_withBelow :
    (node.withBelow children alternative).alternative = alternative := rfl

@[simp] theorem withBelow_withBelow (others : List Node) (other : Option Node) :
    (node.withBelow children alternative).withBelow others other = node.withBelow others other := rfl

@[simp] theorem withBelow_self (node : Node) :
    node.withBelow node.children node.alternative = node := by
  cases node
  rfl

/-- A change of a node that neither looks at its children and its alternative nor touches them. -/
def IsOwn (change : Node → Node) : Prop :=
  ∀ node children alternative,
    change (node.withBelow children alternative) = (change node).withBelow children alternative

variable {change first second : Node → Node}

theorem IsOwn.comp (ownSecond : IsOwn second) (ownFirst : IsOwn first) :
    IsOwn (second ∘ first) := fun node children alternative => by
  simp only [Function.comp_apply, ownFirst node, ownSecond (first node)]

theorem isOwn_refresh : IsOwn refresh := fun _ _ _ => rfl

theorem isOwn_stripOwn : IsOwn stripOwn := fun _ _ _ => rfl

/-- A change of all nodes of a tree, where each is changed in its own data only. -/
theorem map_of_own (own : IsOwn change) (node : Node) :
    node.map change = (change node).withBelow (node.children.map (Node.map change))
      (node.alternative.map (Node.map change)) := by
  rw [map_eq, mapNodes_eq_map, ← own]
  rfl

/-- Two changes of a tree, one after the other, are one change. -/
theorem map_map (ownFirst : IsOwn first) (ownSecond : IsOwn second) (node : Node) :
    (node.map first).map second = node.map (second ∘ first) := by
  have ownBoth : IsOwn (second ∘ first) := ownSecond.comp ownFirst
  induction node using Node.induct with
  | step node inChildren inAlternative =>
    have children : (node.children.map (Node.map first)).map (Node.map second) =
        node.children.map (Node.map (second ∘ first)) := by
      simpa using inChildren
    have alternative : (node.alternative.map (Node.map first)).map (Node.map second) =
        node.alternative.map (Node.map (second ∘ first)) := by
      rw [Option.map_map]
      exact Option.map_congr inAlternative
    simp only [map_of_own ownSecond, map_of_own ownFirst, map_of_own ownBoth, ownSecond _ _ _,
      children_withBelow, alternative_withBelow, withBelow_withBelow, children, alternative,
      Function.comp_apply]

end Node

theorem mapNodes_mapNodes {first second : Node → Node} (ownFirst : Node.IsOwn first)
    (ownSecond : Node.IsOwn second) (nodes : List Node) :
    mapNodes second (mapNodes first nodes) = mapNodes (second ∘ first) nodes := by
  simp [mapNodes_eq_map, Node.map_map ownFirst ownSecond]

/-- What is read off the nodes of a changed tree, if it is read off their own data. -/
theorem Node.map_walk_map {β : Type} {change : Node → Node} (own : IsOwn change)
    {after before : Node → β}
    (same : ∀ node children alternative,
      after ((change node).withBelow children alternative) = before node)
    (node : Node) : (node.map change).walk.map after = node.walk.map before := by
  induction node using Node.induct with
  | step node inChildren inAlternative =>
    have children : (node.children.map (Node.map change)).flatMap (fun child => child.walk.map after) =
        node.children.flatMap fun child => child.walk.map before := by
      rw [List.flatMap_map]
      exact List.flatMap_congr inChildren
    have alternative : (((node.alternative.map (Node.map change)).map Node.walk).getD []).map after =
        ((node.alternative.map Node.walk).getD []).map before := by
      cases held : node.alternative with
      | none => rfl
      | some other => exact inAlternative other held
    rw [map_of_own own, walk_eq, walk_eq node]
    simp only [List.map_cons, List.map_append, same, walk_eq_flatMap, List.map_flatMap,
      children_withBelow, alternative_withBelow, children, alternative]

theorem map_walk_mapNodes {β : Type} {change : Node → Node} (own : Node.IsOwn change)
    {after before : Node → β}
    (same : ∀ node children alternative,
      after ((change node).withBelow children alternative) = before node)
    (nodes : List Node) : (walk (mapNodes change nodes)).map after = (walk nodes).map before := by
  rw [mapNodes_eq_map, walk_eq_flatMap, walk_eq_flatMap, List.map_flatMap, List.map_flatMap,
    List.flatMap_map]
  exact List.flatMap_congr fun node _ => Node.map_walk_map own same node

theorem filterMap_walk_mapNodes {β : Type} {change : Node → Node} (own : Node.IsOwn change)
    {after before : Node → Option β}
    (same : ∀ node children alternative,
      after ((change node).withBelow children alternative) = before node)
    (nodes : List Node) :
    (walk (mapNodes change nodes)).filterMap after = (walk nodes).filterMap before := by
  have read := congrArg (List.filterMap id) (map_walk_mapNodes own same nodes)
  simpa only [List.filterMap_map, Function.id_comp] using read

theorem flatMap_walk_mapNodes {β : Type} {change : Node → Node} (own : Node.IsOwn change)
    {after before : Node → List β}
    (same : ∀ node children alternative,
      after ((change node).withBelow children alternative) = before node)
    (nodes : List Node) :
    (walk (mapNodes change nodes)).flatMap after = (walk nodes).flatMap before := by
  rw [List.flatMap_def, List.flatMap_def, map_walk_mapNodes own same]

/-- A change that keeps the names of nodes and their first interactive events keeps the hits. -/
theorem Node.eventHits_map {change : Node → Node} (own : IsOwn change)
    (sameName : ∀ node, (change node).name = node.name)
    (sameEvent : ∀ node, firstInteractive? (change node).bindings.keys =
      firstInteractive? node.bindings.keys)
    (node : Node) : (node.map change).eventHits = node.eventHits := by
  induction node using Node.induct with
  | step node inChildren inAlternative =>
    have children : (node.children.map (Node.map change)).flatMap Node.eventHits =
        node.children.flatMap Node.eventHits := by
      rw [List.flatMap_map]
      exact List.flatMap_congr inChildren
    have alternative : (node.alternative.map (Node.map change)).map Node.eventHits =
        node.alternative.map Node.eventHits := by
      rw [Option.map_map]
      exact Option.map_congr inAlternative
    rw [map_of_own own, eventHits_eq, eventHits_eq node, ← sameName node, ← sameEvent node]
    simp only [eventHits_eq_flatMap, children_withBelow, alternative_withBelow, children, alternative]
    rfl

theorem eventHits_mapNodes {change : Node → Node} (own : Node.IsOwn change)
    (sameName : ∀ node, (change node).name = node.name)
    (sameEvent : ∀ node, firstInteractive? (change node).bindings.keys =
      firstInteractive? node.bindings.keys)
    (nodes : List Node) : eventHits (mapNodes change nodes) = eventHits nodes := by
  rw [mapNodes_eq_map, eventHits_eq_flatMap, eventHits_eq_flatMap, List.flatMap_map]
  exact List.flatMap_congr fun node _ => Node.eventHits_map own sameName sameEvent node

/-- The nodes of a changed forest are the changed nodes of the forest, with other nodes below them. -/
theorem exists_of_mem_walk_mapNodes {change : Node → Node} (own : Node.IsOwn change)
    {nodes : List Node} {inner : Node} (member : inner ∈ walk (mapNodes change nodes)) :
    ∃ node ∈ walk nodes, ∃ children alternative,
      inner = (change node).withBelow children alternative := by
  -- The nodes of the two walks correspond in order if nothing is left below them.
  have same : (walk (mapNodes change nodes)).map (·.withBelow [] none) =
      (walk nodes).map fun node => (change node).withBelow [] none :=
    map_walk_mapNodes own (fun _ _ _ => rfl) nodes
  have bare : inner.withBelow [] none ∈ (walk nodes).map fun node =>
      (change node).withBelow [] none := same ▸ List.mem_map.2 ⟨inner, member, rfl⟩
  obtain ⟨node, inside, equal⟩ := List.mem_map.1 bare
  refine ⟨node, inside, inner.children, inner.alternative, ?_⟩
  have replaced := congrArg (·.withBelow inner.children inner.alternative) equal
  simpa using replaced.symm

/-! ### Kinds that are up to date -/

/-- The stored kind of a node is the one that it should have. -/
def Node.IsSettled (node : Node) : Prop :=
  node.kind = node.freshKind

instance : DecidablePred Node.IsSettled := fun node =>
  inferInstanceAs (Decidable (node.kind = node.freshKind))

/-- All kinds of a forest are up to date after a change that leaves each node with the kind that it
should have. -/
theorem settled_mapNodes {change : Node → Node} (own : Node.IsOwn change)
    (settles : ∀ node, (change node).IsSettled) (nodes : List Node) :
    ∀ node ∈ walk (mapNodes change nodes), node.IsSettled := by
  intro inner member
  obtain ⟨node, -, children, alternative, rfl⟩ := exists_of_mem_walk_mapNodes own member
  exact settles node

/-- Without internal annotations all kinds of a component are up to date. -/
theorem settled_strip (component : Component) :
    ∀ node ∈ component.strip.nodes, node.IsSettled :=
  settled_mapNodes Node.isOwn_stripOwn (fun _ => rfl) component.children

end ComponentCompiler
