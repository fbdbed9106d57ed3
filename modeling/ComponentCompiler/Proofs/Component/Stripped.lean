import ComponentCompiler.Proofs.Component.Forest
import Mathlib.Data.List.Forall2

/-!
# Components without internal annotations

Internal annotations are taken away before a component is rendered, but after it was analysed.
Nothing else is taken from a node at any depth, and only its kind is brought up to date.

This makes no difference to the analysis, which asks for keys that are never internal. It does make a
difference to the props: these are collected from all code, that of internal annotations included. It
makes none as long as internal annotations refer to declared props only.

## Main definitions

* `Node.Bares` — what becomes of a node
* `Node.IsNeutral`, `Component.IsNeutral` — internal annotations refer to known props only

## Main results

* `Node.bares_iff` — there is one such node, and it is the one that is found
* `strip_exact` — what becomes of a component
* `Component.refs_strip`, `analyze_strip` — the analysis does not see internal annotations
* `Component.propNames_strip` — nor does the collection of props see neutral ones
-/

namespace ComponentCompiler

open Script (firstOccurrences propReferences)

/-! ### Single nodes -/

namespace Node

/-- A node keeps the code of its bindings apart from its internal annotations. -/
theorem activeCode?_stripOwn (node : Node) {key : String} (plain : isInternal key = false) :
    node.stripOwn.activeCode? key = node.activeCode? key := by
  have kept : (!isInternal key) = true := by rw [plain]; rfl
  have read : node.stripOwn.bindings.get? key = node.bindings.get? key :=
    Dictionary.get?_filterKeys (!isInternal ·) kept node.bindings
  rw [activeCode?, read, activeCode?]

/-- Interactive events are no internal annotations. -/
theorem firstInteractive?_stripOwn (node : Node) :
    firstInteractive? node.stripOwn.bindings.keys = firstInteractive? node.bindings.keys := by
  have plain : ∀ event ∈ interactiveEvents, (!isInternal event) = true := by decide
  show firstInteractive? (node.bindings.filterKeys (!isInternal ·)).keys = _
  rw [Dictionary.keys_filterKeys, firstInteractive?, List.find?_filter, firstInteractive?]
  congr 1
  funext key
  by_cases interactive : isInteractive key = true
  · simp [interactive, plain key (List.contains_iff_mem.1 interactive)]
  · simp [interactive]

end Node

/-! ### The analysis -/

@[simp] theorem Component.refs_strip (component : Component) :
    component.strip.refs = component.refs :=
  congrArg firstOccurrences <| filterMap_walk_mapNodes Node.isOwn_stripOwn
    (fun node _ _ => node.activeCode?_stripOwn (by decide)) component.children

/-- The analysis finds the same without internal annotations. -/
theorem analyze_strip (component : Component) : analyze component.strip = analyze component := by
  have hits : eventHits component.strip.children = eventHits component.children :=
    eventHits_mapNodes Node.isOwn_stripOwn (fun _ => rfl) Node.firstInteractive?_stripOwn
      component.children
  have hooks : component.strip.hooks = component.hooks := rfl
  simp only [analyze, component.refs_strip, hits, hooks]

/-! ### What is taken away -/

namespace Node

/-- A node keeps its name, its annotations and the names that it gives to items. Of its properties
and bindings those that are not internal stay in their order, and its kind is the one that it should
have then. The same happens below it. -/
inductive Bares : Node → Node → Prop
  | intro {before after : Node}
      (name : after.name = before.name)
      (properties : after.properties.toList =
        before.properties.toList.filter fun pair => !isInternal pair.1)
      (bindings : after.bindings.toList =
        before.bindings.toList.filter fun pair => !isInternal pair.1)
      (annotations : after.annotations = before.annotations)
      (scope : after.scope = before.scope)
      (kind : after.kind = after.freshKind)
      (children : List.Forall₂ Bares before.children after.children)
      (alternative : Option.Rel Bares before.alternative after.alternative) : Bares before after

theorem bares_map_stripOwn (node : Node) : Bares node (node.map stripOwn) := by
  induction node using Node.induct with
  | step node inChildren inAlternative =>
    rw [map_of_own isOwn_stripOwn]
    refine .intro rfl rfl rfl rfl rfl rfl ?children ?alternative
    case children =>
      rw [children_withBelow, List.forall₂_map_right_iff, List.forall₂_same]
      exact inChildren
    case alternative =>
      rw [alternative_withBelow]
      cases held : node.alternative with
      | none => exact .none
      | some other => exact .some (inAlternative other held)

theorem map_eq_of_forall₂ {α β : Type} {Related : α → β → Prop} {change : α → β} {before : List α}
    {after : List β} (related : List.Forall₂ Related before after)
    (each : ∀ x ∈ before, ∀ y, Related x y → change x = y) : before.map change = after := by
  induction related with
  | nil => rfl
  | cons here _ ih =>
    rw [List.map_cons, each _ List.mem_cons_self _ here,
      ih fun x member => each x (List.mem_cons_of_mem _ member)]

theorem option_map_eq_of_rel {α β : Type} {Related : α → β → Prop} {change : α → β}
    {before : Option α} {after : Option β} (related : Option.Rel Related before after)
    (each : ∀ x, before = some x → ∀ y, Related x y → change x = y) : before.map change = after := by
  cases related with
  | some here => exact congrArg some (each _ rfl _ here)
  | none => rfl

/-- What becomes of a node is determined. -/
theorem bares_iff {before after : Node} : Bares before after ↔ before.map stripOwn = after := by
  constructor
  · intro bares
    -- The node after has all its fields given, those below it by the induction.
    induction before using Node.induct generalizing after with
    | step before inChildren inAlternative =>
      obtain ⟨name, properties, bindings, annotations, scope, kind, children, alternative⟩ := bares
      have below : before.children.map (Node.map stripOwn) = after.children :=
        map_eq_of_forall₂ children fun child member _ bares => inChildren child member bares
      have beside : before.alternative.map (Node.map stripOwn) = after.alternative :=
        option_map_eq_of_rel alternative fun other held _ bares => inAlternative other held bares
      rw [map_of_own isOwn_stripOwn, below, beside]
      obtain ⟨_, keptProperties, keptBindings, _, _, _, _, stored⟩ := after
      obtain rfl : keptProperties = before.properties.filterKeys (!isInternal ·) :=
        Dictionary.ext_toList properties
      obtain rfl : keptBindings = before.bindings.filterKeys (!isInternal ·) :=
        Dictionary.ext_toList bindings
      cases name
      cases annotations
      cases scope
      obtain rfl : stored = kindOf before.name (before.properties.filterKeys (!isInternal ·))
          (before.bindings.filterKeys (!isInternal ·)) := kind
      rfl
  · rintro rfl
    exact bares_map_stripOwn before

end Node

theorem forall₂_bares_iff {before after : List Node} :
    List.Forall₂ Node.Bares before after ↔ mapNodes Node.stripOwn before = after := by
  rw [mapNodes_eq_map]
  constructor
  · exact fun related => Node.map_eq_of_forall₂ related fun _ _ _ bares => Node.bares_iff.1 bares
  · rintro rfl
    rw [List.forall₂_map_right_iff, List.forall₂_same]
    exact fun node _ => node.bares_map_stripOwn

theorem Node.stripOwn_comp_stripOwn : Node.stripOwn ∘ Node.stripOwn = Node.stripOwn := by
  funext node
  have twice {α : Type} (entries : Entries α) :
      (entries.filterKeys (!isInternal ·)).filterKeys (!isInternal ·) =
        entries.filterKeys (!isInternal ·) :=
    Dictionary.ext_toList (by simp [List.filter_filter])
  simp only [Function.comp_apply, stripOwn, refresh, freshKind, twice]

/-- Taking internal annotations away leaves none of them at any depth and takes nothing else. All
kinds are up to date then, the analysis finds the same as before, and nothing is left to take. -/
theorem strip_exact (component : Component) :
    (∀ node ∈ component.strip.nodes, (∀ key ∈ node.properties.keys, isInternal key = false) ∧
      (∀ key ∈ node.bindings.keys, isInternal key = false) ∧ node.kind = node.freshKind) ∧
    (∀ children, List.Forall₂ Node.Bares component.children children ↔
      component.strip = { component with children := children }) ∧
    analyze component.strip = analyze component ∧
    component.strip.strip = component.strip := by
  refine ⟨fun inner member => ?clean, fun children => ?exact, analyze_strip component, ?again⟩
  case clean =>
    obtain ⟨node, -, children, alternative, rfl⟩ :=
      exists_of_mem_walk_mapNodes Node.isOwn_stripOwn member
    have clean {α : Type} (entries : Entries α) :
        ∀ key ∈ (entries.filterKeys (!isInternal ·)).keys, isInternal key = false := by
      intro key member
      rw [Dictionary.keys_filterKeys] at member
      simpa using (List.mem_filter.1 member).2
    exact ⟨clean node.properties, clean node.bindings, rfl⟩
  case exact =>
    rw [forall₂_bares_iff]
    constructor
    · rintro rfl
      rfl
    · intro same
      exact congrArg Component.children same
  case again =>
    have twice : mapNodes Node.stripOwn (mapNodes Node.stripOwn component.children) =
        mapNodes Node.stripOwn component.children := by
      rw [mapNodes_mapNodes Node.isOwn_stripOwn Node.isOwn_stripOwn, Node.stripOwn_comp_stripOwn]
    exact congrArg (fun children => { component with children := children }) twice

/-! ### Props -/

/-- Items from which nothing comes can be left out. -/
theorem flatMap_filter_of_nil {α β : Type} {keep : α → Bool} {f : α → List β} {items : List α}
    (nothing : ∀ item ∈ items, keep item = false → f item = []) :
    (items.filter keep).flatMap f = items.flatMap f := by
  induction items with
  | nil => rfl
  | cons item rest ih =>
    have later := ih fun other member => nothing other (List.mem_cons_of_mem _ member)
    cases kept : keep item with
    | true => simp [kept, later]
    | false => simp [kept, later, nothing item List.mem_cons_self kept]

/-- What is known already adds nothing to first occurrences. -/
theorem foldl_firstOccurrences_filter {known seen : List String} (included : known ⊆ seen)
    (items : List String) :
    items.foldl (fun seen item => if seen.contains item then seen else seen ++ [item]) seen =
      (items.filter (!known.contains ·)).foldl
        (fun seen item => if seen.contains item then seen else seen ++ [item]) seen := by
  induction items generalizing seen with
  | nil => rfl
  | cons item rest ih =>
    by_cases old : item ∈ known
    · have passed : item ∈ seen := included old
      simp only [List.foldl_cons, List.filter_cons, List.contains_iff_mem.2 passed,
        List.contains_iff_mem.2 old, if_true, Bool.not_true, Bool.false_eq_true, if_false]
      exact ih included
    · have new : known.contains item = false := by simpa using old
      simp only [List.foldl_cons, List.filter_cons, new, Bool.not_false, if_true]
      refine ih ?_
      split
      · exact included
      · exact List.subset_append_of_subset_left _ included

theorem firstOccurrences_append_congr {known items others : List String}
    (same : items.filter (!known.contains ·) = others.filter (!known.contains ·)) :
    firstOccurrences (known ++ items) = firstOccurrences (known ++ others) := by
  have included : known ⊆ firstOccurrences known := fun item member =>
    Script.mem_firstOccurrences.2 member
  unfold firstOccurrences at included ⊢
  rw [List.foldl_append, List.foldl_append, foldl_firstOccurrences_filter included, same,
    ← foldl_firstOccurrences_filter included]

/-- The props that a code refers to. -/
def propsOf (code : String) : List String :=
  (propReferences code.toList).map String.ofList

namespace Node

/-- The internal annotations of a node refer to known props only. -/
def IsNeutral (known : List String) (node : Node) : Prop :=
  ∀ pair ∈ node.bindings.toList, isInternal pair.1 = true →
    ∀ code ∈ pair.2.activeCode?.toList, ∀ name ∈ propsOf code, name ∈ known

instance (known : List String) : DecidablePred (IsNeutral known) := fun node =>
  inferInstanceAs (Decidable (∀ pair ∈ node.bindings.toList, isInternal pair.1 = true →
    ∀ code ∈ pair.2.activeCode?.toList, ∀ name ∈ propsOf code, name ∈ known))

/-- The props that the bindings of a node refer to, apart from known ones. -/
def newProps (known : List String) (node : Node) : List String :=
  node.bindings.toList.flatMap fun pair =>
    (pair.2.activeCode?.toList.flatMap propsOf).filter (!known.contains ·)

theorem newProps_stripOwn {known : List String} {node : Node} (neutral : node.IsNeutral known) :
    node.stripOwn.newProps known = node.newProps known := by
  refine flatMap_filter_of_nil fun pair bound dropped => ?_
  have internal : isInternal pair.1 = true := by simpa using dropped
  simp only [List.filter_eq_nil_iff, List.mem_flatMap, Bool.not_eq_true, Bool.not_eq_false',
    List.contains_iff_mem]
  rintro name ⟨code, active, referred⟩
  exact neutral pair bound internal code active name referred

end Node

namespace Component

/-- The internal annotations of a component refer to declared props only. -/
def IsNeutral (component : Component) : Prop :=
  ∀ node ∈ component.nodes, node.IsNeutral component.props.keys

instance : DecidablePred IsNeutral := fun component =>
  inferInstanceAs (Decidable (∀ node ∈ component.nodes, node.IsNeutral component.props.keys))

/-- The props that all bindings of a component refer to, apart from known ones, node by node. -/
theorem filter_props_bindingCode (known : List String) (component : Component) :
    (component.bindingCode.flatMap propsOf).filter (!known.contains ·) =
      component.nodes.flatMap (Node.newProps known) := by
  rw [bindingCode, List.flatMap_assoc, List.filter_flatMap]
  refine List.flatMap_congr fun node _ => ?_
  simp only [Node.newProps, Dictionary.values, List.filterMap_eq_flatMap_toList, List.flatMap_assoc,
    List.flatMap_map, List.filter_flatMap]

/-- Neutral internal annotations do not matter for the props that a component has. -/
theorem propNames_strip {component : Component} (neutral : component.IsNeutral) :
    component.strip.propNames = component.propNames := by
  have nodes : component.strip.nodes.flatMap (Node.newProps component.props.keys) =
      component.nodes.flatMap (Node.newProps component.props.keys) := by
    calc component.strip.nodes.flatMap (Node.newProps component.props.keys)
        = component.nodes.flatMap fun node => node.stripOwn.newProps component.props.keys :=
          flatMap_walk_mapNodes Node.isOwn_stripOwn (fun _ _ _ => rfl) component.children
      _ = component.nodes.flatMap (Node.newProps component.props.keys) :=
          List.flatMap_congr fun node member => Node.newProps_stripOwn (neutral node member)
  show firstOccurrences (component.props.keys ++ component.strip.code.flatMap propsOf) =
    firstOccurrences (component.props.keys ++ component.code.flatMap propsOf)
  refine firstOccurrences_append_congr ?_
  simp only [code, List.flatMap_append, List.filter_append, filter_props_bindingCode, nodes]
  rfl

end Component

end ComponentCompiler
