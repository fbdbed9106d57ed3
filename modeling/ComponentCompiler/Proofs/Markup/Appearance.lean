import ComponentCompiler.Markup.Render
import ComponentCompiler.Proofs.Component.Forest

/-!
# What the markup of a node depends on

The markup of a node is made of a few texts of its own and of the markup of its children and its
alternative. Nodes that have the same texts of their own are alike; if two changes turn each node
of a forest into nodes that are alike, the two changed forests have the same markup, and making it
leaves the same trail.

## Main definitions

* `Markup.Alike` — two nodes, each under its own settings, have the same texts of their own

## Main results

* `Markup.render_eq` — the markup of a node by its kind
* `Markup.render_map_congr`, `Markup.renderChildren_mapNodes_congr` — the markup of changed trees
  and forests
-/

namespace ComponentCompiler.Markup

/-- The markup of an alternative; there is none without one. -/
def renderOther (settings : Settings) : Option Node → Run String
  | none => pure ""
  | some other => render settings other

/-- What a choice shows if its condition does not hold. -/
def otherwiseText (other : String) : String :=
  if other.isEmpty then "null" else "(" ++ other ++ ")"

/-- What stands between the tags of an element. -/
def elementBody (settings : Settings) (node : Node) : Run String :=
  match node.activeCode? "innerHTML" with
  | some code => do return braced (← embedCode .markup (some code))
  | none => renderChildren settings node.children

/-- The markup of a node by its kind. -/
theorem render_eq (settings : Settings) (node : Node) :
    render settings node =
      match node.kind with
      | .text => literalText node
      | .dynamicText => dynamicText node
      | .fragment => renderChildren settings node.children
      | .repetition => do
        let head ← repetitionHead node
        let body ← renderChildren settings node.children
        return braced (head ++ "\n" ++ Text.indented margin body ++ "\n))")
      | .choice => do
        let condition ← slotCode node "when"
        let body ← renderChildren settings node.children
        let other ← renderOther settings node.alternative
        return braced (condition ++ " ? (\n" ++ Text.indented margin body ++ "\n) : " ++
          otherwiseText other)
      | .element => do
        let start ← opening settings node
        if voidTags.contains node.name then return start ++ " />"
        else
          let body ← elementBody settings node
          return start ++ ">" ++ body ++ "</" ++ node.name ++ ">" := by
  obtain ⟨name, properties, bindings, children, alternative, annotations, scope, kind⟩ := node
  cases kind with
  | text | dynamicText | fragment => simp only [render, renderChildren]
  | repetition => simp only [render, renderChildren, bind_assoc, pure_bind]
  | choice =>
    cases alternative <;>
      simp only [render, renderChildren, renderOther, otherwiseText, bind_assoc, pure_bind]
  | element =>
    simp only [render, renderChildren, elementBody]
    cases Node.activeCode?
      ⟨name, properties, bindings, children, alternative, annotations, scope, .element⟩
      "innerHTML" <;>
      simp only [bind_assoc, pure_bind]

/-- An element gets the directive that is asked for, unless it is none, if one of its bindings
activates it. -/
theorem directiveText_eq (settings : Settings) (node : Node) :
    directiveText settings node =
      ((settings.directive.filter fun directive => !(directive.isEmpty || directive == "none")).map
        fun directive =>
          if node.bindings.toList.any fun pair => activates pair.1 pair.2 then " " ++ directive
          else "").getD "" := by
  unfold directiveText
  cases settings.directive with
  | none => rfl
  | some directive =>
    by_cases absent : (directive.isEmpty || directive == "none") = true
    · simp only [Option.filter_some, absent, if_true, Bool.not_true, Bool.false_eq_true, if_false]
      rfl
    · simp only [Option.filter_some, absent, Bool.not_false, if_true, Bool.false_eq_true, if_false]
      rfl

/-- Two nodes, each under its own settings, have the same texts of their own: what they are rendered
as, and whether their own inner content is code. -/
structure Alike (settings others : Settings) (node other : Node) : Prop where
  kind : node.kind = other.kind
  name : node.name = other.name
  blank : node.isBlankText = other.isBlankText
  literal : literalText node = literalText other
  dynamic : dynamicText node = dynamicText other
  head : repetitionHead node = repetitionHead other
  condition : slotCode node "when" = slotCode other "when"
  opening : opening settings node = opening others other
  inner : node.activeCode? "innerHTML" = other.activeCode? "innerHTML"

/-- Being alike does not concern what two nodes hold. -/
theorem Alike.withBelow {settings others : Settings} {node other : Node}
    (alike : Alike settings others node other) (children lower : List Node)
    (alternative below : Option Node) :
    Alike settings others (node.withBelow children alternative) (other.withBelow lower below) where
  kind := alike.kind
  name := alike.name
  blank := alike.blank
  literal := alike.literal
  dynamic := alike.dynamic
  head := alike.head
  condition := alike.condition
  opening := alike.opening
  inner := alike.inner

/-- Nodes that are alike have the same markup if what they hold has. -/
theorem Alike.render {settings others : Settings} {node other : Node}
    (alike : Alike settings others node other)
    (children : renderChildren settings node.children = renderChildren others other.children)
    (alternative : renderOther settings node.alternative = renderOther others other.alternative) :
    render settings node = render others other := by
  have body : elementBody settings node = elementBody others other := by
    unfold elementBody
    rw [alike.inner, children]
  rw [render_eq, render_eq, alike.kind, alike.name, alike.literal, alike.dynamic, alike.head,
    alike.condition, alike.opening, children, alternative, body]

section Changes

variable {settings others : Settings} {first second : Node → Node}

theorem renderAll_map_congr (nodes : List Node)
    (blank : ∀ node ∈ nodes, (first node).isBlankText = (second node).isBlankText)
    (same : ∀ node ∈ nodes, render settings (first node) = render others (second node)) :
    renderAll settings (nodes.map first) = renderAll others (nodes.map second) := by
  induction nodes with
  | nil => simp [renderAll]
  | cons node rest ih =>
    have later := ih (fun other member => blank other (List.mem_cons_of_mem _ member))
      (fun other member => same other (List.mem_cons_of_mem _ member))
    simp only [List.map_cons, renderAll, blank node List.mem_cons_self,
      same node List.mem_cons_self, later]

/-- Two changes that turn each node of a tree into nodes that are alike turn the tree into trees
with the same markup. -/
theorem render_map_congr (ownFirst : Node.IsOwn first) (ownSecond : Node.IsOwn second) (node : Node)
    (alike : ∀ inner ∈ node.walk, Alike settings others (first inner) (second inner)) :
    render settings (node.map first) = render others (node.map second) := by
  induction node using Node.induct with
  | step node inChildren inAlternative =>
    have here := alike node (mem_walk_self node)
    rw [Node.map_of_own ownFirst, Node.map_of_own ownSecond]
    refine (here.withBelow _ _ _ _).render ?_ ?_
    · show (do return "\n".intercalate (← renderAll settings (node.children.map (Node.map first)))) =
        _
      rw [renderAll_map_congr node.children]
      · rfl
      · intro child member
        rw [Node.map_of_own ownFirst, Node.map_of_own ownSecond]
        exact (alike child (Node.walk_subset_of_child member (mem_walk_self child))).blank
      · exact fun child member =>
          inChildren child member fun inner inside =>
            alike inner (Node.walk_subset_of_child member inside)
    · cases held : node.alternative with
      | none => rfl
      | some other =>
        exact inAlternative other held fun inner inside =>
          alike inner (Node.walk_alternative_subset held inside)

/-- Two changes that turn each node of a forest into nodes that are alike turn the forest into
forests with the same markup. -/
theorem renderChildren_mapNodes_congr (ownFirst : Node.IsOwn first) (ownSecond : Node.IsOwn second)
    (nodes : List Node)
    (alike : ∀ inner ∈ walk nodes, Alike settings others (first inner) (second inner)) :
    renderChildren settings (mapNodes first nodes) =
      renderChildren others (mapNodes second nodes) := by
  have inside {node : Node} (member : node ∈ nodes) : node.walk ⊆ walk nodes :=
    Node.walk_subset_of_mem member
  simp only [renderChildren, mapNodes_eq_map]
  rw [renderAll_map_congr nodes]
  · intro node member
    rw [Node.map_of_own ownFirst, Node.map_of_own ownSecond]
    exact (alike node (inside member (mem_walk_self node))).blank
  · exact fun node member =>
      render_map_congr ownFirst ownSecond node fun inner below => alike inner (inside member below)

end Changes

end ComponentCompiler.Markup
