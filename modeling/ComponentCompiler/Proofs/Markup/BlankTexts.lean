import ComponentCompiler.Component.Encode
import ComponentCompiler.Proofs.Component.Decoded
import ComponentCompiler.Proofs.Markup.StyleTrail

/-!
# What is lost with blank texts

A list of children is rendered without the nodes whose text property is white space only. A text
that is not empty makes a node a text, so such a node shows only white space. An empty text does
not: the node keeps the kind that its bindings and its name give it, and is dropped all the same.
Then what it would show is lost, unless it is a fragment of nothing but blank texts and fragments
of this sort.

## Main definitions

* `Markup.IsBare` — a node without bindings and children
* `Markup.IsInvisible` — a node that shows only white space by itself, and has no style object
  collected
* `Markup.IsHollow` — a fragment that holds blank texts and hollow fragments only

## Main results

* `Markup.renderAll_visible` — a forest is rendered without its blank texts
* `Markup.blank_render_iff` — whose markup is white space only
* `Markup.isInvisible_iff` — which nodes are invisible
* `Markup.drops_harmless_iff` — when a node that is dropped is bare or invisible
* `Markup.drops_echo` — a dynamic text that is dropped though it shows a value
-/

namespace ComponentCompiler

namespace Text

theorem isBlankText_append (front back : List Char) :
    isBlankText (front ++ back) = (isBlankText front && isBlankText back) :=
  List.all_append

theorem isBlankText_cons_of_solid {c : Char} (solid : isBlank c = false) (rest : List Char) :
    isBlankText (c :: rest) = false := by
  simp [isBlankText, solid]

theorem isBlankText_intercalate (parts : List String) :
    isBlankText ("\n".intercalate parts).toList = true ↔
      ∀ part ∈ parts, isBlankText part.toList = true := by
  induction parts with
  | nil => simp [isBlankText]
  | cons first rest ih =>
    cases rest with
    | nil => simp
    | cons second others =>
      have feed : isBlankText "\n".toList = true := by decide
      rw [String.intercalate_cons_cons, String.toList_append, String.toList_append,
        isBlankText_append, isBlankText_append, feed, Bool.and_true, Bool.and_eq_true, ih,
        List.forall_mem_cons (l := second :: others)]

end Text

namespace Markup

/-! ### Nodes that show nothing -/

/-- A node without bindings and children. -/
def IsBare (node : Node) : Prop :=
  node.bindings.toList = [] ∧ node.children = []

/-- Rendering the node by itself gives only white space, and meets no style object. -/
def IsInvisible (settings : Settings) (node : Node) : Prop :=
  ∃ text, (render settings node).outcome = .ok text ∧ Text.isBlankText text.toList = true ∧
    (render settings node).styles = []

/-- A fragment that holds nothing but blank texts and hollow fragments. -/
inductive IsHollow : Node → Prop
  | fragment (node : Node) (isFragment : node.kind = .fragment)
      (shown : ∀ child ∈ node.children, child.isBlankText = false → IsHollow child) : IsHollow node

theorem IsHollow.kind {node : Node} : IsHollow node → node.kind = .fragment
  | .fragment _ isFragment _ => isFragment

theorem isHollow_iff_of_fragment {node : Node} (isFragment : node.kind = .fragment) :
    IsHollow node ↔ ∀ child ∈ node.children, child.isBlankText = false → IsHollow child := by
  constructor
  · intro hollow
    cases hollow with
    | fragment _ _ shown => exact shown
  · exact .fragment node isFragment

theorem mem_visible {node : Node} {nodes : List Node} :
    node ∈ visible nodes ↔ node ∈ nodes ∧ node.isBlankText = false := by
  simp [visible]

/-- The markup of a list of nodes does not show the blank texts in it. -/
theorem renderAll_visible (settings : Settings) (nodes : List Node) :
    renderAll settings (visible nodes) = renderAll settings nodes := by
  induction nodes with
  | nil => rfl
  | cons node rest ih =>
    by_cases blank : node.isBlankText = true
    · rw [renderAll_cons_of_blank settings rest blank, ← ih]
      simp [visible, blank]
    · have kept : visible (node :: rest) = node :: visible rest := by simp [visible, blank]
      rw [kept, renderAll, renderAll, ih]

/-! ### Blank markup -/

theorem isBlankText_braced (text : String) : Text.isBlankText (braced text).toList = false := by
  have brace : Text.isBlank '\x7b' = false := by decide
  simp [braced, Text.isBlankText_cons_of_solid brace]

theorem isBlankText_opening {settings : Settings} {node : Node} {start : String}
    (opened : (opening settings node).outcome = .ok start) :
    Text.isBlankText start.toList = false := by
  unfold opening at opened
  obtain ⟨classes, -, opened, -⟩ := Run.exists_of_bind_ok opened
  obtain ⟨bound, -, opened, -⟩ := Run.exists_of_bind_ok opened
  cases opened
  have bracket : Text.isBlank '<' = false := by decide
  simp [Text.isBlankText_cons_of_solid bracket]

/-- What is shown of a list of nodes is blank if the markup of each node that is shown is. -/
theorem blank_renderAll_iff {settings : Settings} {blank : Node → Prop} {nodes : List Node}
    (each : ∀ node ∈ nodes, ∀ text, (render settings node).outcome = .ok text →
      node.isBlankText = false → (Text.isBlankText text.toList = true ↔ blank node))
    {parts : List String} (rendered : (renderAll settings nodes).outcome = .ok parts) :
    (∀ part ∈ parts, Text.isBlankText part.toList = true) ↔
      ∀ node ∈ nodes, node.isBlankText = false → blank node := by
  induction nodes generalizing parts with
  | nil =>
    cases rendered
    simp
  | cons node rest ih =>
    rw [List.forall_mem_cons] at each
    rw [renderAll] at rendered
    split at rendered
    · next dropped =>
      rw [ih each.2 rendered, List.forall_mem_cons]
      simp [dropped]
    · next shown =>
      obtain ⟨text, here, rendered, -⟩ := Run.exists_of_bind_ok rendered
      obtain ⟨others, later, rendered, -⟩ := Run.exists_of_bind_ok rendered
      cases rendered
      rw [Bool.not_eq_true] at shown
      rw [List.forall_mem_cons, List.forall_mem_cons, each.1 text here shown, ih each.2 later]
      simp [shown]

/-- Whatever is neither a text nor a fragment shows a brace or a bracket. -/
theorem isBlankText_render {settings : Settings} {node : Node} (noText : node.kind ≠ .text)
    (noFragment : node.kind ≠ .fragment) {text : String}
    (rendered : (render settings node).outcome = .ok text) :
    Text.isBlankText text.toList = false := by
  rw [render_eq] at rendered
  cases isKind : node.kind with
  | text => exact absurd isKind noText
  | fragment => exact absurd isKind noFragment
  | dynamicText =>
    simp only [isKind, dynamicText] at rendered
    split at rendered
    · obtain ⟨code, -, rendered, -⟩ := Run.exists_of_bind_ok rendered
      cases rendered
      exact isBlankText_braced _
    · cases rendered
  | repetition =>
    simp only [isKind] at rendered
    obtain ⟨head, -, rendered, -⟩ := Run.exists_of_bind_ok rendered
    obtain ⟨body, -, rendered, -⟩ := Run.exists_of_bind_ok rendered
    cases rendered
    exact isBlankText_braced _
  | choice =>
    simp only [isKind] at rendered
    obtain ⟨condition, -, rendered, -⟩ := Run.exists_of_bind_ok rendered
    obtain ⟨body, -, rendered, -⟩ := Run.exists_of_bind_ok rendered
    obtain ⟨other, -, rendered, -⟩ := Run.exists_of_bind_ok rendered
    cases rendered
    exact isBlankText_braced _
  | element =>
    simp only [isKind] at rendered
    obtain ⟨start, opened, rendered, -⟩ := Run.exists_of_bind_ok rendered
    have solid := isBlankText_opening opened
    split at rendered
    · cases rendered
      rw [String.toList_append, Text.isBlankText_append, solid, Bool.false_and]
    · obtain ⟨body, -, rendered, -⟩ := Run.exists_of_bind_ok rendered
      cases rendered
      simp [Text.isBlankText_append, solid]

/-- The markup of a node is white space only if the node is a text that is, or a hollow fragment. -/
theorem blank_render_iff (settings : Settings) (node : Node) :
    ∀ text, (render settings node).outcome = .ok text →
      (Text.isBlankText text.toList = true ↔
        (node.kind = .text ∧ node.isBlankText = true) ∨ IsHollow node) := by
  -- Only fragments need the induction: they show their children and nothing of their own.
  induction node using Node.induct with
  | step node inChildren _ =>
    intro text rendered
    by_cases isText : node.kind = .text
    · have notHollow : ¬ IsHollow node := fun hollow => by simp [hollow.kind] at isText
      simp only [render_eq, isText, literalText] at rendered
      split at rendered
      · next literal found =>
        cases rendered
        simp [Node.isBlankText, found, isText, notHollow]
      · cases rendered
    · by_cases isFragment : node.kind = .fragment
      · simp only [render_eq, isFragment, renderChildren] at rendered
        obtain ⟨parts, below, rendered, -⟩ := Run.exists_of_bind_ok rendered
        cases rendered
        have parted : (∀ part ∈ parts, Text.isBlankText part.toList = true) ↔
            ∀ child ∈ node.children, child.isBlankText = false → IsHollow child := by
          apply blank_renderAll_iff _ below
          intro child member text rendered shown
          rw [inChildren child member text rendered]
          simp [shown]
        rw [Text.isBlankText_intercalate, parted, ← isHollow_iff_of_fragment isFragment]
        simp [isFragment]
      · have notHollow : ¬ IsHollow node := fun hollow => isFragment hollow.kind
        simp [isBlankText_render isText isFragment rendered, isText, notHollow]

/-! ### Style objects -/

theorem styleEntries_visitedIn_eq_nil {nodes : List Node}
    (none : ∀ node ∈ nodes, node.isBlankText = false → styleEntries (visited node) = []) :
    styleEntries (visitedIn nodes) = [] := by
  induction nodes with
  | nil => rfl
  | cons node rest ih =>
    rw [List.forall_mem_cons] at none
    unfold visitedIn
    split
    · exact ih none.2
    · next shown =>
      rw [Bool.not_eq_true] at shown
      rw [styleEntries, List.filterMap_append, ← styleEntries, ← styleEntries, none.1 shown,
        ih none.2, List.append_nil]

theorem IsHollow.styleEntries_visited {node : Node} (hollow : IsHollow node) :
    styleEntries (visited node) = [] := by
  induction hollow with
  | fragment node isFragment _ ih =>
    rw [Markup.styleEntries_visited, styleEntries_visitedIn_eq_nil ih]
    simp [ownStyle?, goesOn, isFragment]

theorem styleEntries_visited_of_text {node : Node} (isText : node.kind = .text) :
    styleEntries (visited node) = [] := by
  simp [styleEntries_visited, ownStyle?, goesOn, isText]

/-- Among nodes whose kinds are up to date, just blank texts and hollow fragments are invisible. -/
theorem isInvisible_iff (settings : Settings) {node : Node}
    (settled : ∀ inner ∈ node.walk, inner.IsSettled) :
    IsInvisible settings node ↔
      (node.kind = .text ∧ node.isBlankText = true) ∨ IsHollow node := by
  obtain ⟨⟨text, rendered⟩, styles⟩ := meets_render settings node settled
  have blank := blank_render_iff settings node text rendered
  constructor
  · rintro ⟨other, again, isBlank, -⟩
    -- There is only one markup, so what is blank is the text that was found to be rendered.
    rw [rendered] at again
    cases again
    exact blank.1 isBlank
  · intro shape
    refine ⟨text, rendered, blank.2 shape, styles.trans ?_⟩
    rcases shape with ⟨isText, -⟩ | hollow
    · exact styleEntries_visited_of_text isText
    · exact hollow.styleEntries_visited

/-! ### Nodes that are dropped -/

/-- A node with a blank text is a text unless its text is empty. -/
theorem kind_eq_text_iff {node : Node} (settled : node.IsSettled)
    (blank : node.isBlankText = true) :
    node.kind = .text ↔ node.properties.get? textKey ≠ some "" := by
  rw [settled]
  unfold Node.isBlankText at blank
  cases found : node.properties.get? textKey with
  | none => simp [found] at blank
  | some text =>
    by_cases empty : text = ""
    · -- Any other kind may come out, from the bindings or the name, but not a text.
      simp only [Node.freshKind, Node.kindOf, found, empty]
      split_ifs <;> simp_all
    · simp [Node.freshKind, Node.kindOf, found, empty]

/-- A list of children is rendered without the nodes that have a blank text. A node of a loaded
component that is dropped in this way can be rendered by itself. It is bare or invisible exactly if
its text is not empty, or it is bare, or a hollow fragment; otherwise what is lost would be seen. -/
theorem drops_harmless_iff (settings : Settings) {document : Json} {component : Component}
    (loaded : loadComponent document = .ok component) {node : Node}
    (inside : node ∈ component.nodes) {siblings : List Node} (member : node ∈ siblings)
    (dropped : node ∉ visible siblings) :
    renderAll settings siblings = renderAll settings (visible siblings) ∧
      (render settings node).Yields ∧
      ((IsBare node ∨ IsInvisible settings node) ↔
        (IsBare node ∨ node.properties.get? textKey ≠ some "" ∨ IsHollow node)) := by
  have settled := settled_of_loadComponent loaded inside
  have blank : node.isBlankText = true := by
    by_contra shown
    apply dropped
    exact mem_visible.2 ⟨member, Bool.eq_false_of_not_eq_true shown⟩
  refine ⟨(renderAll_visible settings siblings).symm, (meets_render settings node settled).1, ?_⟩
  rw [isInvisible_iff settings settled, kind_eq_text_iff (settled node (mem_walk_self node)) blank]
  simp [blank]

/-- A component with one element that holds the given node. -/
def boxOf (inner : Node) : Component :=
  { name := defaultName, children := [⟨"div", ∅, ∅, [inner], none, ∅, ∅, .element⟩] }

/-- A fragment with an empty text that holds a blank text. -/
def spacer : Node :=
  ⟨"Fragment", Dictionary.ofList [(textKey, "")], ∅,
    [⟨"div", Dictionary.ofList [(textKey, " ")], ∅, [], none, ∅, ∅, .text⟩], none, ∅, ∅, .fragment⟩

/-- Nothing is lost with a spacer, though it has a child. -/
theorem drops_spacer : loadComponent (boxOf spacer).encode = .ok (boxOf spacer) ∧
    spacer ∈ (boxOf spacer).nodes ∧ spacer ∉ visible [spacer] ∧ ¬ IsBare spacer ∧
    IsInvisible {} spacer := by
  have loaded : loadComponent (boxOf spacer).encode = .ok (boxOf spacer) := rfl
  have inside : spacer ∈ (boxOf spacer).nodes := .tail _ (.head _)
  have dropped : spacer ∉ visible [spacer] := fun kept => by cases kept
  have notBare : ¬ IsBare spacer := fun bare => by cases bare.2
  have hollow : IsHollow spacer := by
    apply IsHollow.fragment spacer rfl
    intro child member shown
    obtain rfl := List.mem_singleton.1 member
    cases shown
  obtain ⟨-, -, harmless⟩ := drops_harmless_iff {} loaded inside List.mem_cons_self dropped
  have invisible := (harmless.2 (.inr (.inr hollow))).resolve_left notBare
  exact ⟨loaded, inside, dropped, notBare, invisible⟩

/-- A dynamic text that also has an empty literal text. -/
def echo : Node :=
  ⟨"span", Dictionary.ofList [(textKey, "")],
    Dictionary.ofList [(textKey, Binding.ofCode "state.x")], [], none, ∅, ∅, .dynamicText⟩

/-- An element is shown without a dynamic text in it, though this shows a value by itself. -/
theorem drops_echo : loadComponent (boxOf echo).encode = .ok (boxOf echo) ∧
    echo ∈ (boxOf echo).nodes ∧ echo ∉ visible [echo] ∧
    ¬ (IsBare echo ∨ IsInvisible {} echo) ∧
    (render {} echo).outcome = .ok "\x7bx\x7d" ∧
    (renderChildren {} (boxOf echo).children).outcome = .ok "<div></div>" := by
  have shown : (render {} echo).outcome = .ok "\x7bx\x7d" := rfl
  refine ⟨rfl, .tail _ (.head _), (fun kept => by cases kept), ?_, shown, rfl⟩
  rintro (bare | ⟨text, again, blank, -⟩)
  · cases bare.1
  · rw [shown] at again
    cases again
    cases blank

end Markup

end ComponentCompiler
