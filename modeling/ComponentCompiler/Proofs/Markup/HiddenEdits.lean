import ComponentCompiler.Proofs.Markup.StyleTrail
import Mathlib.Logic.Relation

/-!
# Edits that the markup does not show

Rendering skips blank texts in a list of children, does not enter some nodes, and looks at the
alternative of a choice only. So there are edits of a forest that it cannot notice: a blank text
comes or goes, the children of a node that is not entered are replaced, or a node that is no choice
gets another alternative. Whatever is hidden in this way shows neither in the markup nor in the
style objects that are collected, and gives no warning.

## Main definitions

* `Markup.IsClosed` — a node whose children are not shown
* `Markup.NodeEdit`, `Markup.HiddenEdit` — one hidden edit of a node, or of a forest, at any depth

## Main results

* `Markup.Alike.render_of_shown` — what the markup of a node depends on
* `Markup.renderChildren_of_hiddenEdit` — one hidden edit makes no difference
* `Markup.gather_of_hiddenEdits` — nor does any number of them, whatever was collected before
-/

namespace ComponentCompiler.Markup

/-! ### What the markup of a node depends on -/

/-- Nodes that are alike have the same markup if the children have, as far as rendering goes on to
them, and the alternatives have, as far as there is a choice. -/
theorem Alike.render_of_shown {settings others : Settings} {node other : Node}
    (alike : Alike settings others node other)
    (children : goesOn node = true →
      renderChildren settings node.children = renderChildren others other.children)
    (alternative : node.kind = .choice →
      renderOther settings node.alternative = renderOther others other.alternative) :
    Markup.render settings node = Markup.render others other := by
  rw [render_eq, render_eq, ← alike.kind]
  cases isKind : node.kind with
  | text => exact alike.literal
  | dynamicText => exact alike.dynamic
  | fragment => exact children (by simp [goesOn, isKind])
  | repetition =>
    have shown := children (by simp [goesOn, isKind])
    simp only [alike.head, shown]
  | choice =>
    have shown := children (by simp [goesOn, isKind])
    simp only [alike.condition, shown, alternative isKind]
  | element =>
    simp only [alike.opening, ← alike.name]
    by_cases isVoid : voidTags.contains node.name = true
    · simp only [isVoid, if_true]
    · have body : elementBody settings node = elementBody others other := by
        unfold elementBody
        rw [← alike.inner]
        cases inner : node.activeCode? "innerHTML" with
        | some code => rfl
        | none =>
          refine children ?_
          rw [Bool.not_eq_true] at isVoid
          simp only [goesOn, isKind, isVoid, inner]
          rfl
      simp only [isVoid, body]

/-- A node stays alike if nothing changes but what it holds and what tools have noted down. -/
theorem alike_of_below (settings : Settings) (node : Node) (children : List Node)
    (alternative : Option Node) (annotations : Entries Json) :
    Alike settings settings node
      { node with children := children, alternative := alternative, annotations := annotations } where
  kind := rfl
  name := rfl
  blank := rfl
  literal := rfl
  dynamic := rfl
  head := rfl
  condition := rfl
  opening := rfl
  inner := rfl

/-! ### Hidden edits -/

/-- A node whose children are not shown: a text, the value of embedded code, an element without
content, or an element whose inner content is code. -/
def IsClosed (node : Node) : Prop :=
  node.kind = .text ∨ node.kind = .dynamicText ∨
    node.kind = .element ∧ (node.name ∈ voidTags ∨ (node.activeCode? "innerHTML").isSome = true)

instance : DecidablePred IsClosed := fun node =>
  inferInstanceAs (Decidable (node.kind = .text ∨ node.kind = .dynamicText ∨
    node.kind = .element ∧ (node.name ∈ voidTags ∨ (node.activeCode? "innerHTML").isSome = true)))

/-- Rendering does not go on to the children of a closed node. -/
theorem IsClosed.goesOn_eq_false {node : Node} (closed : IsClosed node) : goesOn node = false := by
  rcases closed with isText | isDynamic | ⟨isElement, isVoid | inner⟩
  · simp [goesOn, isText]
  · simp [goesOn, isDynamic]
  · simp [goesOn, isElement, isVoid]
  · simp [goesOn, isElement, Option.isNone_eq_false_iff.2 inner]

mutual

/-- One hidden edit of a node or of something below it. -/
inductive NodeEdit : Node → Node → Prop
  | content (node : Node) (children : List Node) (closed : IsClosed node) :
    NodeEdit node { node with children := children }
  /-- Only a choice shows its alternative. An alternative that is new may need a place among the
  annotations. -/
  | alternative (node : Node) (other : Option Node) (annotations : Entries Json)
    (single : node.kind ≠ .choice) :
    NodeEdit node { node with alternative := other, annotations := annotations }
  | inChildren (node : Node) {children : List Node} (edit : HiddenEdit node.children children) :
    NodeEdit node { node with children := children }
  | inAlternative (node : Node) {old new : Node} (held : node.alternative = some old)
    (edit : NodeEdit old new) : NodeEdit node { node with alternative := some new }

/-- One hidden edit of a forest or of something below it. -/
inductive HiddenEdit : List Node → List Node → Prop
  | insert (before after : List Node) {blank : Node} (isBlank : blank.isBlankText = true) :
    HiddenEdit (before ++ after) (before ++ blank :: after)
  | delete (before after : List Node) {blank : Node} (isBlank : blank.isBlankText = true) :
    HiddenEdit (before ++ blank :: after) (before ++ after)
  | inNode (before after : List Node) {old new : Node} (edit : NodeEdit old new) :
    HiddenEdit (before ++ old :: after) (before ++ new :: after)

end

/-- A node is a blank text or not, whatever is edited in it or below it. -/
theorem isBlankText_of_nodeEdit {old new : Node} (edit : NodeEdit old new) :
    old.isBlankText = new.isBlankText := by
  cases edit <;> rfl

theorem renderAll_append (settings : Settings) (before after : List Node) :
    renderAll settings (before ++ after) = (do
      let first ← renderAll settings before
      let second ← renderAll settings after
      return first ++ second) := by
  induction before with
  | nil => simp [renderAll]
  | cons node rest ih =>
    simp only [List.cons_append, renderAll]
    split
    · exact ih
    · simp only [ih, bind_assoc, pure_bind, List.cons_append]

/-- The nodes before a place do not matter for what is rendered from there on. -/
theorem renderAll_append_congr {settings : Settings} (before : List Node) {after others : List Node}
    (same : renderAll settings after = renderAll settings others) :
    renderAll settings (before ++ after) = renderAll settings (before ++ others) := by
  rw [renderAll_append, renderAll_append, same]

theorem renderChildren_congr {settings : Settings} {nodes others : List Node}
    (same : renderAll settings nodes = renderAll settings others) :
    renderChildren settings nodes = renderChildren settings others := by
  rw [renderChildren, renderChildren, same]

mutual

/-- A hidden edit of a node does not change its markup. -/
theorem render_of_nodeEdit {settings : Settings} {old new : Node} :
    NodeEdit old new → render settings old = render settings new
  | .content node children closed =>
    (alike_of_below settings node children node.alternative node.annotations).render_of_shown
      (fun entered => by rw [closed.goesOn_eq_false] at entered; cases entered) (fun _ => rfl)
  | .alternative node other annotations single =>
    (alike_of_below settings node node.children other annotations).render_of_shown
      (fun _ => rfl) (fun isChoice => absurd isChoice single)
  | .inChildren node edit =>
    (alike_of_below settings node _ node.alternative node.annotations).render_of_shown
      (fun _ => renderChildren_congr (renderAll_of_hiddenEdit edit)) (fun _ => rfl)
  | .inAlternative node held edit =>
    (alike_of_below settings node node.children _ node.annotations).render_of_shown
      (fun _ => rfl) (fun _ => by rw [held]; exact render_of_nodeEdit edit)

/-- A hidden edit of a forest does not change its markup. -/
theorem renderAll_of_hiddenEdit {settings : Settings} {nodes others : List Node} :
    HiddenEdit nodes others → renderAll settings nodes = renderAll settings others
  | .insert before after isBlank =>
    renderAll_append_congr before (renderAll_cons_of_blank settings after isBlank).symm
  | .delete before after isBlank =>
    renderAll_append_congr before (renderAll_cons_of_blank settings after isBlank)
  | @HiddenEdit.inNode before after old new edit => by
    have markup : render settings old = render settings new := render_of_nodeEdit edit
    refine renderAll_append_congr before ?_
    simp only [renderAll, isBlankText_of_nodeEdit edit, markup]

end

/-- One hidden edit changes neither the markup of a forest nor the trail of making it. -/
theorem renderChildren_of_hiddenEdit (settings : Settings) {nodes others : List Node}
    (edit : HiddenEdit nodes others) :
    renderChildren settings nodes = renderChildren settings others :=
  renderChildren_congr (renderAll_of_hiddenEdit edit)

/-- Nor do any number of hidden edits, one after the other. -/
theorem renderChildren_of_hiddenEdits (settings : Settings) {nodes others : List Node}
    (edits : Relation.ReflTransGen HiddenEdit nodes others) :
    renderChildren settings nodes = renderChildren settings others := by
  induction edits with
  | refl => rfl
  | tail _ last ih => rw [ih, renderChildren_of_hiddenEdit settings last]

/-- A forest whose kinds are up to date has markup. Hidden edits change neither this markup nor what
a collection holds after it, whatever the collection held before, and give no warning. -/
theorem gather_of_hiddenEdits (settings : Settings) {nodes others : List Node}
    (settled : ∀ node ∈ walk nodes, node.IsSettled)
    (edits : Relation.ReflTransGen HiddenEdit nodes others) :
    ∃ text, ∀ initial : Style.Collection, ∃ grown : Style.Collection,
      (renderChildren settings nodes).gather initial = (.ok text, grown) ∧
      (renderChildren settings others).gather initial = (.ok text, grown) ∧
      (renderChildren settings others).warnings = (renderChildren settings nodes).warnings := by
  obtain ⟨⟨text, yields⟩, -⟩ := meets_renderChildren settings settled
  have same := renderChildren_of_hiddenEdits settings edits
  refine ⟨text, fun initial =>
    ⟨Style.collectAll initial (renderChildren settings nodes).styles, ?_, ?_, ?_⟩⟩
  · exact Prod.ext yields rfl
  · rw [← same]
    exact Prod.ext yields rfl
  · rw [same]

/-- A text. -/
def literal (text : String) : Node :=
  ⟨"div", Dictionary.ofList [(textKey, text)], ∅, [], none, ∅, ∅, .text⟩

/-- A choice that shows an image with a style object, or else a link. -/
def offer (inside beside beneath : List Node) : List Node :=
  [⟨"Show", ∅, Dictionary.ofList [("when", Binding.ofCode "state.open")],
    inside ++ [styled "img" "\x7bmargin: 0\x7d" beneath],
    some (styled "a" "\x7bcolor: 'red'\x7d" beside), ∅, ∅, .choice⟩]

/-- A blank text beside the image, another one below the link, and an element with a style object
that is put into the image show nowhere. -/
theorem gather_offer : (∀ node ∈ walk (offer [] [] []), node.IsSettled) ∧
    Relation.ReflTransGen HiddenEdit (offer [] [] [])
      (offer [literal " "] [literal "\n"] [styled "b" "\x7bcolor: 'blue'\x7d" []]) ∧
    ∃ text, ∀ initial : Style.Collection, ∃ grown : Style.Collection,
      (renderChildren {} (offer [] [] [])).gather initial = (.ok text, grown) ∧
      (renderChildren {} (offer [literal " "] [literal "\n"]
        [styled "b" "\x7bcolor: 'blue'\x7d" []])).gather initial = (.ok text, grown) ∧
      (renderChildren {} (offer [literal " "] [literal "\n"]
        [styled "b" "\x7bcolor: 'blue'\x7d" []])).warnings =
          (renderChildren {} (offer [] [] [])).warnings := by
  have settled : ∀ node ∈ walk (offer [] [] []), node.IsSettled := by decide +kernel
  have first : HiddenEdit (offer [] [] []) (offer [literal " "] [] []) :=
    .inNode [] [] (.inChildren _ (.insert [] _ (by decide)))
  have second : HiddenEdit (offer [literal " "] [] []) (offer [literal " "] [literal "\n"] []) :=
    .inNode [] [] (.inAlternative _ rfl (.inChildren _ (.insert [] [] (by decide))))
  have third : HiddenEdit (offer [literal " "] [literal "\n"] [])
      (offer [literal " "] [literal "\n"] [styled "b" "\x7bcolor: 'blue'\x7d" []]) :=
    .inNode [] [] (.inChildren _ (.inNode [literal " "] [] (.content _ _ (by decide))))
  have edits := ((Relation.ReflTransGen.single first).tail second).tail third
  exact ⟨settled, edits, gather_of_hiddenEdits {} settled edits⟩

end ComponentCompiler.Markup
