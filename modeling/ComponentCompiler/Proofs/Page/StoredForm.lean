import ComponentCompiler.Failure
import ComponentCompiler.Plugin.Edit
import ComponentCompiler.Proofs.Component.RoundTrip
import ComponentCompiler.Proofs.Page.Draft

/-!
# What a page does not depend on

A page is the same for a component and for its canonical form. So it depends neither on what the
document of the component leaves out nor on the kinds that are stored in its nodes: these are brought
up to date before the component is rendered, and no earlier stage looks at them. Nor does it matter
whether the component was written down and read back in between.

## Main results

* `Page.prepare_canonical`, `Page.draft_canonical` — the findings and the draft of a canonical form
* `Page.compile_canonical` — its compilation
* `Page.compile_of_stale_kinds` — stored kinds neither make a compilation fail nor change its result
* `Page.compile_of_reloaded` — a component that is written down and read back has the same page
-/

namespace ComponentCompiler

/-! ### The markup of canonical nodes -/

namespace Markup

theorem slotCode_canonicalOwn (node : Node) (key : String) :
    slotCode node.canonicalOwn key = slotCode node key := by
  rw [slotCode, Node.get?_bindings_canonicalOwn, Option.bind_map]
  rfl

theorem dynamicText_canonicalOwn (node : Node) :
    dynamicText node.canonicalOwn = dynamicText node := by
  unfold dynamicText
  rw [Node.get?_bindings_canonicalOwn]
  cases node.bindings.get? textKey <;> rfl

theorem boundClasses_canonicalOwn (node : Node) (keys : List String) :
    boundClasses node.canonicalOwn keys = boundClasses node keys := by
  induction keys with
  | nil => rfl
  | cons key rest ih => simp only [boundClasses, Node.activeCode?_canonicalOwn, ih]

theorem classAttribute_canonicalOwn (node : Node) :
    classAttribute node.canonicalOwn = classAttribute node := by
  have styled : styleClass node.canonicalOwn = styleClass node := by
    simp only [styleClass, Node.activeCode?_canonicalOwn]
    rfl
  rw [classAttribute, boundClasses_canonicalOwn, styled]
  rfl

theorem eventAttribute_canonical (name key : String) (binding : Binding) (code : String) :
    eventAttribute name key binding.canonical code = eventAttribute name key binding code := by
  rw [eventAttribute, Binding.parameters_canonical]
  rfl

theorem bindingAttribute_canonical (name key : String) (binding : Binding) (code : String) :
    bindingAttribute name key binding.canonical code = bindingAttribute name key binding code := by
  simp only [bindingAttribute, Binding.isSpread_canonical, eventAttribute_canonical]

theorem attributes_canonical (name : String) (bindings : List (String × Binding)) :
    attributes name (bindings.map fun pair => (pair.1, pair.2.canonical)) =
      attributes name bindings := by
  induction bindings with
  | nil => rfl
  | cons pair rest ih =>
    obtain ⟨key, binding⟩ := pair
    simp only [List.map_cons, attributes, Binding.activeCode?_canonical,
      bindingAttribute_canonical, ih]

theorem directiveText_canonicalOwn (settings : Settings) (node : Node) :
    directiveText settings node.canonicalOwn = directiveText settings node := by
  have activates : (node.canonicalOwn.bindings.toList.any fun pair => activates pair.1 pair.2) =
      node.bindings.toList.any fun pair => activates pair.1 pair.2 := by
    show ((node.bindings.mapValues Binding.canonical).toList.any _) = _
    simp [List.any_map, Function.comp_def, Markup.activates]
  rw [directiveText_eq, directiveText_eq, activates]

theorem opening_canonicalOwn (settings : Settings) (node : Node) :
    opening settings node.canonicalOwn = opening settings node := by
  have bound : attributes node.canonicalOwn.name node.canonicalOwn.bindings.toList =
      attributes node.name node.bindings.toList :=
    attributes_canonical node.name node.bindings.toList
  rw [opening, classAttribute_canonicalOwn, directiveText_canonicalOwn, bound]
  rfl

/-- A node whose kind is up to date looks like its canonical form. -/
theorem alike_canonicalOwn (settings : Settings) {node : Node} (settled : node.IsSettled) :
    Alike settings settings node.canonicalOwn node where
  kind := node.freshKind_canonicalOwn.trans settled.symm
  name := rfl
  blank := rfl
  literal := rfl
  dynamic := dynamicText_canonicalOwn node
  head := by
    simp only [repetitionHead, slotCode_canonicalOwn]
    rfl
  condition := slotCode_canonicalOwn node "when"
  opening := opening_canonicalOwn settings node
  inner := node.activeCode?_canonicalOwn "innerHTML"

/-- The markup of a forest without internal annotations is that of its canonical form. -/
theorem renderChildren_canonical (settings : Settings) (nodes : List Node) :
    renderChildren settings (mapNodes Node.stripOwn (mapNodes Node.canonicalOwn nodes)) =
      renderChildren settings (mapNodes Node.stripOwn nodes) := by
  rw [mapNodes_mapNodes Node.isOwn_canonicalOwn Node.isOwn_stripOwn]
  refine renderChildren_mapNodes_congr (Node.isOwn_stripOwn.comp Node.isOwn_canonicalOwn)
    Node.isOwn_stripOwn nodes fun node _ => ?_
  rw [Function.comp_apply, Node.stripOwn_canonicalOwn]
  exact alike_canonicalOwn settings rfl

end Markup

/-! ### The page of a canonical component -/

namespace Page

/-- What is found out about a component is the same for its canonical form. -/
theorem prepare_canonical (component : Component) :
    prepare component.canonical = prepare component := by
  have stem : stylePrefix component.canonical = stylePrefix component := by
    rw [stylePrefix, component.encode_canonical, stylePrefix]
  rw [prepare, analyze_canonical, Findings.of, component.propNames_canonical,
    component.refs_canonical, stem]
  rfl

theorem propLine_canonical (component : Component) :
    propLine component.canonical = propLine component := by
  funext name
  have type : nonempty? (component.canonical.props.get? name).join =
      nonempty? (component.props.get? name).join := by
    have found : component.canonical.props.get? name =
        (component.props.get? name).map nonempty? :=
      Dictionary.get?_mapValues component.props nonempty? name
    rw [found]
    rcases component.props.get? name with _ | _ | text <;> simp [nonempty?, Option.filter_filter]
  simp only [propLine, type]

theorem propsPart_canonical (typed : Bool) (component : Component) (propNames refs : List String) :
    propsPart typed component.canonical propNames refs =
      propsPart typed component propNames refs := by
  have empty : component.canonical.props.isEmpty = component.props.isEmpty := List.isEmpty_map
  rw [propsPart, propsContainer, propLine_canonical, empty]
  rfl

theorem initPart_canonical (component : Component) :
    initPart component.canonical = initPart component := by
  have hooks : component.canonical.hooks.onInit = component.hooks.onInit.map Hook.canonical := rfl
  rw [initPart, hooks, initPart]
  cases component.hooks.onInit with
  | none => rfl
  | some hook =>
    by_cases blank : hook.code.isEmpty <;>
      simp [Option.filter, Hook.canonical, blank]

/-- The setup section of a component is that of its canonical form. -/
theorem setup_canonical (options : Options) (findings : Findings) (component : Component) :
    setup options findings component.canonical = setup options findings component := by
  rw [setup, initPart_canonical, propsPart_canonical]
  rfl

theorem hookStatements_map {change : Hook → Hook} (same : ∀ hook, (change hook).code = hook.code)
    (hooks : List Hook) : hookStatements (hooks.map change) = hookStatements hooks := by
  induction hooks with
  | nil => rfl
  | cons hook rest ih => simp only [List.map_cons, hookStatements, hookStatement, same, ih]

theorem hookPart_map {change : Hook → Hook} (same : ∀ hook, (change hook).code = hook.code)
    (comment : String) (hooks : List Hook) :
    hookPart comment (hooks.map change) = hookPart comment hooks := by
  rw [hookPart, hookStatements_map same, List.isEmpty_map, hookPart]

/-- The script of hooks does not depend on their dependencies. -/
theorem clientScript_canonical (hooks : Hooks) : clientScript hooks.canonical = clientScript hooks := by
  have updates : hooks.canonical.onUpdate.getD [] =
      (hooks.onUpdate.getD []).map Hook.canonicalUpdate := by
    rw [Hooks.canonical]
    cases hooks.onUpdate <;> rfl
  have mounts : hooks.canonical.onMount = hooks.onMount.map Hook.canonical := rfl
  rw [clientScript, mounts, updates, hookPart_map Hook.code_canonical,
    hookPart_map Hook.code_canonicalUpdate, clientScript]

/-- The draft of a component is that of its canonical form. -/
theorem draft_canonical (options : Options) (prepared : Prepared) (component : Component) :
    draft options prepared component.canonical.strip = draft options prepared component.strip := by
  have opened : setup options prepared.findings component.canonical.strip =
      setup options prepared.findings component.strip :=
    setup_canonical options prepared.findings component
  have script : scriptOf prepared component.canonical.strip.hooks =
      scriptOf prepared component.strip.hooks := by
    unfold scriptOf
    rw [← clientScript_canonical component.strip.hooks]
    rfl
  have markup (settings : Markup.Settings) :
      markup settings component.canonical.strip = markup settings component.strip := by
    have nodes : Markup.renderChildren settings component.canonical.strip.children =
        Markup.renderChildren settings component.strip.children :=
      Markup.renderChildren_canonical settings component.children
    simp only [Page.markup, nodes]
  rw [draft, opened, script, markup]
  rfl

/-- A compilation without plugins gives the same result, with the same trail, for a component and for
its canonical form. -/
theorem compile_canonical {options : Options} (plain : options.plugins = []) (component : Component) :
    compile options component.canonical = compile options component := by
  have finished : finish options (prepare component) component.canonical.strip =
      finish options (prepare component) component.strip := by
    funext drafted
    simp only [finish, plain, Plugin.runCode]
    rfl
  rw [compile_of_plain plain, compile_of_plain plain, prepare_canonical, draft_canonical, finished]

/-- A component with a text, and with a choice that is stored as the value of embedded code. -/
def mislabelled : Component where
  name := "Label"
  children :=
    [⟨"p", Dictionary.ofList [(textKey, "Hello")], ∅, [], none, ∅, ∅, .text⟩,
      ⟨"Show", ∅, ∅, [], none, ∅, ∅, .dynamicText⟩]

/-- A plugin that takes the texts away from the nodes that are stored as texts. -/
def eraser : Plugin where
  name := "eraser"
  preJson := some fun component => .ok (component.mapNodes (Node.delete textKey))

/-- The document of a component that was read from a document can be read again. What is read again
has the same document, member by member, and is compiled to the same page with the same trail. -/
theorem compile_of_reloaded {document : Json} {component : Component}
    (loaded : loadComponent document = .ok component) :
    ∃ again, loadComponent component.encode = .ok again ∧
      again.encode = component.encode ∧
      ∀ options : Options, options.plugins = [] →
        compile options again = compile options component := by
  have storable : component.IsStorable := by
    unfold loadComponent at loaded
    cases read : Component.decode document with
    | error error =>
      rw [read] at loaded
      cases loaded
    | ok other =>
      rw [read] at loaded
      cases loaded
      exact Component.storable_of_decode read
  refine ⟨component.canonical, ?_, component.encode_canonical, fun options plain =>
    compile_canonical plain component⟩
  rw [loadComponent, Component.decode_encode storable]
  rfl

/-- A document of which some is left out when it is written again: the dependencies of the first
hook, an empty type, and an empty list of parameters. -/
def notice : Json :=
  .object
    [("name", .string "Notice"), ("props", .object [("title", .object [("type", .string "")])]),
      ("hooks", .object
        [("onInit", .object [("code", .string "start()"), ("deps", .string "[id]")]),
          ("onMount", .object [])]),
      ("children", .array [.object
        [("name", .string "Show"),
          ("bindings", .object
            [("when", .object [("code", .string "props.title"), ("arguments", .array [])])]),
          ("meta", .object [("else", .object [("name", .string "p")])])]])]

theorem compile_notice : ∃ component, loadComponent notice = .ok component ∧
    component.hooks.onInit = some ⟨"start()", some "[id]"⟩ ∧
    ∃ again, loadComponent component.encode = .ok again ∧ again.encode = component.encode ∧
      ∀ options : Options, options.plugins = [] →
        compile options again = compile options component :=
  ⟨_, rfl, rfl, compile_of_reloaded (show loadComponent notice = .ok _ from rfl)⟩

end Page

end ComponentCompiler
