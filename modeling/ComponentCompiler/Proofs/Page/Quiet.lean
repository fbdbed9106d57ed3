import ComponentCompiler.Proofs.Page.Draft

/-!
# The parts of a compilation that call no hooks

Hooks of plugins are called at four stages of a compilation. What happens between the stages leaves
warnings and style objects in the trail of the run, and never a call of a hook: neither making the
setup section, the markup, the script and the rules, nor tidying the page. This holds whether or not
these parts yield a result.

## Main definitions

* `Run.IsQuiet` — a run calls no hooks

## Main results

* `Markup.quiet_render` — rendering calls no hooks
* `Page.quiet_draft`, `Page.quiet_tidied` — nor does making or tidying a page
-/

namespace ComponentCompiler

namespace Run

variable {α β : Type}

theorem hooks_bind_ok {run : Run α} {result : α} (ok : run.outcome = .ok result)
    (next : α → Run β) : (run >>= next).hooks = run.hooks ++ (next result).hooks := by
  simp [hooks, events_bind_ok ok]

theorem hooks_bind_error {run : Run α} {failure : Failure} (failed : run.outcome = .error failure)
    (next : α → Run β) : (run >>= next).hooks = run.hooks := by
  simp [hooks, events_bind_error failed]

/-- A run calls no hooks. -/
def IsQuiet (run : Run α) : Prop :=
  run.hooks = []

theorem quiet_pure (result : α) : (pure result : Run α).IsQuiet := rfl

/-- Two runs in a row call no hooks if neither does. -/
theorem IsQuiet.bind {run : Run α} {next : α → Run β} (first : run.IsQuiet)
    (second : ∀ result, (next result).IsQuiet) : (run >>= next).IsQuiet := by
  unfold IsQuiet at *
  cases yielded : run.outcome with
  | error failure => rw [hooks_bind_error yielded, first]
  | ok result => rw [hooks_bind_ok yielded, first, second result, List.append_nil]

/-- What is made of the result of a run calls no further hooks. -/
theorem IsQuiet.returning {run : Run α} (quiet : run.IsQuiet) (f : α → β) :
    (do return f (← run) : Run β).IsQuiet :=
  quiet.bind fun _ => quiet_pure _

theorem quiet_embedCode (context : Context) (code : Option String) :
    (embedCode context code).IsQuiet := by
  unfold embedCode
  dsimp only
  split <;> rfl

end Run

/-! ### Markup -/

namespace Markup

theorem quiet_boundClasses (node : Node) (keys : List String) :
    (boundClasses node keys).IsQuiet := by
  induction keys with
  | nil => exact Run.quiet_pure _
  | cons key rest ih =>
    unfold boundClasses
    split
    · exact ih
    · exact (Run.quiet_embedCode _ _).bind fun _ => ih.returning _

theorem quiet_classAttribute (node : Node) : (classAttribute node).IsQuiet := by
  have styled : (styleClass node).IsQuiet := by
    unfold styleClass
    split <;> rfl
  exact (quiet_boundClasses node classKeys).bind fun _ => styled.returning _

theorem quiet_bindingAttribute (name key : String) (binding : Binding) (code : String) :
    (bindingAttribute name key binding code).IsQuiet := by
  have embedded := Run.quiet_embedCode .markup (some code)
  unfold bindingAttribute
  split_ifs
  · exact embedded.returning _
  · exact Run.quiet_pure _
  · exact embedded.returning _
  · exact embedded.returning _
  · exact embedded.returning _

theorem quiet_attributes (name : String) (bindings : List (String × Binding)) :
    (attributes name bindings).IsQuiet := by
  induction bindings with
  | nil => exact Run.quiet_pure _
  | cons pair rest ih =>
    obtain ⟨key, binding⟩ := pair
    unfold attributes
    split
    · exact ih
    · split
      · exact ih
      · exact (quiet_bindingAttribute name key binding _).bind fun _ => ih.returning _

theorem quiet_opening (settings : Settings) (node : Node) : (opening settings node).IsQuiet :=
  (quiet_classAttribute node).bind fun _ =>
    (quiet_attributes node.name node.bindings.toList).returning _

theorem quiet_renderAll (settings : Settings) {nodes : List Node}
    (each : ∀ node ∈ nodes, (render settings node).IsQuiet) :
    (renderAll settings nodes).IsQuiet := by
  induction nodes with
  | nil => exact Run.quiet_pure _
  | cons node rest ih =>
    have later := ih fun other member => each other (List.mem_cons_of_mem _ member)
    unfold renderAll
    split
    · exact later
    · exact (each node List.mem_cons_self).bind fun _ => later.returning _

/-- Rendering calls no hooks, also if it fails. -/
theorem quiet_render (settings : Settings) (node : Node) : (render settings node).IsQuiet := by
  induction node using Node.induct with
  | step node inChildren inAlternative =>
    have body : (renderChildren settings node.children).IsQuiet :=
      (quiet_renderAll settings inChildren).returning _
    have beside : (renderOther settings node.alternative).IsQuiet := by
      cases held : node.alternative with
      | none => exact Run.quiet_pure _
      | some other => exact inAlternative other held
    rw [render_eq]
    cases node.kind with
    | text =>
      show (literalText node).IsQuiet
      unfold literalText
      split <;> rfl
    | dynamicText =>
      show (dynamicText node).IsQuiet
      unfold dynamicText
      split
      · exact (Run.quiet_embedCode _ _).returning _
      · rfl
    | fragment => exact body
    | repetition =>
      have head : (repetitionHead node).IsQuiet := (Run.quiet_embedCode _ _).returning _
      exact head.bind fun _ => body.returning _
    | choice =>
      exact (Run.quiet_embedCode _ _).bind fun _ => body.bind fun _ => beside.returning _
    | element =>
      refine (quiet_opening settings node).bind fun start => ?_
      split
      · exact Run.quiet_pure _
      · refine Run.IsQuiet.returning ?_ _
        unfold elementBody
        split
        · exact (Run.quiet_embedCode _ _).returning _
        · exact body

theorem quiet_renderChildren (settings : Settings) (nodes : List Node) :
    (renderChildren settings nodes).IsQuiet :=
  (quiet_renderAll settings fun node _ => quiet_render settings node).returning _

end Markup

/-! ### The other parts of a page -/

namespace Page

theorem quiet_stateDeclaration (key : String) (entry : StateEntry) :
    (stateDeclaration key entry).IsQuiet := by
  unfold stateDeclaration
  split
  · exact Run.quiet_pure _
  · exact (Run.quiet_embedCode _ _).returning _
  · exact Run.quiet_pure _

theorem quiet_stateDeclarations (entries : List (String × StateEntry)) :
    (stateDeclarations entries).IsQuiet := by
  induction entries with
  | nil => exact Run.quiet_pure _
  | cons pair rest ih => exact (quiet_stateDeclaration _ _).bind fun _ => ih.returning _

theorem quiet_setup (options : Options) (findings : Findings) (component : Component) :
    (setup options findings component).IsQuiet := by
  have stateLines : ((fun text => [text]) <$> statePart component).IsQuiet :=
    ((quiet_stateDeclarations component.state.toList).returning _).returning _
  have initLines : (initPart component).IsQuiet := by
    unfold initPart
    split
    · exact Run.quiet_pure _
    · exact (Run.quiet_embedCode _ _).returning _
  unfold setup
  dsimp only
  split
  · exact stateLines.bind fun _ => initLines.returning _
  · exact (Run.quiet_pure []).bind fun _ => initLines.returning _

theorem quiet_hookStatements (hooks : List Hook) : (hookStatements hooks).IsQuiet := by
  induction hooks with
  | nil => exact Run.quiet_pure _
  | cons hook rest ih =>
    exact ((Run.quiet_embedCode _ _).returning _).bind fun _ => ih.returning _

theorem quiet_hookPart (comment : String) (hooks : List Hook) : (hookPart comment hooks).IsQuiet := by
  unfold hookPart
  split
  · exact Run.quiet_pure _
  · exact (quiet_hookStatements hooks).returning _

theorem quiet_scriptOf (prepared : Prepared) (hooks : Hooks) : (scriptOf prepared hooks).IsQuiet := by
  unfold scriptOf
  split
  · exact (quiet_hookPart _ _).bind fun _ => (quiet_hookPart _ _).returning _
  · exact Run.quiet_pure _

theorem quiet_rulesOf (entries : List (String × String)) : (Style.rulesOf entries).IsQuiet := by
  induction entries with
  | nil => exact Run.quiet_pure _
  | cons entry rest ih =>
    have rule : (Style.rule entry.1 entry.2).IsQuiet := by
      unfold Style.rule
      split <;> rfl
    exact rule.bind fun _ => ih.returning _

/-- Making the untidied page of a component calls no hooks. -/
theorem quiet_draft (options : Options) (prepared : Prepared) (component : Component) :
    (draft options prepared component).IsQuiet :=
  (quiet_setup options _ component).bind fun _ =>
    ((Markup.quiet_renderChildren _ component.children).returning _).bind fun _ =>
      (quiet_scriptOf prepared component.hooks).bind fun _ =>
        ((quiet_rulesOf _).returning _).returning _

/-- Tidying a page calls no hooks. -/
theorem quiet_tidied (options : Options) (component : Component) (page : String) :
    (tidied options component page).IsQuiet := by
  unfold tidied
  split
  · exact Run.quiet_pure _
  · split <;> rfl

end Page

end ComponentCompiler
