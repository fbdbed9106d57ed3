import ComponentCompiler.Proofs.Markup.StyleTrail
import ComponentCompiler.Proofs.Page.LocalNames

/-!
# The stages of a compilation

Between the second and the third stage of plugins a component without internal annotations becomes
an untidied page. This part of a compilation never fails: embedding code mends what it cannot read,
and once all kinds are up to date no node is rendered as a text that it does not have. So a
compilation fails only if a plugin gives up.

## Main definitions

* `Page.draft` — the untidied page of a component, with its style objects
* `Page.finish` — the last stages of plugins, with the tidying between them
* `Plugin.IsTotal` — no hook of a plugin gives up

## Main results

* `Page.compile_eq` — a compilation stage by stage
* `Page.yields_draft` — a draft can always be made if all kinds are up to date
* `Page.exists_parts_of_draft` — the parts that a draft is assembled from
* `Page.yields_compile` — a compilation with plugins that do not give up yields a page
* `Page.outcome_compile_of_plain` — the result of a compilation without plugins
-/

namespace ComponentCompiler

/-! ### Plugins that do not give up -/

namespace Plugin

/-- No hook of the plugin gives up, whatever it is given. -/
structure IsTotal (plugin : Plugin) : Prop where
  json : ∀ stage hook, plugin.jsonHook? stage = some hook →
    ∀ component, ∃ changed, hook component = .ok changed
  code : ∀ stage hook, plugin.codeHook? stage = some hook →
    ∀ component page, ∃ changed, hook component page = .ok changed

variable {plugins : List Plugin}

theorem yields_runJson (total : ∀ plugin ∈ plugins, plugin.IsTotal) (stage : Stage)
    (component : Component) : (runJson stage plugins component).Yields := by
  induction plugins generalizing component with
  | nil => exact Run.yields_pure component
  | cons plugin rest ih =>
    have later := ih fun other member => total other (List.mem_cons_of_mem _ member)
    unfold runJson
    split
    · exact later component
    · next hook present =>
      obtain ⟨changed, yields⟩ :=
        (total plugin List.mem_cons_self).json stage hook present component
      refine Run.Yields.bind ⟨(), rfl⟩ fun _ => Run.Yields.bind ?_ later
      exact ⟨changed, yields⟩

theorem yields_runCode (total : ∀ plugin ∈ plugins, plugin.IsTotal) (stage : Stage)
    (component : Component) (page : String) : (runCode stage component plugins page).Yields := by
  induction plugins generalizing page with
  | nil => exact Run.yields_pure page
  | cons plugin rest ih =>
    have later := ih fun other member => total other (List.mem_cons_of_mem _ member)
    unfold runCode
    split
    · exact later page
    · next hook present =>
      obtain ⟨changed, yields⟩ :=
        (total plugin List.mem_cons_self).code stage hook present component page
      refine Run.Yields.bind ⟨(), rfl⟩ fun _ => Run.Yields.bind ?_ later
      exact ⟨changed, yields⟩

end Plugin

namespace Page

/-! ### Stages -/

/-- The directive on the live elements of a page: the one that is asked for, or else the one that
the analysis suggests. -/
def directiveOf (options : Options) (prepared : Prepared) : String :=
  options.directive?.getD prepared.hydration.directive

/-- What the markup of a page depends on besides its nodes. -/
def settingsOf (options : Options) (prepared : Prepared) (component : Component) :
    Markup.Settings where
  directive := some (directiveOf options prepared)
  scopeAttribute := confinement prepared component

/-- The script for the browser, which has no place on a page that is never made live. -/
def scriptOf (prepared : Prepared) (hooks : Hooks) : Run String :=
  if prepared.hydration.needed then clientScript hooks else pure ""

/-- The untidied page of a component, with the style objects that it needs. -/
def draft (options : Options) (prepared : Prepared) (component : Component) :
    Run (String × Style.Collection) := do
  let setup ← setup options prepared.findings component
  let (markup, styles) ← markup (settingsOf options prepared component) component
  let script ← scriptOf prepared component.hooks
  let rules ← Style.rules styles
  return (assemble setup markup script (styleElement prepared.sheet rules), styles)

/-- The last two stages of plugins, with the tidying of the page between them. -/
def finish (options : Options) (prepared : Prepared) (component : Component)
    (drafted : String × Style.Collection) : Run Compilation := do
  let page ← Plugin.runCode .preCode component options.plugins drafted.1
  let page ← tidied options component page
  let page ← Plugin.runCode .postCode component options.plugins page
  return {
    code := page
    hydration := prepared.hydration
    directive := directiveOf options prepared
    stylePrefix := prepared.stem
    styles := drafted.2
    format := options.format }

/-- A compilation stage by stage. -/
theorem compile_eq (options : Options) (component : Component) :
    compile options component = (do
      let first ← Plugin.runJson .preJson options.plugins component
      let second ← Plugin.runJson .postJson options.plugins first
      let drafted ← draft options (prepare first) second.strip
      finish options (prepare first) second.strip drafted) := by
  simp only [compile, draft, finish, scriptOf, settingsOf, directiveOf, bind_assoc, pure_bind]
  -- The two agree up to the script, whose place in the order depends on whether there is one.
  refine bind_congr fun first => bind_congr fun second => bind_congr fun setup =>
    bind_congr fun markup => ?_
  cases (prepare first).hydration.needed
  · exact (pure_bind _ _).symm
  · rfl

/-- Without plugins a component is drafted as it was given. -/
theorem compile_of_plain {options : Options} (plain : options.plugins = []) (component : Component) :
    compile options component = (do
      let drafted ← draft options (prepare component) component.strip
      finish options (prepare component) component.strip drafted) := by
  rw [compile_eq, plain]
  rfl

/-! ### Stages that never fail -/

theorem yields_setup (options : Options) (findings : Findings) (component : Component) :
    (setup options findings component).Yields := by
  obtain ⟨stateText, stateWritten, -⟩ := outcome_statePart component
  have stateLines : ((fun text => [text]) <$> statePart component).Yields :=
    ⟨_, Run.outcome_map_ok stateWritten _⟩
  have initLines : (initPart component).Yields := outcome_initPart component
  unfold setup
  dsimp only
  split
  · exact stateLines.bind fun _ => initLines.bind fun _ => Run.yields_pure _
  · exact (Run.yields_pure []).bind fun _ => initLines.bind fun _ => Run.yields_pure _

theorem yields_hookStatements (hooks : List Hook) : (hookStatements hooks).Yields := by
  induction hooks with
  | nil => exact Run.yields_pure _
  | cons hook rest ih =>
    exact ((Run.yields_embedCode _ _).bind fun _ => Run.yields_pure _).bind fun _ =>
      ih.bind fun _ => Run.yields_pure _

theorem yields_hookPart (comment : String) (hooks : List Hook) : (hookPart comment hooks).Yields := by
  unfold hookPart
  split
  · exact Run.yields_pure _
  · exact (yields_hookStatements hooks).bind fun _ => Run.yields_pure _

theorem yields_scriptOf (prepared : Prepared) (hooks : Hooks) : (scriptOf prepared hooks).Yields := by
  unfold scriptOf
  split
  · exact (yields_hookPart _ _).bind fun _ => (yields_hookPart _ _).bind fun _ => Run.yields_pure _
  · exact Run.yields_pure _

theorem yields_rulesOf (entries : List (String × String)) : (Style.rulesOf entries).Yields := by
  induction entries with
  | nil => exact Run.yields_pure _
  | cons entry rest ih =>
    have rule : (Style.rule entry.1 entry.2).Yields := by
      unfold Style.rule
      split <;> exact ⟨_, rfl⟩
    exact rule.bind fun _ => ih.bind fun _ => Run.yields_pure _

/-- Tidying a page never fails: a page that cannot be tidied stays as it is. -/
theorem yields_tidied (options : Options) (component : Component) (page : String) :
    (tidied options component page).Yields := by
  unfold tidied
  split
  · exact Run.yields_pure _
  · split <;> exact ⟨_, rfl⟩

/-- A component whose kinds are up to date has markup. -/
theorem yields_markup (settings : Markup.Settings) {component : Component}
    (settled : ∀ node ∈ component.nodes, node.IsSettled) : (markup settings component).Yields := by
  obtain ⟨⟨text, yields⟩, -⟩ := Markup.meets_renderChildren settings settled
  exact ⟨_, Run.outcome_map_ok yields _⟩

/-- A component whose kinds are up to date has a draft. -/
theorem yields_draft (options : Options) (prepared : Prepared) {component : Component}
    (settled : ∀ node ∈ component.nodes, node.IsSettled) :
    (draft options prepared component).Yields :=
  (yields_setup options _ component).bind fun _ =>
    (yields_markup _ settled).bind fun _ =>
      (yields_scriptOf prepared component.hooks).bind fun _ =>
        Run.Yields.bind ((yields_rulesOf _).bind fun _ => Run.yields_pure _) fun _ =>
          Run.yields_pure _

/-- An untidied page is assembled from its parts, of which the first one is the setup section. -/
theorem exists_parts_of_draft {options : Options} {prepared : Prepared} {component : Component}
    {drafted : String × Style.Collection}
    (made : (draft options prepared component).outcome = .ok drafted) :
    ∃ written text script style,
      (setup options prepared.findings component).outcome = .ok written ∧
      (Markup.renderChildren (settingsOf options prepared component) component.children).outcome =
        .ok text ∧
      drafted.1 = assemble written text script style := by
  unfold draft at made
  obtain ⟨written, setupWritten, made, -⟩ := Run.exists_of_bind_ok made
  obtain ⟨rendered, marked, made, -⟩ := Run.exists_of_bind_ok made
  obtain ⟨script, -, made, -⟩ := Run.exists_of_bind_ok made
  obtain ⟨rules, -, made, -⟩ := Run.exists_of_bind_ok made
  rw [Run.outcome_pure] at made
  obtain rfl := Except.ok.inj made
  unfold markup at marked
  rw [map_eq_pure_bind] at marked
  obtain ⟨text, textRendered, marked, -⟩ := Run.exists_of_bind_ok marked
  rw [Run.outcome_pure] at marked
  obtain rfl := Except.ok.inj marked
  exact ⟨written, text, script, _, setupWritten, textRendered, rfl⟩

/-- A compilation with plugins that do not give up yields a page, whatever kinds are stored in the
nodes: removing the internal annotations brings them up to date. -/
theorem yields_compile {options : Options} (total : ∀ plugin ∈ options.plugins, plugin.IsTotal)
    (component : Component) : (compile options component).Yields := by
  rw [compile_eq]
  refine (Plugin.yields_runJson total _ _).bind fun first =>
    (Plugin.yields_runJson total _ _).bind fun second =>
      (yields_draft options _ (settled_strip second)).bind fun drafted => ?_
  exact (Plugin.yields_runCode total _ _ _).bind fun _ => (yields_tidied _ _ _).bind fun _ =>
    (Plugin.yields_runCode total _ _ _).bind fun _ => Run.yields_pure _

/-- The result of a compilation without plugins: its draft, tidied. -/
theorem outcome_compile_of_plain {options : Options} (plain : options.plugins = [])
    (component : Component) :
    ∃ drafted page,
      (draft options (prepare component) component.strip).outcome = .ok drafted ∧
      (tidied options component.strip drafted.1).outcome = .ok page ∧
      (compile options component).outcome = .ok {
        code := page
        hydration := analyze component
        directive := directiveOf options (prepare component)
        stylePrefix := stylePrefix component
        styles := drafted.2
        format := options.format } := by
  obtain ⟨drafted, draftMade⟩ :=
    yields_draft options (prepare component) (settled_strip component)
  obtain ⟨page, pageTidied⟩ := yields_tidied options component.strip drafted.1
  refine ⟨drafted, page, draftMade, pageTidied, ?_⟩
  rw [compile_of_plain plain, Run.outcome_bind_ok draftMade]
  simp only [finish, plain, Plugin.runCode, pure_bind]
  rw [Run.outcome_bind_ok pageTidied]
  rfl

end Page

end ComponentCompiler
