import ComponentCompiler.Proofs.Page.Quiet

/-!
# The schedule of hooks

A compilation calls the hooks of the plugins stage by stage, and at each stage in the order of the
plugins; a plugin without a hook at a stage is passed over. The first hook of the first stage is
given the component, and every other hook what the one before it made. Between the stages the
component is analysed, loses its internal annotations and becomes a page, and the page is tidied.
Only a hook can stop a compilation: the hooks that were called are then those up to the one that
gave up, and its failure is the failure of the compilation.

## Main definitions

* `Plugin.Passed`, `Plugin.Stopped` — hooks in a row that all make something, and hooks in a row of
  which the last one gives up
* `Plugin.schedule` — the hooks of all stages, in order
* `Page.Course` — the ways in which a compilation can go

## Main results

* `Plugin.callAll_of_passed`, `Plugin.callAll_of_stopped` — what calling hooks in a row does
* `Page.compile_course_iff` — a compilation has one course, which it follows
-/

namespace ComponentCompiler

namespace Run

variable {α β : Type}

/-- A run calls the given hooks and has the given outcome. -/
structure Goes (run : Run α) (called : List (Stage × String)) (outcome : Except Failure α) :
    Prop where
  hooks : run.hooks = called
  outcome : run.outcome = outcome

theorem goes_pure (result : α) : (pure result : Run α).Goes [] (.ok result) :=
  ⟨rfl, rfl⟩

/-- After a run that yields a result the next one goes on. -/
theorem Goes.bind {run : Run α} {next : α → Run β} {called later : List (Stage × String)}
    {result : α} {outcome : Except Failure β} (first : run.Goes called (.ok result))
    (second : (next result).Goes later outcome) : (run >>= next).Goes (called ++ later) outcome where
  hooks := by rw [hooks_bind_ok first.outcome, first.hooks, second.hooks]
  outcome := by rw [outcome_bind_ok first.outcome, second.outcome]

/-- After a run that fails nothing goes on. -/
theorem Goes.stop {run : Run α} {called : List (Stage × String)} {failure : Failure}
    (first : run.Goes called (.error failure)) (next : α → Run β) :
    (run >>= next).Goes called (.error failure) where
  hooks := by rw [hooks_bind_error first.outcome, first.hooks]
  outcome := by rw [bind_error first.outcome]

/-- What is made of the result of a run calls no further hooks. -/
theorem Goes.returning {run : Run α} {called : List (Stage × String)} {result : α}
    (goes : run.Goes called (.ok result)) (f : α → β) :
    (do return f (← run) : Run β).Goes called (.ok (f result)) := by
  rw [← List.append_nil called]
  exact goes.bind (goes_pure (f result))

/-- A run that calls no hooks only contributes its result. -/
theorem IsQuiet.bind_goes {run : Run α} {next : α → Run β} {called : List (Stage × String)}
    {result : α} {outcome : Except Failure β} (quiet : run.IsQuiet) (ok : run.outcome = .ok result)
    (second : (next result).Goes called outcome) : (run >>= next).Goes called outcome :=
  Goes.bind ⟨quiet, ok⟩ second

end Run

namespace Plugin

/-! ### Hooks in a row -/

/-- A hook with the name of its plugin. -/
structure Call (σ : Type) where
  plugin : String
  hook : σ → Except Failure σ

variable {σ : Type}

/-- Hooks in a row that all make something: each is given what the one before it made. -/
inductive Passed : List (Call σ) → σ → σ → Prop
  | nil (given : σ) : Passed [] given given
  | cons {call : Call σ} {rest : List (Call σ)} {given made last : σ}
      (makes : call.hook given = .ok made) (goesOn : Passed rest made last) :
      Passed (call :: rest) given last

/-- Hooks in a row of which the last one gives up, after each of the others made what the next one
is given. -/
inductive Stopped : List (Call σ) → σ → Failure → Prop
  | here {call : Call σ} {given : σ} {failure : Failure}
      (givesUp : call.hook given = .error failure) : Stopped [call] given failure
  | later {call : Call σ} {rest : List (Call σ)} {given made : σ} {failure : Failure}
      (makes : call.hook given = .ok made) (goesOn : Stopped rest made failure) :
      Stopped (call :: rest) given failure

/-- Hooks in a row all make something, or the first ones of them end with one that gives up. -/
theorem passed_or_stopped (calls : List (Call σ)) (given : σ) :
    (∃ last, Passed calls given last) ∨
      ∃ made rest failure, calls = made ++ rest ∧ Stopped made given failure := by
  induction calls generalizing given with
  | nil => exact .inl ⟨given, .nil given⟩
  | cons call rest ih =>
    cases called : call.hook given with
    | error failure => exact .inr ⟨[call], rest, failure, rfl, .here called⟩
    | ok next =>
      rcases ih next with ⟨last, passed⟩ | ⟨made, others, failure, rfl, stopped⟩
      · exact .inl ⟨last, .cons called passed⟩
      · exact .inr ⟨call :: made, others, failure, rfl, .later called stopped⟩

/-- Calls hooks in a row. -/
def callAll (stage : Stage) : List (Call σ) → σ → Run σ
  | [], given => pure given
  | call :: rest, given => do
    Run.emit (.hook stage call.plugin)
    let made ← Run.ofExcept (call.hook given)
    callAll stage rest made

/-- The stage and the plugins of hooks. -/
def labels (stage : Stage) (calls : List (Call σ)) : List (Stage × String) :=
  calls.map fun call => (stage, call.plugin)

@[simp] theorem labels_append (stage : Stage) (front back : List (Call σ)) :
    labels stage (front ++ back) = labels stage front ++ labels stage back :=
  List.map_append

/-- A hook that makes something is called, and the others go on from what it made. -/
theorem callAll_cons_of_ok {stage : Stage} {call : Call σ} {rest : List (Call σ)} {given made : σ}
    {called : List (Stage × String)} {outcome : Except Failure σ}
    (makes : call.hook given = .ok made) (goesOn : (callAll stage rest made).Goes called outcome) :
    (callAll stage (call :: rest) given).Goes ((stage, call.plugin) :: called) outcome := by
  have announced : (Run.emit (.hook stage call.plugin)).Goes [(stage, call.plugin)] (.ok ()) :=
    ⟨rfl, rfl⟩
  have made : (Run.ofExcept (call.hook given)).Goes [] (.ok made) := ⟨rfl, makes⟩
  exact announced.bind (made.bind goesOn)

theorem callAll_of_passed (stage : Stage) {calls : List (Call σ)} {given last : σ}
    (passed : Passed calls given last) :
    (callAll stage calls given).Goes (labels stage calls) (.ok last) := by
  induction passed with
  | nil given => exact Run.goes_pure given
  | cons makes _ ih => exact callAll_cons_of_ok makes ih

/-- After a hook gave up no other hook is called. -/
theorem callAll_of_stopped (stage : Stage) {called : List (Call σ)} {given : σ} {failure : Failure}
    (stopped : Stopped called given failure) (rest : List (Call σ)) :
    (callAll stage (called ++ rest) given).Goes (labels stage called) (.error failure) := by
  induction stopped with
  | @here call given failure givesUp =>
    have announced : (Run.emit (.hook stage call.plugin)).Goes [(stage, call.plugin)] (.ok ()) :=
      ⟨rfl, rfl⟩
    have failed : (Run.ofExcept (call.hook given)).Goes [] (.error failure) := ⟨rfl, givesUp⟩
    exact announced.bind (failed.stop _)
  | later makes _ ih => exact callAll_cons_of_ok makes ih

/-! ### The hooks of a stage -/

/-- The hooks that change the component at a stage, in the order of the plugins. -/
def jsonCalls (stage : Stage) (plugins : List Plugin) : List (Call Component) :=
  plugins.filterMap fun plugin => (plugin.jsonHook? stage).map (⟨plugin.name, ·⟩)

/-- The hooks that change the text of the page of a component at a stage, in the order of the
plugins. -/
def codeCalls (stage : Stage) (component : Component) (plugins : List Plugin) :
    List (Call String) :=
  plugins.filterMap fun plugin =>
    (plugin.codeHook? stage).map fun hook => ⟨plugin.name, hook component⟩

theorem runJson_eq_callAll (stage : Stage) (plugins : List Plugin) (component : Component) :
    runJson stage plugins component = callAll stage (jsonCalls stage plugins) component := by
  induction plugins generalizing component with
  | nil => rfl
  | cons plugin rest ih =>
    cases held : plugin.jsonHook? stage with
    | none => simpa only [runJson, jsonCalls, held, List.filterMap_cons, Option.map_none] using ih component
    | some hook =>
      simp only [runJson, jsonCalls, held, List.filterMap_cons, Option.map_some, callAll, ih]

theorem runCode_eq_callAll (stage : Stage) (component : Component) (plugins : List Plugin)
    (page : String) :
    runCode stage component plugins page =
      callAll stage (codeCalls stage component plugins) page := by
  induction plugins generalizing page with
  | nil => rfl
  | cons plugin rest ih =>
    cases held : plugin.codeHook? stage with
    | none => simpa only [runCode, codeCalls, held, List.filterMap_cons, Option.map_none] using ih page
    | some hook =>
      simp only [runCode, codeCalls, held, List.filterMap_cons, Option.map_some, callAll, ih]

/-- Whether a plugin has a hook at a stage. -/
def takesPart (stage : Stage) (plugin : Plugin) : Bool :=
  (plugin.jsonHook? stage).isSome || (plugin.codeHook? stage).isSome

/-- The plugins with a hook at a stage, in order. -/
def scheduleAt (stage : Stage) (plugins : List Plugin) : List (Stage × String) :=
  (plugins.filter (takesPart stage)).map fun plugin => (stage, plugin.name)

/-- The hooks of all stages, in order. -/
def schedule (plugins : List Plugin) : List (Stage × String) :=
  [Stage.preJson, .postJson, .preCode, .postCode].flatMap (scheduleAt · plugins)

theorem schedule_eq (plugins : List Plugin) :
    schedule plugins = scheduleAt .preJson plugins ++ scheduleAt .postJson plugins ++
      scheduleAt .preCode plugins ++ scheduleAt .postCode plugins := by
  simp [schedule]

/-- At a stage without hooks for texts the plugins that take part are those with a hook for the
component. -/
theorem labels_jsonCalls {stage : Stage} (noCode : ∀ plugin : Plugin, plugin.codeHook? stage = none)
    (plugins : List Plugin) : labels stage (jsonCalls stage plugins) = scheduleAt stage plugins := by
  induction plugins with
  | nil => rfl
  | cons plugin rest ih =>
    simp only [labels, jsonCalls, scheduleAt] at ih ⊢
    cases held : plugin.jsonHook? stage <;> simp [takesPart, held, noCode, ih]

/-- At a stage without hooks for the component the plugins that take part are those with a hook for
texts. -/
theorem labels_codeCalls {stage : Stage} (noJson : ∀ plugin : Plugin, plugin.jsonHook? stage = none)
    (component : Component) (plugins : List Plugin) :
    labels stage (codeCalls stage component plugins) = scheduleAt stage plugins := by
  induction plugins with
  | nil => rfl
  | cons plugin rest ih =>
    simp only [labels, codeCalls, scheduleAt] at ih ⊢
    cases held : plugin.codeHook? stage <;> simp [takesPart, held, noJson, ih]

variable {stage : Stage} {plugins : List Plugin}

theorem runJson_of_passed (noCode : ∀ plugin : Plugin, plugin.codeHook? stage = none)
    {given last : Component} (passed : Passed (jsonCalls stage plugins) given last) :
    (runJson stage plugins given).Goes (scheduleAt stage plugins) (.ok last) := by
  rw [runJson_eq_callAll, ← labels_jsonCalls noCode]
  exact callAll_of_passed stage passed

theorem runJson_of_stopped {called rest : List (Call Component)}
    (calls : jsonCalls stage plugins = called ++ rest) {given : Component} {failure : Failure}
    (stopped : Stopped called given failure) :
    (runJson stage plugins given).Goes (labels stage called) (.error failure) := by
  rw [runJson_eq_callAll, calls]
  exact callAll_of_stopped stage stopped rest

variable {component : Component}

theorem runCode_of_passed (noJson : ∀ plugin : Plugin, plugin.jsonHook? stage = none)
    {given last : String} (passed : Passed (codeCalls stage component plugins) given last) :
    (runCode stage component plugins given).Goes (scheduleAt stage plugins) (.ok last) := by
  rw [runCode_eq_callAll, ← labels_codeCalls noJson component]
  exact callAll_of_passed stage passed

theorem runCode_of_stopped {called rest : List (Call String)}
    (calls : codeCalls stage component plugins = called ++ rest) {given : String}
    {failure : Failure} (stopped : Stopped called given failure) :
    (runCode stage component plugins given).Goes (labels stage called) (.error failure) := by
  rw [runCode_eq_callAll, calls]
  exact callAll_of_stopped stage stopped rest

end Plugin

namespace Page

open Plugin

/-! ### The course of a compilation -/

/-- The text that the last stage of plugins starts from: what tidying makes of the page, or the page
itself if it is not to be tidied or cannot be tidied. -/
def tidiedText (options : Options) (page : String) : String :=
  if options.tidied.isFalsy then page else ((options.formatter.getD tidy) page).toOption.getD page

theorem outcome_tidied (options : Options) (component : Component) (page : String) :
    (tidied options component page).outcome = .ok (tidiedText options page) := by
  unfold tidied tidiedText
  split
  · rfl
  · cases (options.formatter.getD tidy) page <;> rfl

/-- The result of a compilation with the given page. -/
def resultOf (options : Options) (prepared : Prepared) (styles : Style.Collection)
    (page : String) : Compilation where
  code := page
  hydration := prepared.hydration
  directive := directiveOf options prepared
  stylePrefix := prepared.stem
  styles := styles
  format := options.format

variable {options : Options} {component : Component}

/-- The ways in which a compilation can go: the hooks that are called, and the outcome. At the first
stage `first` is made of the component, at the second stage `second` is made of `first`. The findings
are those about `first`; the page is that of `second` without its internal annotations, and so is
the component that the later hooks are given. -/
inductive Course (options : Options) (component : Component) :
    List (Stage × String) → Except Failure Compilation → Prop
  /-- Every hook makes something. -/
  | completed {first second : Component} {drafted : String × Style.Collection}
      {page last : String}
      (preJson : Passed (jsonCalls .preJson options.plugins) component first)
      (postJson : Passed (jsonCalls .postJson options.plugins) first second)
      (made : (draft options (prepare first) second.strip).outcome = .ok drafted)
      (preCode : Passed (codeCalls .preCode second.strip options.plugins) drafted.1 page)
      (postCode : Passed (codeCalls .postCode second.strip options.plugins)
        (tidiedText options page) last) :
      Course options component (schedule options.plugins)
        (.ok (resultOf options (prepare first) drafted.2 last))
  /-- A hook of the first stage gives up. -/
  | stoppedAtPreJson {called rest : List (Call Component)} {failure : Failure}
      (calls : jsonCalls .preJson options.plugins = called ++ rest)
      (preJson : Stopped called component failure) :
      Course options component (labels .preJson called) (.error failure)
  /-- A hook of the second stage gives up. -/
  | stoppedAtPostJson {first : Component} {called rest : List (Call Component)}
      {failure : Failure}
      (preJson : Passed (jsonCalls .preJson options.plugins) component first)
      (calls : jsonCalls .postJson options.plugins = called ++ rest)
      (postJson : Stopped called first failure) :
      Course options component
        (scheduleAt .preJson options.plugins ++ labels .postJson called) (.error failure)
  /-- A hook of the third stage gives up. -/
  | stoppedAtPreCode {first second : Component} {drafted : String × Style.Collection}
      {called rest : List (Call String)} {failure : Failure}
      (preJson : Passed (jsonCalls .preJson options.plugins) component first)
      (postJson : Passed (jsonCalls .postJson options.plugins) first second)
      (made : (draft options (prepare first) second.strip).outcome = .ok drafted)
      (calls : codeCalls .preCode second.strip options.plugins = called ++ rest)
      (preCode : Stopped called drafted.1 failure) :
      Course options component
        (scheduleAt .preJson options.plugins ++ scheduleAt .postJson options.plugins ++
          labels .preCode called) (.error failure)
  /-- A hook of the last stage gives up. -/
  | stoppedAtPostCode {first second : Component} {drafted : String × Style.Collection}
      {page : String} {called rest : List (Call String)} {failure : Failure}
      (preJson : Passed (jsonCalls .preJson options.plugins) component first)
      (postJson : Passed (jsonCalls .postJson options.plugins) first second)
      (made : (draft options (prepare first) second.strip).outcome = .ok drafted)
      (preCode : Passed (codeCalls .preCode second.strip options.plugins) drafted.1 page)
      (calls : codeCalls .postCode second.strip options.plugins = called ++ rest)
      (postCode : Stopped called (tidiedText options page) failure) :
      Course options component
        (scheduleAt .preJson options.plugins ++ scheduleAt .postJson options.plugins ++
          scheduleAt .preCode options.plugins ++ labels .postCode called) (.error failure)

/-- After the hooks that change the component made something, a compilation goes on from the draft
of what they made. -/
theorem goes_of_drafted {first second : Component} {drafted : String × Style.Collection}
    {later : List (Stage × String)} {outcome : Except Failure Compilation}
    (preJson : Passed (jsonCalls .preJson options.plugins) component first)
    (postJson : Passed (jsonCalls .postJson options.plugins) first second)
    (made : (draft options (prepare first) second.strip).outcome = .ok drafted)
    (finished : (finish options (prepare first) second.strip drafted).Goes later outcome) :
    (compile options component).Goes
      (scheduleAt .preJson options.plugins ++ scheduleAt .postJson options.plugins ++ later)
      outcome := by
  rw [compile_eq, List.append_assoc]
  exact (runJson_of_passed (fun _ => rfl) preJson).bind <|
    (runJson_of_passed (fun _ => rfl) postJson).bind <|
      (quiet_draft options _ _).bind_goes made finished

/-- A compilation goes as its course says. -/
theorem Course.goes {called : List (Stage × String)} {outcome : Except Failure Compilation}
    (course : Course options component called outcome) :
    (compile options component).Goes called outcome := by
  -- Each case follows the stages in order, up to the one that stops.
  cases course with
  | completed preJson postJson made preCode postCode =>
    rw [schedule_eq, List.append_assoc (_ ++ _)]
    refine goes_of_drafted preJson postJson made ?_
    exact (runCode_of_passed (fun _ => rfl) preCode).bind <|
      (quiet_tidied options _ _).bind_goes (outcome_tidied options _ _) <|
        (runCode_of_passed (fun _ => rfl) postCode).returning _
  | stoppedAtPreJson calls preJson =>
    rw [compile_eq]
    exact (runJson_of_stopped calls preJson).stop _
  | stoppedAtPostJson preJson calls postJson =>
    rw [compile_eq]
    exact (runJson_of_passed (fun _ => rfl) preJson).bind <|
      (runJson_of_stopped calls postJson).stop _
  | stoppedAtPreCode preJson postJson made calls preCode =>
    exact goes_of_drafted preJson postJson made ((runCode_of_stopped calls preCode).stop _)
  | stoppedAtPostCode preJson postJson made preCode calls postCode =>
    rw [List.append_assoc (_ ++ _)]
    refine goes_of_drafted preJson postJson made ?_
    exact (runCode_of_passed (fun _ => rfl) preCode).bind <|
      (quiet_tidied options _ _).bind_goes (outcome_tidied options _ _) <|
        (runCode_of_stopped calls postCode).stop _

/-- A compilation has a course: between the stages of plugins nothing can fail. -/
theorem exists_course (options : Options) (component : Component) :
    ∃ called outcome, Course options component called outcome := by
  rcases passed_or_stopped (jsonCalls .preJson options.plugins) component with
    ⟨first, preJson⟩ | ⟨called, rest, failure, calls, stopped⟩
  · rcases passed_or_stopped (jsonCalls .postJson options.plugins) first with
      ⟨second, postJson⟩ | ⟨called, rest, failure, calls, stopped⟩
    · obtain ⟨drafted, made⟩ := yields_draft options (prepare first) (settled_strip second)
      rcases passed_or_stopped (codeCalls .preCode second.strip options.plugins) drafted.1 with
        ⟨page, preCode⟩ | ⟨called, rest, failure, calls, stopped⟩
      · rcases passed_or_stopped (codeCalls .postCode second.strip options.plugins)
          (tidiedText options page) with
          ⟨last, postCode⟩ | ⟨called, rest, failure, calls, stopped⟩
        · exact ⟨_, _, .completed preJson postJson made preCode postCode⟩
        · exact ⟨_, _, .stoppedAtPostCode preJson postJson made preCode calls stopped⟩
      · exact ⟨_, _, .stoppedAtPreCode preJson postJson made calls stopped⟩
    · exact ⟨_, _, .stoppedAtPostJson preJson calls stopped⟩
  · exact ⟨_, _, .stoppedAtPreJson calls stopped⟩

theorem prefix_scheduleAt {σ : Type} {stage : Stage} {calls called rest : List (Call σ)}
    (all : labels stage calls = scheduleAt stage options.plugins) (split : calls = called ++ rest) :
    labels stage called <+: scheduleAt stage options.plugins := by
  rw [← all, split, labels_append]
  exact List.prefix_append _ _

/-- The hooks that are called are the first ones of the schedule. -/
theorem Course.prefix_schedule {called : List (Stage × String)}
    {outcome : Except Failure Compilation} (course : Course options component called outcome) :
    called <+: schedule options.plugins := by
  rw [schedule_eq]
  cases course with
  | completed => exact schedule_eq options.plugins ▸ List.prefix_rfl
  | stoppedAtPreJson calls preJson =>
    simp only [List.append_assoc]
    exact (prefix_scheduleAt (labels_jsonCalls (fun _ => rfl) _) calls).trans
      (List.prefix_append _ _)
  | stoppedAtPostJson preJson calls postJson =>
    simp only [List.append_assoc, List.prefix_append_right_inj]
    exact (prefix_scheduleAt (labels_jsonCalls (fun _ => rfl) _) calls).trans
      (List.prefix_append _ _)
  | stoppedAtPreCode preJson postJson made calls preCode =>
    simp only [List.append_assoc, List.prefix_append_right_inj]
    exact (prefix_scheduleAt (labels_codeCalls (fun _ => rfl) _ _) calls).trans
      (List.prefix_append _ _)
  | stoppedAtPostCode preJson postJson made preCode calls postCode =>
    simp only [List.append_assoc, List.prefix_append_right_inj]
    exact prefix_scheduleAt (labels_codeCalls (fun _ => rfl) _ _) calls

/-- A compilation goes one way only, and this is its course: the hooks that it calls are the first
ones of the schedule, each given what the one before it made, and it yields the page that the last
one made or fails as the one that gave up. -/
theorem compile_course_iff (options : Options) (component : Component) :
    (compile options component).hooks <+: schedule options.plugins ∧
      ∀ called outcome, Course options component called outcome ↔
        (compile options component).hooks = called ∧
          (compile options component).outcome = outcome := by
  obtain ⟨called, outcome, course⟩ := exists_course options component
  have goes := course.goes
  refine ⟨goes.hooks ▸ course.prefix_schedule, fun others other => ⟨fun course => ?_, ?_⟩⟩
  · exact ⟨course.goes.hooks, course.goes.outcome⟩
  · rintro ⟨rfl, rfl⟩
    rwa [goes.hooks, goes.outcome]

/-- A plugin that takes part at all stages and renames the component. -/
def herald : Plugin where
  name := "herald"
  preJson := some fun component => .ok { component with name := "Renamed" }
  postJson := some .ok
  preCode := some fun _ page => .ok page
  postCode := some fun _ page => .ok page

/-- A plugin that gives up on every page. -/
def quitter : Plugin where
  name := "quitter"
  preCode := some fun component _ => .error (.raised component.name)

/-- The plugin that gives up is given the renamed component, and no hook is called after it. -/
example :
    let run := compile { plugins := [herald, quitter] } { name := "Card" }
    run.hooks = [(.preJson, "herald"), (.postJson, "herald"), (.preCode, "herald"),
      (.preCode, "quitter")] ∧
    (match run.outcome with
      | .ok _ => none
      | .error failure => some failure.message) = some "Renamed" := by
  decide +kernel

end Page

end ComponentCompiler
