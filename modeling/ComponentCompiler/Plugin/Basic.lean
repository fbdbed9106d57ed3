import ComponentCompiler.Run

/-!
# Plugins

A plugin takes part in a compilation at up to four stages. At the first two it may change the
component, at the last two the text of the page. Each hook gets what the one before it made, and a
hook may give up.

## Main definitions

* `Plugin` — the hooks of a plugin
* `Plugin.runJson`, `Plugin.runCode` — the hooks of a stage in order

## Main results

* `Plugin.runCode_of_none` — a plugin without a hook at a stage is passed over
-/

namespace ComponentCompiler

/-- Changes a component or gives up. -/
abbrev JsonHook := Component → Except Failure Component

/-- Changes the text of the page of a component or gives up. -/
abbrev CodeHook := Component → String → Except Failure String

/-- The hooks of a plugin. -/
structure Plugin where
  name : String
  preJson : Option JsonHook := none
  postJson : Option JsonHook := none
  preCode : Option CodeHook := none
  postCode : Option CodeHook := none

namespace Plugin

/-- The hook that changes the component at a stage. -/
def jsonHook? (plugin : Plugin) : Stage → Option JsonHook
  | .preJson => plugin.preJson
  | .postJson => plugin.postJson
  | .preCode | .postCode => none

/-- The hook that changes the text at a stage. -/
def codeHook? (plugin : Plugin) : Stage → Option CodeHook
  | .preCode => plugin.preCode
  | .postCode => plugin.postCode
  | .preJson | .postJson => none

/-- Calls the hooks of a stage that change the component. -/
def runJson (stage : Stage) : List Plugin → Component → Run Component
  | [], component => pure component
  | plugin :: rest, component =>
    match plugin.jsonHook? stage with
    | none => runJson stage rest component
    | some hook => do
      Run.emit (.hook stage plugin.name)
      let changed ← Run.ofExcept (hook component)
      runJson stage rest changed

/-- Calls the hooks of a stage that change the text of the page. -/
def runCode (stage : Stage) (component : Component) : List Plugin → String → Run String
  | [], code => pure code
  | plugin :: rest, code =>
    match plugin.codeHook? stage with
    | none => runCode stage component rest code
    | some hook => do
      Run.emit (.hook stage plugin.name)
      let changed ← Run.ofExcept (hook component code)
      runCode stage component rest changed

theorem runCode_of_none {stage : Stage} {plugin : Plugin}
    (absent : plugin.codeHook? stage = none) (component : Component) (rest : List Plugin)
    (code : String) :
    runCode stage component (plugin :: rest) code = runCode stage component rest code := by
  simp [runCode, absent]

end Plugin

end ComponentCompiler
