import ComponentCompiler.Embedding
import ComponentCompiler.Markup.Render

/-!
# The client script

The mount and update hooks of a component run in the browser. Their code stands in a script element
behind the markup, each hook closed by a semicolon.

## Main definitions

* `Page.hookStatement` — the code of a hook as it stands in the script
* `Page.clientScript` — the script element

## Main results

* `Page.closeStatement_of_closed` — code that ends with a semicolon gets no other one
-/

namespace ComponentCompiler.Page

/-- Code with a semicolon at its end. -/
def closeStatement (code : String) : String :=
  if code.toList.getLast? == some ';' then code else code ++ ";"

theorem closeStatement_of_closed {code : String} (closed : code.toList.getLast? = some ';') :
    closeStatement code = code := by
  simp [closeStatement, closed]

/-- The code of a hook as it stands in the script. -/
def hookStatement (hook : Hook) : Run String := do
  let embedded ← embedCode .markup (some hook.code)
  return Text.indented Markup.margin (closeStatement (Text.trimmed embedded))

/-- The code of hooks in order. -/
def hookStatements : List Hook → Run (List String)
  | [] => pure []
  | hook :: rest => do
    let statement ← hookStatement hook
    let others ← hookStatements rest
    return statement :: others

/-- Hooks under a comment; without hooks there is no comment. -/
def hookPart (comment : String) (hooks : List Hook) : Run (List String) :=
  if hooks.isEmpty then pure []
  else do
    let statements ← hookStatements hooks
    return (Markup.margin ++ comment) :: statements

/-- The script element for the hooks of a component. -/
def clientScript (hooks : Hooks) : Run String := do
  let mounted ← hookPart "// Component mounted" hooks.onMount
  let updated ← hookPart "// Update hooks" (hooks.onUpdate.getD [])
  return "\n".intercalate (["<script>"] ++ mounted ++ updated ++ ["</script>"])

end ComponentCompiler.Page
