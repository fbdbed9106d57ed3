import ComponentCompiler.Component.Encode
import ComponentCompiler.Page.ClientScript
import ComponentCompiler.Page.Setup
import ComponentCompiler.Style.Rule
import ComponentCompiler.Style.Sheet

/-!
# Compiling a component

A component becomes a page: a setup section between fences, the markup, a script for the browser if
the component has to be made live, and a style element. Plugins take part before and after the
analysis, and before and after the page is tidied. The component that was given is not changed.

## Main definitions

* `Page.stylePrefix` — the stem for the attribute that confines the style sheet
* `Page.assemble` — the text of a page from its parts
* `Compilation`, `compile` — the result of a compilation, and the compilation

## Main results

* `Page.assemble_of_markup` — a page with nothing but markup
-/

namespace ComponentCompiler

namespace Page

/-- The stem for the attribute that confines the style sheet: a short name for the content of the
component. -/
def stylePrefix (component : Component) : String :=
  Digest.shortHash component.encode.sorted.compact

/-- Texts that are not blank. -/
def nonblank (texts : List String) : List String :=
  texts.filter fun text => !Text.isBlankText text.toList

/-- The style element for a style sheet and the rules of style objects; it is left out if there is
nothing to say. -/
def styleElement (sheet rules : String) : String :=
  match nonblank [sheet, rules] with
  | [] => ""
  | blocks => "<style>\n" ++ Text.trimmed ("\n\n".intercalate blocks) ++ "\n</style>"

/-- A setup section between its fences; a blank one is left out. -/
def fenced (setup : String) : String :=
  let text := Text.trimmed setup
  if text.isEmpty then "" else "---\n" ++ text ++ "\n---\n\n"

/-- A part on a new line; an empty one is left out. -/
def onNewLine (part : String) : String :=
  if part.isEmpty then "" else "\n" ++ part

/-- The text of a page from its parts. -/
def assemble (setup markup script style : String) : String :=
  fenced setup ++ markup ++ onNewLine script ++ onNewLine style

theorem assemble_of_markup (markup : String) : assemble "" markup "" "" = markup := by
  have empty : fenced "" = "" := by decide
  simp [assemble, onNewLine, empty]

/-- The tidied text of a page. If it cannot be tidied it stays as it is, with a warning. -/
def tidied (options : Options) (component : Component) (page : String) : Run String :=
  if options.tidied.isFalsy then pure page
  else
    match (options.formatter.getD tidy) page with
    | .ok text => pure text
    | .error cause => do
      Run.warn (.untidy component.name cause)
      return page

end Page

/-- The result of a compilation. -/
structure Compilation where
  code : String
  hydration : Hydration
  directive : String
  stylePrefix : String
  /-- The style objects by their classes. -/
  styles : Style.Collection
  format : Json

/-- What the result is, apart from the code. -/
def Compilation.metadata (compilation : Compilation) : List (String × Json) :=
  [("needsHydration", .bool compilation.hydration.needed),
    ("clientDirective", .string compilation.directive), ("outputFormat", compilation.format)]

namespace Page

/-- What a compilation has found out before the second stage of plugins. -/
structure Prepared where
  hydration : Hydration
  findings : Findings
  stem : String
  sheet : String

/-- The findings about a component. -/
def prepare (component : Component) : Prepared :=
  let stem := stylePrefix component
  { hydration := analyze component
    findings := Findings.of component
    stem := stem
    sheet := Style.sheetOf component (some stem) }

/-- The attribute on the elements of a component whose style sheet is confined. -/
def confinement (prepared : Prepared) (component : Component) : Option String :=
  if !prepared.sheet.isEmpty && Style.isConfined component then
    some (Style.scopeAttribute prepared.stem)
  else none

/-- The markup of a component, with the style objects that it needs. -/
def markup (settings : Markup.Settings) (component : Component) :
    Run (String × Style.Collection) :=
  let run := Markup.renderChildren settings component.children
  let collection := Style.collectAll ∅ run.styles
  (fun text => (text, collection)) <$> run

end Page

open Page in
/-- The page of a component. -/
def compile (options : Options) (component : Component) : Run Compilation := do
  let component ← Plugin.runJson .preJson options.plugins component
  -- The findings are those before the second stage of plugins, also if it changes the component.
  let prepared := prepare component
  let component ← Plugin.runJson .postJson options.plugins component
  let component := component.strip
  let directive := options.directive?.getD prepared.hydration.directive
  let settings : Markup.Settings :=
    { directive := some directive, scopeAttribute := confinement prepared component }
  let setup ← setup options prepared.findings component
  let (markup, styles) ← markup settings component
  -- The script has no place on a page that is never made live.
  let script ← if prepared.hydration.needed then clientScript component.hooks else pure ""
  let rules ← Style.rules styles
  let page := assemble setup markup script (styleElement prepared.sheet rules)
  let page ← Plugin.runCode .preCode component options.plugins page
  let page ← tidied options component page
  let page ← Plugin.runCode .postCode component options.plugins page
  return {
    code := page
    hydration := prepared.hydration
    directive := directive
    stylePrefix := prepared.stem
    styles := styles
    format := options.format }

end ComponentCompiler
