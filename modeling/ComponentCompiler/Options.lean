import ComponentCompiler.Format
import ComponentCompiler.Plugin.Basic

/-!
# Options of a compilation

The options are given as settings by name, some of which have a second name. A switch can be any
value, and is on unless the value counts as absent.

## Main definitions

* `Options` — the options of a compilation
* `Options.check` — whether the options are valid
* `Options.ofSettings` — the options that settings give

## Main results

* `Options.check_default` — the options without settings are valid
-/

namespace ComponentCompiler

/-- The options of a compilation. -/
structure Options where
  /-- The directive for live elements; without one the analysis chooses it. -/
  directive : Json := .null
  typedProps : Json := .bool true
  format : Json := .string "astro"
  tidied : Json := .bool true
  plugins : List Plugin := []
  explicitEndings : Json := .bool false
  /-- What tidies the page in place of the usual way. -/
  formatter : Option Formatter := none

namespace Options

/-- Whether a value is one of the given texts. -/
def isOneOf (texts : List String) : Json → Bool
  | .string text => texts.contains text
  | _ => false

/-- The options, if their directive and format are known ones. -/
def check (options : Options) : Except OptionFault Options :=
  if !options.directive.isNull && !isOneOf clientDirectives options.directive then
    .error (.directive options.directive)
  else if !isOneOf outputFormats options.format then .error (.format options.format)
  else .ok options

theorem check_default : check {} = .ok {} := rfl

/-- Sets the option with the given name. -/
def set (options : Options) (key : String) (value : Json) : Except OptionFault Options :=
  match key with
  | "client_directive" | "clientDirective" => .ok { options with directive := value }
  | "typescript" => .ok { options with typedProps := value }
  | "output_format" | "outputFormat" => .ok { options with format := value }
  | "prettier" => .ok { options with tidied := value }
  | "explicit_import_file_extension" | "explicitImportFileExtension" =>
    .ok { options with explicitEndings := value }
  | key => .error (.unknown key)

/-- Sets options in order; the first unknown name is the fault. -/
def setAll (options : Options) : List (String × Json) → Except OptionFault Options
  | [] => .ok options
  | (key, value) :: rest =>
    match options.set key value with
    | .ok options => setAll options rest
    | .error fault => .error fault

/-- The options that settings, plugins and a way of tidying give. -/
def ofSettings (settings : List (String × Json)) (plugins : List Plugin)
    (formatter : Option Formatter) : Except OptionFault Options :=
  match setAll { plugins := plugins, formatter := formatter } settings with
  | .ok options => options.check
  | .error fault => .error fault

/-- The directive, if one is given. -/
def directive? (options : Options) : Option String :=
  options.directive.string?.filter (!·.isEmpty)

end Options

end ComponentCompiler
