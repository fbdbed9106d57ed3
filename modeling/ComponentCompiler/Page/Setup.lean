import ComponentCompiler.Component.Traversal
import ComponentCompiler.Embedding
import ComponentCompiler.Import
import ComponentCompiler.Options
import ComponentCompiler.Text.Word

/-!
# The setup section

The setup section of a page runs before the markup is made. It imports what the component takes from
other files, takes the props out of their container, and declares the state and the names for held
elements. The code that initialises the component comes last.

## Main definitions

* `Page.functionOfMethod` — the source of a method as a function
* `Page.propsPart`, `Page.statePart`, `Page.refsPart`, `Page.initPart` — the parts
* `Page.setup` — the setup section

## Main results

* `Page.localProps_subset` — only props are taken out of their container
-/

namespace ComponentCompiler.Page

/-- The target whose endings stand in imports. -/
def target : String := "astro"

/-- Whether a text is part of another. -/
def occursIn (part : List Char) : List Char → Bool
  | [] => part.isEmpty
  | c :: rest => part.isPrefixOf (c :: rest) || occursIn part rest

/-- The start of an asynchronous function or method. -/
def asyncStart : List Char := "async ".toList

/-- The word that starts a function. -/
def functionWord : List Char := "function".toList

/-- The sign of an arrow function. -/
def arrowSign : List Char := "=>".toList

/-- The source of a method as a function. What is a function already stays as it is. -/
def functionOfMethod (code : List Char) : List Char :=
  let stripped := Text.trimStart code
  let afterAsync := Text.trimStart (stripped.drop asyncStart.length)
  if asyncStart.isPrefixOf stripped && !functionWord.isPrefixOf afterAsync then
    asyncStart ++ functionWord ++ ' ' :: afterAsync
  else if functionWord.isPrefixOf stripped || asyncStart.isPrefixOf stripped ||
      occursIn arrowSign stripped then code
  else functionWord ++ ' ' :: stripped

/-- Whether code holds a function, so that its name is never assigned again. -/
def holdsFunction (code : List Char) : Bool :=
  Text.containsWord functionWord code || occursIn arrowSign code

/-! ### Props -/

/-- The name of the type of the props. -/
def propsType (component : Component) : String :=
  (component.propsType.filter (!·.isEmpty)).getD "Props"

/-- The line of a prop in the type of the props. -/
def propLine (component : Component) (name : String) : String :=
  let type := (component.props.get? name).join.filter (!·.isEmpty)
  "  " ++ name ++ "?: " ++ type.getD "any" ++ ";"

/-- The lines that declare the container of the props. -/
def propsContainer (typed : Bool) (component : Component) (propNames : List String) :
    List String :=
  let type := propsType component
  if typed then
    (if component.props.isEmpty then ["type " ++ type ++ " = Record<string, any>;"]
      else
        ["interface " ++ type ++ " \x7b"] ++ propNames.map (propLine component) ++ ["\x7d"]) ++
      ["", "const props = Astro.props as " ++ type ++ ";"]
  else ["const props = Astro.props;"]

/-- The props that become local names: the state and held elements keep theirs. -/
def localProps (component : Component) (propNames refs : List String) : List String :=
  let taken := component.state.keys ++ refs.map Naming.camelCase
  propNames.filter fun name => !taken.contains name

theorem localProps_subset (component : Component) (propNames refs : List String) :
    localProps component propNames refs ⊆ propNames :=
  fun _ member => (List.mem_filter.1 member).1

/-- The part that declares the props. -/
def propsPart (typed : Bool) (component : Component) (propNames refs : List String) : String :=
  let names := localProps component propNames refs
  let taking :=
    if names.isEmpty then [] else ["const \x7b " ++ ", ".intercalate names ++ " \x7d = props;"]
  "\n".intercalate (propsContainer typed component propNames ++ taking)

/-! ### State, held elements, initialisation -/

/-- The declaration of a state entry; absent values declare nothing. -/
def stateDeclaration (key : String) (entry : StateEntry) : Run (Option String) :=
  match entry.value with
  | .null => pure none
  | .string code => do
    -- The word is chosen by the code as it was written, before references become local names.
    let source := if entry.role = "method" then functionOfMethod code.toList else code.toList
    let word := if holdsFunction source then "const" else "let"
    let embedded ← embedCode .setup (some (String.ofList source))
    return some (word ++ " " ++ key ++ " = " ++ embedded ++ ";")
  | value => pure (some ("let " ++ key ++ " = " ++ value.compact ++ ";"))

/-- The declarations of state entries. -/
def stateDeclarations : List (String × StateEntry) → Run (List String)
  | [] => pure []
  | (key, entry) :: rest => do
    let line ← stateDeclaration key entry
    let lines ← stateDeclarations rest
    return line.toList ++ lines

/-- The part that declares the state. -/
def statePart (component : Component) : Run String := do
  let lines ← stateDeclarations component.state.toList
  return "\n".intercalate ("// Component state" :: lines)

/-- The part that declares the names for held elements. -/
def refsPart (refs : List String) : String :=
  "\n".intercalate
    ("// Component refs" :: refs.map fun ref => "let " ++ Naming.camelCase ref ++ ";")

/-- The part that initialises the component, if it has code for that. -/
def initPart (component : Component) : Run (List String) :=
  match component.hooks.onInit.filter (!·.code.isEmpty) with
  | none => pure []
  | some hook => do
    let embedded ← embedCode .setup (some hook.code)
    return ["// Component initialization\n" ++ embedded]

/-- What was found out about a component before its page is made. -/
structure Findings where
  hasState : Bool
  propNames : List String
  refs : List String

/-- The findings about a component. -/
def Findings.of (component : Component) : Findings where
  hasState := !component.state.isEmpty
  propNames := component.propNames
  refs := component.refs

/-- The setup section of a page. -/
def setup (options : Options) (findings : Findings) (component : Component) : Run String := do
  let imports := Import.statements target (!options.explicitEndings.isFalsy) component
  let importPart := if Text.isBlankText imports.toList then [] else [imports]
  let propsPart :=
    if findings.propNames.isEmpty then []
    else [propsPart (!options.typedProps.isFalsy) component findings.propNames findings.refs]
  let statePart ←
    if findings.hasState then (fun text => [text]) <$> statePart component else pure []
  let refsPart := if findings.refs.isEmpty then [] else [refsPart findings.refs]
  let initPart ← initPart component
  return "\n\n".intercalate (importPart ++ propsPart ++ statePart ++ refsPart ++ initPart)

end ComponentCompiler.Page
