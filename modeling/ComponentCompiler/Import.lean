import ComponentCompiler.Component.Basic
import ComponentCompiler.Text.Line

/-!
# Import statements

A component names the files it takes from, and the names it takes from each. Sources of components
are replaced by what they are compiled to, and imports of the framework that the documents come from
have no meaning in the output.

## Main definitions

* `Import.targetPath` — the path that stands in the output
* `Import.statement` — the statement for an import
* `Import.statements` — the statements of a component

## Main results

* `Import.targetPath_of_plain` — other paths stay as they are
-/

namespace ComponentCompiler.Import

/-- The package whose names have no meaning in the output. -/
def frameworkPackage : String := "@builder.io/mitosis"

/-- The endings of the sources of components. -/
def sourceEndings : List (List Char) :=
  [".lite".toList, ".lite.tsx".toList, ".lite.jsx".toList]

/-- The text before an ending, if the text has that ending. -/
def stemBefore? (ending text : List Char) : Option (List Char) :=
  if ending.isSuffixOf text then some (text.take (text.length - ending.length)) else none

/-- A text with its last line feed apart. -/
def splitLastBreak (text : List Char) : List Char × List Char :=
  if text.getLast? == some '\n' then (text.dropLast, ['\n']) else (text, [])

/-- The path of a component source without its ending, and the line feed behind it if there is
one. -/
def sourceStem? (path : List Char) : Option (List Char × List Char) :=
  let (text, lineFeed) := splitLastBreak path
  (sourceEndings.findSome? fun ending => stemBefore? ending text).map (·, lineFeed)

/-- The ending of compiled components for a target. -/
def targetEnding (target : String) : String :=
  if target = "astro" then ".astro" else ".js"

/-- Whether a relative path ends in a name without an ending. Dots at the start of the name do not
count. -/
def lacksEnding (path : List Char) : Bool :=
  let name := (Text.splitAt '/' path).getLast?.getD []
  path.head? == some '.' && !(name.dropWhile (· == '.')).contains '.'

/-- The path that stands in the output. -/
def targetPath (target : String) (explicitEndings : Bool) (path : String) : String :=
  match sourceStem? path.toList with
  | some (stem, lineFeed) => String.ofList (stem ++ (targetEnding target).toList ++ lineFeed)
  | none => if explicitEndings && lacksEnding path.toList then path ++ ".js" else path

theorem targetPath_of_plain {path : String} (target : String)
    (notSource : sourceStem? path.toList = none) : targetPath target false path = path := by
  simp [targetPath, notSource]

/-- What an import takes. -/
inductive Clause where
  | default (name : String)
  | whole (name : String)
  | named (text : String)
deriving DecidableEq, Repr

/-- What a local name stands for. -/
def Clause.of (name imported : String) : Clause :=
  if imported = "default" then .default name
  else if imported = "*" then .whole name
  else if imported = name then .named name
  else .named (imported ++ " as " ++ name)

/-- The name for the default export. -/
def Clause.default? : Clause → Option String
  | .default name => some name
  | _ => none

/-- The name for the whole file. -/
def Clause.whole? : Clause → Option String
  | .whole name => some name
  | _ => none

/-- A name among others. -/
def Clause.named? : Clause → Option String
  | .named text => some text
  | _ => none

/-- The clauses of a statement: at most one default, and then the whole file or the names. -/
def clauseTexts (clauses : List Clause) : List String :=
  let named := clauses.filterMap Clause.named?
  let rest :=
    match clauses.filterMap Clause.whole? with
    | name :: _ => ["* as " ++ name]
    | [] => if named.isEmpty then [] else ["\x7b " ++ ", ".intercalate named ++ " \x7d"]
  (clauses.filterMap Clause.default?).take 1 ++ rest

/-- The statement for an import. -/
def statement (target : String) (explicitEndings : Bool) (spec : ImportSpec) : String :=
  let path := targetPath target explicitEndings spec.path
  if spec.names.isEmpty then "import \"" ++ path ++ "\";"
  else
    let clauses := spec.names.toList.map fun (name, imported) => Clause.of name imported
    "import " ++ ", ".intercalate (clauseTexts clauses) ++ " from \"" ++ path ++ "\";"

/-- The statements of imports, each once, in order. -/
def statementList (target : String) (explicitEndings : Bool) (specs : List ImportSpec) :
    List String :=
  (specs.filter (·.path != frameworkPackage)).foldl
    (fun lines spec =>
      let line := statement target explicitEndings spec
      if lines.contains line then lines else lines ++ [line])
    []

/-- The statements of a component, one on each line. -/
def statements (target : String) (explicitEndings : Bool) (component : Component) : String :=
  "\n".intercalate (statementList target explicitEndings component.imports)

end ComponentCompiler.Import
