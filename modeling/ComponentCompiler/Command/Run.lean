import ComponentCompiler.Batch
import ComponentCompiler.Command.Request
import ComponentCompiler.Command.Table

/-!
# Answers on the command line

A request is answered with a text, an exit code and a tree of files. A document that is refused is
told as an error; a file that cannot be used at all stops the command.

## Main definitions

* `Command.Answer` — what a command leaves behind
* `Command.run` — answers a command line

## Main results

* `Command.run_of_senseless` — a command line that makes no sense changes nothing
-/

namespace ComponentCompiler.Command

open Files (FileTree Path PathText)

/-- What a command leaves behind. -/
structure Answer where
  exitCode : Nat
  /-- Why the command stopped on the way. -/
  stop : Option Batch.Stop := none
  output : String := ""
  tree : FileTree

/-- Lines of text. -/
def printed (lines : List String) : String :=
  String.join (lines.map fun line => line ++ "\n")

/-- An answer that all went well. -/
def Answer.done (tree : FileTree) (output : String) : Answer :=
  { exitCode := 0, output := output, tree := tree }

/-- An answer that a command stopped on the way. -/
def Answer.stopped (tree : FileTree) (output : String) (stop : Batch.Stop) : Answer :=
  { exitCode := 1, stop := some stop, output := output, tree := tree }

/-- The answer to a failure: it is told if it is a finding about the input. -/
def Answer.failed (tree : FileTree) (failure : Failure) : Answer :=
  if failure.isReported then
    { exitCode := 1, output := printed ["Error: " ++ failure.message], tree := tree }
  else .stopped tree "" (.failure failure)

/-- The component of a document. -/
def load (tree : FileTree) (working : Path) (file : String) : Except Batch.Stop Component := do
  let path := PathText.ofString file
  let bytes ← (FileTree.read tree (path.resolve working)).mapError .file
  let text ← (Files.decodeText bytes).mapError .file
  (loadText path.toString text).mapError .failure

/-- Goes on with the component of a document. -/
def withComponent (tree : FileTree) (working : Path) (file : String)
    (next : Component → Answer) : Answer :=
  match load tree working file with
  | .ok component => next component
  | .error (.failure failure) => .failed tree failure
  | .error stop => .stopped tree "" stop

/-- Writes a text to a file, making the directories above it. The tree is kept also if that
fails. -/
def save (tree : FileTree) (path : Path) (text : String) :
    Except Files.FileFault Unit × FileTree :=
  match FileTree.makeDirectory tree path.dropLast with
  | .error fault => (.error fault, tree)
  | .ok tree =>
    match FileTree.write tree path (Files.encodeText text) with
    | .error fault => (.error fault, tree)
    | .ok tree => (.ok (), tree)

/-- Answers with the page of a component, or writes it to a file. -/
def answerCompile (tree : FileTree) (working : Path) (options : Options)
    (output : Option String) (component : Component) : Answer :=
  match (compile options component).outcome with
  | .error failure => .failed tree failure
  | .ok compilation =>
    match output with
    | none => .done tree compilation.code
    | some text =>
      let path := PathText.ofString text
      match save tree (path.resolve working) compilation.code with
      | (.ok _, tree) => .done tree (printed ["✅ Wrote " ++ path.toString])
      | (.error fault, tree) => .stopped tree "" (.file fault)

/-- Answers with the analysis of a component. -/
def answerAnalysis (tree : FileTree) (component : Component) : Answer :=
  let hydration := analyze component
  let table : Table :=
    { title := component.name ++ " hydration", heading := "Reason", rows := hydration.reasons }
  let verdict :=
    if hydration.needed then "Suggested directive: " ++ hydration.directive
    else "No hydration needed"
  .done tree (printed (table.render ++ [verdict]))

/-- The line that tells what came of a batch. -/
def summaryLine (summary : Batch.Summary) : String :=
  "✅ Build complete (components=" ++ toString summary.components ++ ", hydrated=" ++
    toString summary.hydrated ++ ", failed=" ++ toString summary.failed ++ ", out=" ++
    summary.out.toString ++ ")"

/-- Builds a batch and answers with what came of it. -/
def answerBuild (tree : FileTree) (working : Path) (source : String) (out : Option String) :
    Answer :=
  let path := PathText.ofString source
  let outPath := (out.map PathText.ofString).getD (path.child "dist")
  let start := "🔨 Building " ++ path.toString ++ "..."
  match Batch.build {} (path.resolve working) (outPath.resolve working) tree with
  | (.error (.failure failure), tree) => .stopped tree (printed [start]) (.failure failure)
  | (.error stop, tree) => .stopped tree (printed [start]) stop
  | (.ok summary, tree) =>
    let errors := summary.errors.map fun error => "✗ " ++ error
    { exitCode := if summary.failed = 0 then 0 else 1
      output := printed ([start, summaryLine summary] ++ errors)
      tree := tree }

/-- Answers a request. -/
def answer (tree : FileTree) (working : Path) : Request → Answer
  | .compile file output directive untyped untidied explicit =>
    let options : Options :=
      { directive := (directive.map Json.string).getD .null
        typedProps := .bool !untyped
        tidied := .bool !untidied
        explicitEndings := .bool explicit }
    withComponent tree working file (answerCompile tree working options output)
  | .analyze file => withComponent tree working file (answerAnalysis tree)
  | .build source out => answerBuild tree working source out

/-- Answers a command line. One that makes no sense, or names what is not there, gets the exit code
two. -/
def run (tree : FileTree) (working : Path) (args : List String) : Answer :=
  match (Request.ofWords? args).filter (Request.isPossible tree working) with
  | some request => answer tree working request
  | none => { exitCode := 2, tree := tree }

theorem run_of_senseless {args : List String} (senseless : Request.ofWords? args = none)
    (tree : FileTree) (working : Path) : (run tree working args).tree = tree := by
  simp [run, senseless]

end ComponentCompiler.Command
