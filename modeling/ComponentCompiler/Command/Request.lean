import ComponentCompiler.Failure
import ComponentCompiler.Files.Tree

/-!
# Requests on the command line

The words of a command line are read into a request: to compile one document, to analyse one, or to
build a batch. Options may stand before and behind other words; two hyphens end the options.

## Main definitions

* `Command.Request` — what is asked for
* `Command.Switches`, `Command.parseWords` — the options and the other words of a command line
* `Command.Request.ofWords?` — the request of a command line

## Main results

* `Command.parseWords_nil` — without words there are no options
-/

namespace ComponentCompiler.Command

open Files (FileTree Path)

/-- What is asked for. -/
inductive Request where
  | compile (file : String) (output directive : Option String) (untyped untidied explicit : Bool)
  | analyze (file : String)
  | build (source : String) (out : Option String)
deriving DecidableEq, Repr

/-- An option of a command: its long name, its short name, and whether a value follows it. -/
structure Switch where
  name : String
  short : Option Char := none
  takesValue : Bool := false

/-- The options that are given, the last one first, and the other words in order. -/
structure Words where
  given : List (String × Option String) := []
  others : List String := []

namespace Words

/-- The value of an option; of one given twice the last. -/
def value? (words : Words) (name : String) : Option String :=
  (lookup? name words.given).join

/-- Whether an option is given. -/
def has (words : Words) (name : String) : Bool :=
  (lookup? name words.given).isSome

/-- Notes an option. -/
def give (words : Words) (name : String) (value : Option String) : Words :=
  { words with given := (name, value) :: words.given }

end Words

/-- A word with what stands behind its first equals sign. -/
def splitValue (word : List Char) : List Char × Option (List Char) :=
  match word.span (· != '=') with
  | (name, _ :: value) => (name, some value)
  | (name, []) => (name, none)

/-- The options in a word of short names. The result holds those that are given, and the option that
still waits for a value. -/
def shortOptions (switches : List Switch) :
    List Char → Option (List (String × Option String) × Option String)
  | [] => some ([], none)
  | c :: rest => do
    let switch ← switches.find? fun switch => switch.short == some c
    if switch.takesValue then
      if rest.isEmpty then return ([], some switch.name)
      else return ([(switch.name, some (String.ofList rest))], none)
    else
      let (given, waiting) ← shortOptions switches rest
      return ((switch.name, none) :: given, waiting)

/-- The options in a word that starts with a hyphen. -/
def optionsOf (switches : List Switch) (word : List Char) :
    Option (List (String × Option String) × Option String) :=
  let (name, value) := splitValue word
  match switches.find? fun switch => ("--" ++ switch.name).toList == name with
  | some switch =>
    match switch.takesValue, value with
    | true, some value => some ([(switch.name, some (String.ofList value))], none)
    | true, none => some ([], some switch.name)
    | false, some _ => none
    | false, none => some ([(switch.name, none)], none)
  -- A single hyphen may also open a word of short names, whatever follows it.
  | none => if ['-', '-'].isPrefixOf word then none else shortOptions switches (word.drop 1)

/-- Reads words into options and other words. Without `mixed` the first other word ends the
options. -/
def parseWords (switches : List Switch) (mixed : Bool) (words : Words) :
    List String → Option Words
  | [] => some words
  | word :: rest =>
    if word = "--" then some { words with others := words.others ++ rest }
    else if word.toList.head? == some '-' && word != "-" then
      match optionsOf switches word.toList with
      | none => none
      | some (given, waiting) =>
        let words := given.foldl (fun words option => words.give option.1 option.2) words
        match waiting, rest with
        | none, rest => parseWords switches mixed words rest
        | some _, [] => none
        | some name, value :: rest => parseWords switches mixed (words.give name (some value)) rest
    else if mixed then
      parseWords switches mixed { words with others := words.others ++ [word] } rest
    else some { words with others := words.others ++ word :: rest }

theorem parseWords_nil (switches : List Switch) (mixed : Bool) (words : Words) :
    parseWords switches mixed words [] = some words := by
  simp [parseWords]

/-- The options before the name of a command. -/
def outerSwitches : List Switch :=
  [{ name := "verbose", short := some 'v' }]

/-- The options of the command that compiles. -/
def compileSwitches : List Switch :=
  [{ name := "output", short := some 'o', takesValue := true },
    { name := "client-directive", takesValue := true }, { name := "no-typescript" },
    { name := "no-format" }, { name := "explicit-extensions" }]

/-- The options of the command that builds. -/
def buildSwitches : List Switch :=
  [{ name := "out-dir", takesValue := true }]

namespace Request

/-- The request of a command with its words. -/
def ofCommand? (command : String) (args : List String) : Option Request :=
  match command with
  | "compile" => do
    let words ← parseWords compileSwitches true {} args
    match words.others with
    | [file] =>
      some (.compile file (words.value? "output") (words.value? "client-directive")
        (words.has "no-typescript") (words.has "no-format") (words.has "explicit-extensions"))
    | _ => none
  | "analyze" => do
    let words ← parseWords [] true {} args
    match words.others with
    | [file] => some (.analyze file)
    | _ => none
  | "build" => do
    let words ← parseWords buildSwitches true {} args
    match words.others with
    | [source] => some (.build source (words.value? "out-dir"))
    | _ => none
  | _ => none

/-- The request of a command line; `none` if it makes no sense. -/
def ofWords? (args : List String) : Option Request := do
  let words ← parseWords outerSwitches false {} args
  match words.others with
  | command :: args => ofCommand? command args
  | [] => none

/-- Whether a text leads to a file. -/
def isFile (tree : FileTree) (working : Path) (text : String) : Bool :=
  match FileTree.lookup? tree working text with
  | some (.file _) => true
  | _ => false

/-- Whether a text leads to a directory. -/
def leadsToDirectory (tree : FileTree) (working : Path) (text : String) : Bool :=
  FileTree.lookup? tree working text == some .directory

/-- Whether what a request names is there and of the right kind. -/
def isPossible (tree : FileTree) (working : Path) : Request → Bool
  | .compile file output directive _ _ _ =>
    isFile tree working file && (output.map (!leadsToDirectory tree working ·)).getD true &&
      (directive.map clientDirectives.contains).getD true
  | .analyze file => isFile tree working file
  | .build source out =>
    leadsToDirectory tree working source && (out.map (!isFile tree working ·)).getD true

end Request

end ComponentCompiler.Command
