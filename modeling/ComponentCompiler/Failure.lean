import ComponentCompiler.Component.Decode
import ComponentCompiler.Json.Reader

/-!
# Why a compilation fails

Most failures are findings about the input and are reported with a message. The others mean that a
value stands where it cannot be used at all, and stop everything.

## Main definitions

* `OptionFault` — what is wrong with the options
* `Failure` — why a compilation fails
* `Failure.message`, `Failure.isReported` — how a failure is told
-/

namespace ComponentCompiler

/-- The strategies for making a component live in the browser. -/
def clientDirectives : List String :=
  ["client:load", "client:idle", "client:visible", "client:media", "none"]

/-- The formats that can be asked for. -/
def outputFormats : List String :=
  ["astro", "typescript"]

/-- What is wrong with the options of a compilation. -/
inductive OptionFault where
  | unknown (key : String)
  | directive (value : Json)
  | format (value : Json)
deriving Repr

/-- The wording of a fault. -/
def OptionFault.message : OptionFault → String
  | .unknown key => "Unknown compile option " ++ Text.quote key
  | .directive value =>
    "Unknown client directive " ++ value.display ++ "; expected one of " ++
      ", ".intercalate clientDirectives
  | .format value =>
    "Unknown output format " ++ value.display ++ "; expected one of " ++
      ", ".intercalate outputFormats

/-- Why a compilation fails. -/
inductive Failure where
  /-- The document, read from the named file if there is one, does not have the expected shape. -/
  | document (file : Option String) (fault : DocumentFault) (place : Place)
  /-- The text of a file is no document. -/
  | text (file : String) (error : Json.ReadError)
  | option (fault : OptionFault)
  /-- A plugin gives up. -/
  | raised (message : String)
  /-- A value that is no sequence stands in the place of a list of hooks. -/
  | notASequence
  /-- A node is stored as a text and has none. -/
  | missingText
deriving Repr

namespace Failure

/-- The failure that refusing a document leads to. -/
def ofDocument (file : Option String) : DocumentError → Failure
  | .invalid fault place => .document file fault place
  | .notASequence _ => .notASequence

/-- A message after the name of the file that it is about. -/
def inFile (file : Option String) (message : String) : String :=
  match file.filter (!·.isEmpty) with
  | none => message
  | some name => name ++ ": " ++ message

/-- The wording of a failure; those that are not reported have none. -/
def message : Failure → String
  | .document file fault place => inFile file (fault.message ++ " (at " ++ place.render ++ ")")
  | .text file error =>
    inFile (some file)
      ("Invalid JSON: " ++ error.fault.message ++ " (at $:" ++ toString error.line ++ ")")
  | .option fault => fault.message
  | .raised message => message
  | .notASequence | .missingText => ""

/-- Whether a failure is a finding about the input that is reported with a message. -/
def isReported : Failure → Bool
  | .document .. | .text .. | .option _ | .raised _ => true
  | .notASequence | .missingText => false

end Failure

/-- The component that a document describes. -/
def loadComponent (document : Json) : Except Failure Component :=
  (Component.decode document).mapError (Failure.ofDocument none)

/-- The component that the text of a file describes. -/
def loadText (file text : String) : Except Failure Component :=
  match Json.read text with
  | .error error => .error (.text file error)
  | .ok document => (Component.decode document).mapError (Failure.ofDocument (some file))

end ComponentCompiler
