import ComponentCompiler.Digest.Sha256
import ComponentCompiler.Files.Tree
import ComponentCompiler.Page.Compile

/-!
# Batches of documents

All documents below a directory are compiled into another directory, which may lie inside the first
one. A document that is refused is counted and its message kept, and the batch goes on; a file that
cannot be read as a text at all stops the batch. A manifest lists what was made.

## Main definitions

* `Batch.documents` — the documents of a batch in order
* `Batch.artifactPath` — the place of what a document is compiled to
* `Batch.build` — compiles a batch
* `Batch.Summary` — what came of a batch

## Main results

* `Batch.documents_within` — the documents of a batch lie below the source directory
-/

namespace ComponentCompiler.Batch

open Files (FileTree FileFault Path)

/-- Why a batch stops. -/
inductive Stop where
  | file (fault : FileFault)
  | failure (failure : Failure)
deriving Repr

/-- The ending of documents. -/
def documentEnding : List Char := ".json".toList

/-- Whether a name is the name of a document. -/
def isDocumentName (name : String) : Bool :=
  documentEnding.isSuffixOf name.toList

/-- Whether a name is passed over: it starts with an underscore or a dot. -/
def isHidden (name : String) : Bool :=
  match name.toList.head? with
  | some c => c == '_' || c == '.'
  | none => false

/-- Whether the item at a place below the source directory is a document of the batch. -/
def isDocument (source out place : Path) : Bool :=
  (place.getLast?.map isDocumentName).getD false && !place.any isHidden &&
    !Path.isWithin out (source ++ place)

/-- The documents of a batch, by their places below the source directory, in order. -/
def documents (tree : FileTree) (source out : Path) : List Path :=
  ((FileTree.placesBelow tree source).filter (isDocument source out)).mergeSort Path.pathBefore

theorem documents_within {tree : FileTree} {source out place : Path}
    (member : place ∈ documents tree source out) :
    place ∈ FileTree.placesBelow tree source ∧ isDocument source out place = true := by
  simpa [documents] using member

/-- A name without its last ending; a dot at its start or end does not begin an ending. -/
def nameStem (name : List Char) : List Char :=
  let ending := name.reverse.takeWhile (· != '.')
  let stem := (name.reverse.drop (ending.length + 1)).reverse
  if stem.isEmpty || ending.isEmpty then name else stem

/-- The ending of the sources of components, before the ending of documents. -/
def sourceEnding : List Char := ".lite".toList

/-- The name of what a document is compiled to. -/
def artifactName (name : String) : String :=
  let stem := nameStem name.toList
  let stem := (Import.stemBefore? sourceEnding stem).getD stem
  String.ofList (stem ++ ".astro".toList)

/-- The place of what a document is compiled to, below the output directory. -/
def artifactPath (place : Path) : Path :=
  match place.getLast? with
  | some name => place.dropLast ++ [artifactName name]
  | none => place

/-- The name of the manifest. -/
def manifestName : String := "manifest.json"

/-- What a batch has come to. -/
structure Progress where
  tree : FileTree
  entries : Entries Json := ∅
  components : Nat := 0
  hydrated : Nat := 0
  errors : List String := []

/-- What came of a batch. -/
structure Summary where
  components : Nat
  hydrated : Nat
  failed : Nat
  out : Path
  errors : List String
deriving DecidableEq, Repr

/-- The component of a document together with its bytes. A document that is refused gives a failure,
a file that is no text stops the batch. -/
def load (tree : FileTree) (path : Path) :
    Except Stop (List UInt8 × Except Failure Component) := do
  let bytes ← (FileTree.read tree path).mapError .file
  let text ← (Files.decodeText bytes).mapError .file
  return (bytes, loadText path.toString text)

/-- The compilation of a document. -/
def compileDocument (options : Options) (component : Except Failure Component) :
    Except Failure (Component × Compilation) := do
  let component ← component
  let compilation ← (compile options component).outcome
  return (component, compilation)

/-- The line of a document in the manifest. -/
def manifestEntry (place : Path) (bytes : List UInt8) (component : Component)
    (compilation : Compilation) : Json :=
  .object
    ([("artifact", .string ("/".intercalate (artifactPath place))),
        ("hash", .string (Digest.sha256Text bytes)), ("component", .string component.name)] ++
      compilation.metadata)

/-- Compiles one document of a batch. -/
def step (options : Options) (source out : Path) (progress : Progress) (place : Path) :
    Except Stop Progress × FileTree :=
  match load progress.tree (source ++ place) with
  | .error stop => (.error stop, progress.tree)
  | .ok (bytes, component) =>
    match compileDocument options component with
    | .error failure =>
      -- Findings about the document are collected; any other failure ends the batch.
      if failure.isReported then
        (.ok { progress with errors := progress.errors ++ [failure.message] }, progress.tree)
      else (.error (.failure failure), progress.tree)
    | .ok (component, compilation) =>
      let artifact := out ++ artifactPath place
      match FileTree.makeDirectory progress.tree artifact.dropLast with
      | .error fault => (.error (.file fault), progress.tree)
      | .ok tree =>
        match FileTree.write tree artifact (Files.encodeText compilation.code) with
        | .error fault => (.error (.file fault), tree)
        | .ok tree =>
          (.ok
            { progress with
              tree := tree
              entries := progress.entries.put ("/".intercalate place)
                (manifestEntry place bytes component compilation)
              components := progress.components + 1
              hydrated := progress.hydrated + if compilation.hydration.needed then 1 else 0 },
            tree)

/-- Compiles documents in order. The tree is kept also if the batch stops. -/
def steps (options : Options) (source out : Path) (progress : Progress) :
    List Path → Except Stop Progress × FileTree
  | [] => (.ok progress, progress.tree)
  | place :: rest =>
    match step options source out progress place with
    | (.ok progress, _) => steps options source out progress rest
    | (.error stop, tree) => (.error stop, tree)

/-- The manifest of a batch. -/
def manifest (source : Path) (entries : Entries Json) : Json :=
  .object
    [("version", .int 1), ("src_dir", .string source.toString), ("entries", .object entries.toList)]

/-- Compiles the documents below the source directory into the output directory, and writes the
manifest. -/
def build (options : Options) (source out : Path) (tree : FileTree) :
    Except Stop Summary × FileTree :=
  match FileTree.makeDirectory tree out with
  | .error fault => (.error (.file fault), tree)
  | .ok tree =>
    match steps options source out { tree := tree } (documents tree source out) with
    | (.error stop, tree) => (.error stop, tree)
    | (.ok progress, tree) =>
      let text := (manifest source progress.entries).pretty
      match FileTree.write tree (out ++ [manifestName]) (Files.encodeText text) with
      | .error fault => (.error (.file fault), tree)
      | .ok tree =>
        (.ok
          { components := progress.components
            hydrated := progress.hydrated
            failed := progress.errors.length
            out := out
            errors := progress.errors },
          tree)

end ComponentCompiler.Batch
