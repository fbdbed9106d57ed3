import ComponentCompiler.Dictionary
import ComponentCompiler.Files.Path

/-!
# Trees of files

A batch of documents is read from a tree of files, and its results are written into one. The tree is
a value: writing yields a new tree, and everything that was not written is as before.

## Main definitions

* `Item`, `FileTree` — files and directories by their places
* `FileTree.item?` — what is at a place
* `FileTree.read`, `FileTree.write`, `FileTree.makeDirectory` — reading and writing
* `decodeText`, `encodeText` — the text of a file

## Main results

* `FileTree.item?_put` — what is at a place after something was put somewhere
-/

namespace ComponentCompiler.Files

/-- What can be at a place. -/
inductive Item where
  | file (bytes : List UInt8)
  | directory
deriving DecidableEq, Repr

/-- Why a file cannot be read or written. -/
inductive FileFault where
  | isDirectory
  | notDirectory
  | exists
  | missing
  /-- The bytes are no text. -/
  | notText
deriving DecidableEq, Repr

/-- Files and directories by their places. -/
abbrev FileTree := Dictionary Path Item

namespace FileTree

/-- What is at a place; the top is always a directory. -/
def item? (tree : FileTree) (path : Path) : Option Item :=
  if path = [] then some .directory else tree.get? path

theorem item?_put (tree : FileTree) (path other : Path) (item : Item) (lower : other ≠ []) :
    item? (tree.put path item) other = if other = path then some item else item? tree other := by
  simp [item?, lower, Dictionary.get?_put]

/-- Whether a directory is at a place. -/
def isDirectory (tree : FileTree) (path : Path) : Bool :=
  item? tree path == some .directory

/-- Makes directories along names, from a place on. -/
def makeAlong (tree : FileTree) (place : Path) : List String → Except FileFault FileTree
  | [] => .ok tree
  | name :: rest =>
    let place := place ++ [name]
    match item? tree place with
    | some .directory => makeAlong tree place rest
    | none => makeAlong (tree.put place .directory) place rest
    | some (.file _) => .error (if rest.isEmpty then .exists else .notDirectory)

/-- Makes a directory and those above it, unless they are there. -/
def makeDirectory (tree : FileTree) (path : Path) : Except FileFault FileTree :=
  makeAlong tree [] path

/-- The bytes of a file. -/
def read (tree : FileTree) (path : Path) : Except FileFault (List UInt8) :=
  match item? tree path with
  | some (.file bytes) => .ok bytes
  | some .directory => .error .isDirectory
  | none => .error .missing

/-- Writes a file into a directory that is there. -/
def write (tree : FileTree) (path : Path) (bytes : List UInt8) : Except FileFault FileTree :=
  match item? tree path with
  | some .directory => .error .isDirectory
  | some (.file _) => .ok (tree.put path (.file bytes))
  | none =>
    match item? tree path.dropLast with
    | some .directory => .ok (tree.put path (.file bytes))
    | some (.file _) => .error .notDirectory
    | none => .error .missing

/-- The places strictly below another one, seen from there. -/
def placesBelow (tree : FileTree) (path : Path) : List Path :=
  (tree.keys.filterMap (Path.below? path)).filter fun place => !place.isEmpty

/-- Follows the names of a text one by one; each but the last one has to lead from a directory. -/
def follow? (tree : FileTree) (place : Path) : List String → Option Path
  | [] => some place
  | name :: rest =>
    if isDirectory tree place then
      follow? tree
        (if name = "" || name = "." then place
          else if name = ".." then place.dropLast
          else place ++ [name])
        rest
    else none

/-- What a written path leads to, if every name on the way can be followed. -/
def lookup? (tree : FileTree) (working : Path) (text : String) : Option Item :=
  if text.isEmpty then none
  else
    let start := if (PathText.ofString text).absolute then [] else working
    (follow? tree start (rawNames text)).bind (item? tree)

end FileTree

/-! ### Texts -/

/-- Writes all line ends as line feeds. -/
def unifyBreaks : List Char → List Char
  | [] => []
  | '\r' :: '\n' :: rest => '\n' :: unifyBreaks rest
  | '\r' :: rest => '\n' :: unifyBreaks rest
  | c :: rest => c :: unifyBreaks rest

/-- The text that bytes stand for, with all line ends as line feeds. -/
def decodeText (bytes : List UInt8) : Except FileFault String :=
  match String.fromUTF8? ⟨bytes.toArray⟩ with
  | some text => .ok (String.ofList (unifyBreaks text.toList))
  | none => .error .notText

/-- The bytes of a text. -/
def encodeText (text : String) : List UInt8 :=
  text.toUTF8.toList

end ComponentCompiler.Files
