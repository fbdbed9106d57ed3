import ComponentCompiler.Command.Run

/-!
# The command line

The command works on a copy of the files below the working directory. What it leaves behind is then
written back: its output, the files that are new or changed, and its exit code.

## Main definitions

* `main` — runs a command line
-/

namespace ComponentCompiler.Main

open Files (FileTree Item Path)

/-- Adds what is below a directory to a tree. -/
partial def snapshot (directory : IO.FS.DirEntry) (place : Path) (tree : FileTree) :
    IO FileTree := do
  let place := place ++ [directory.fileName]
  if ← directory.path.isDir then
    let mut tree := tree.put place .directory
    for entry in ← directory.path.readDir do
      tree ← snapshot entry place tree
    return tree
  else
    let bytes ← IO.FS.readBinFile directory.path
    return tree.put place (.file bytes.toList)

/-- The tree of the files below the working directory. -/
def workingTree (working : Path) : IO FileTree := do
  let directory ← IO.currentDir
  let mut tree : FileTree := ∅
  for count in List.range working.length do
    tree := tree.put (working.take (count + 1)) .directory
  for entry in ← directory.readDir do
    tree ← snapshot entry working tree
  return tree

/-- Writes what is new or changed in a tree. -/
def writeBack (before after : FileTree) : IO Unit :=
  for (path, item) in after.toList do
    if before.get? path != some item then
      match item with
      | .directory => IO.FS.createDirAll path.toString
      | .file bytes => IO.FS.writeBinFile path.toString ⟨bytes.toArray⟩

end ComponentCompiler.Main

open ComponentCompiler in
/-- Runs a command line on the files below the working directory. -/
def main (args : List String) : IO UInt32 := do
  let directory ← IO.currentDir
  let working := (Files.PathText.ofString directory.toString).names
  let tree ← Main.workingTree working
  let answer := Command.run tree working args
  IO.print answer.output
  Main.writeBack tree answer.tree
  return UInt32.ofNat answer.exitCode
