import ComponentCompiler.Text.Line

/-!
# Paths

A path is written as names between slashes. Empty names and single dots mean nothing and are left
out; a double dot leads up. A path that does not start with a slash starts at the working directory.

## Main definitions

* `Path` — a place in a tree of files: the names that lead there from the top
* `PathText` — a path as it is written
* `PathText.resolve` — the place that a written path leads to
* `Path.pathBefore` — the order of paths

## Main results

* `climb_of_plain` — names without dots lead straight down
-/

namespace ComponentCompiler.Files

/-- A place in a tree of files: the names that lead there from the top. -/
abbrev Path := List String

/-- A path as it is written. -/
structure PathText where
  absolute : Bool
  names : List String
deriving DecidableEq, Repr

/-- The names between the slashes of a text. -/
def rawNames (text : String) : List String :=
  (Text.splitAt '/' text.toList).map String.ofList

namespace PathText

/-- The path that a text stands for. -/
def ofString (text : String) : PathText where
  absolute := text.toList.head? == some '/'
  names := (rawNames text).filter fun name => name != "" && name != "."

/-- The text of a path. The path without names is a dot, or a slash at the top. -/
def toString (path : PathText) : String :=
  match path.absolute, path.names with
  | true, names => "/" ++ "/".intercalate names
  | false, [] => "."
  | false, names => "/".intercalate names

/-- The path with a name behind it. -/
def child (path : PathText) (name : String) : PathText :=
  { path with names := path.names ++ [name] }

/-- The path without its last name. -/
def parent (path : PathText) : PathText :=
  { path with names := path.names.dropLast }

end PathText

/-- Follows names from a place: a double dot leads up and stays at the top there. -/
def climb (start : Path) : List String → Path
  | [] => start
  | name :: rest => if name = ".." then climb start.dropLast rest else climb (start ++ [name]) rest

theorem climb_of_plain {names : List String} (plain : ".." ∉ names) (start : Path) :
    climb start names = start ++ names := by
  induction names generalizing start with
  | nil => simp [climb]
  | cons name rest ih =>
    simp only [List.mem_cons, not_or] at plain
    simp [climb, Ne.symm plain.1, ih plain.2]

/-- The place that a written path leads to from a working directory. -/
def PathText.resolve (working : Path) (path : PathText) : Path :=
  climb (if path.absolute then [] else working) path.names

namespace Path

/-- The text of a place, from the top. -/
def toString (path : Path) : String :=
  "/" ++ "/".intercalate path

/-- The part of a place below another one; `none` if it does not lie below it or at it. -/
def below? (outer path : Path) : Option Path :=
  if outer.isPrefixOf path then some (path.drop outer.length) else none

/-- Whether a place is another one or lies below it. -/
def isWithin (outer path : Path) : Bool :=
  outer.isPrefixOf path

/-- The order of paths: name by name, and a place before those below it. -/
def pathBefore : Path → Path → Bool
  | [], _ => true
  | _ :: _, [] => false
  | a :: as, b :: bs => if a = b then pathBefore as bs else decide (a < b)

end Path

end ComponentCompiler.Files
