import ComponentCompiler.Script.Tree

/-!
# Patterns and values

An object or array literal reads like the pattern that takes such a value apart, and the grammar
reads both alike. Which of the two a literal is depends on where it stands: before an equals sign,
among the parameters of a function, or in the head of a loop over items it is a pattern, elsewhere
it is a value. A value has no entries with default values, and a pattern has no methods and binds
or assigns to targets only. A pattern that declares names, as parameters do, cannot assign to
members. This file looks at a finished tree and decides whether every literal fits its place.

## Main definitions

* `Role` — whether a tree stands for a value or for a pattern of either kind
* `Tree.fits` — whether a tree, and everything in it, fits its role
-/

namespace ComponentCompiler.Script

/-- What a tree stands for at its place. -/
inductive Role where
  | value
  /-- A pattern that assigns. -/
  | pattern
  /-- A pattern that declares names. -/
  | binding
deriving DecidableEq, Repr

/-- The roles of the first child and of the other children of a node in the role of a pattern. Keys
of entries and default values are values. -/
def rolesInPattern (role : Role) : Form → Option (Role × Role)
  | .object | .array | .spread => some (role, role)
  | .pair => some (.value, role)
  | .assignment | .shorthandDefault => some (role, .value)
  | _ => none

/-- The roles of the first child and of the other children of a node in a role; `none` if such a
node cannot play that role. -/
def rolesOf (role : Role) (form : Form) : Option (Role × Role) :=
  match role, form with
  | .value, .shorthandDefault => none
  | .value, .assignment => some (.pattern, .value)
  | .value, .declarator => some (.binding, .value)
  | .value, .parameters => some (.binding, .binding)
  | .value, .target => some (.pattern, .pattern)
  | .value, _ => some (.value, .value)
  | .pattern, .member | .pattern, .subscript | .pattern, .parenthesized => some (.value, .value)
  | role, form => rolesInPattern role form

/-- The tokens that can stand in a role. A pattern names what it declares or assigns to. -/
def tokenFits (role : Role) (kind : TokenKind) : Bool :=
  role == .value || [.identifier, .shorthand, .punctuator, .blank, .comment].contains kind

mutual

/-- Whether a tree, and everything in it, fits its role. -/
def Tree.fits (role : Role) : Tree → Bool
  | .token kind _ => tokenFits role kind
  | .node form children =>
    match rolesOf role form with
    | none => false
    | some (first, others) => rowFits first others children

/-- Whether the first tree of a row fits one role and the others another. -/
def rowFits (first others : Role) : List Tree → Bool
  | [] => true
  | tree :: rest => tree.fits first && rowFits others others rest

end

end ComponentCompiler.Script
