import ComponentCompiler.Script.Snippet

/-!
# References to state and props

A component's code reaches its state and its props through two containers: `state.x` and
`props.x`. A chain of containers counts as one access, so `state.props.x` is the prop `x`. Only a
plain dot with nothing around it makes a reference; optional chaining, subscripts and accesses with
blanks around the dot are left alone.

A tree falls into the references in it and the text between them. Each reference is replaced by the
name it stands for, and the text between stays as written.

## Main definitions

* `Container`, `Reference` — what is accessed through what
* `Tree.reference?` — the reference that a tree is
* `Tree.pieces` — the references in a tree and the text between them
* `localizeReferences` — replaces references by the names they stand for
* `propReferences` — the props that a text refers to

## Main results

* `Tree.text_pieces` — the pieces of a tree cover its text
-/

namespace ComponentCompiler.Script

/-- The two objects through which a component's code reaches its data. -/
inductive Container where
  | state | props
deriving DecidableEq, Repr

/-- The container with the given name. -/
def Container.ofName? (name : List Char) : Option Container :=
  if name = ['s', 't', 'a', 't', 'e'] then some .state
  else if name = ['p', 'r', 'o', 'p', 's'] then some .props
  else none

/-- A member of a container. -/
structure Reference where
  container : Container
  member : List Char
deriving DecidableEq, Repr

/-- The reference that a tree is, if it is one. -/
def Tree.reference? : Tree → Option Reference
  | .node .member [object, .token .punctuator ['.'], .token .propertyName member] =>
    match object with
    | .token .identifier name => (Container.ofName? name).map (⟨·, member⟩)
    | object =>
      (object.reference?.bind fun inner => Container.ofName? inner.member).map (⟨·, member⟩)
  | _ => none

/-- A part of a text: a reference as written, or text that holds none. -/
inductive Piece where
  | verbatim (text : List Char)
  | reference (text : List Char) (target : Reference)
deriving DecidableEq, Repr

/-- The text that a piece covers. -/
def Piece.text : Piece → List Char
  | .verbatim text | .reference text _ => text

mutual

/-- The references in a tree and the text between them. A reference is not searched for further
ones. -/
def Tree.pieces : Tree → List Piece
  | .token _ text => [.verbatim text]
  | .node form children =>
    match Tree.reference? (.node form children) with
    | some reference => [.reference (textOf children) reference]
    | none => piecesOf children

/-- The references in a row of trees and the text between them. -/
def piecesOf : List Tree → List Piece
  | [] => []
  | tree :: rest => tree.pieces ++ piecesOf rest

end

mutual

theorem Tree.text_pieces : (tree : Tree) → tree.pieces.flatMap Piece.text = tree.text
  | .token _ text => by simp [Tree.pieces, Piece.text]
  | .node form children => by
    unfold Tree.pieces
    split
    · simp [Piece.text]
    · simpa using text_piecesOf children

theorem text_piecesOf : (row : List Tree) → (piecesOf row).flatMap Piece.text = textOf row
  | [] => by simp [piecesOf]
  | tree :: rest => by
    simp [piecesOf, Tree.text_pieces tree, text_piecesOf rest]

end

/-- The text that stands for a reference where the code runs. Members of the state are local names
everywhere. Props are local names too, but where they are only reachable through their container
the reference is qualified. -/
def Reference.localText (qualifyProps : Bool) (r : Reference) : List Char :=
  match r.container, qualifyProps with
  | .props, true => "props.".toList ++ r.member
  | _, _ => r.member

/-- The text of a piece where the code runs. -/
def Piece.localText (qualifyProps : Bool) : Piece → List Char
  | .verbatim text => text
  | .reference _ target => target.localText qualifyProps

/-- Replaces the references of a text by the names they stand for. -/
def localizeReferences (qualifyProps : Bool) (code : List Char) : List Char :=
  (Snippet.ofCode code).tree.pieces.flatMap (Piece.localText qualifyProps)

/-- The prop that a piece refers to. -/
def Piece.prop? : Piece → Option (List Char)
  | .reference _ ⟨.props, member⟩ => some member
  | _ => none

/-- Keeps the first occurrence of each item. -/
def firstOccurrences {α : Type} [BEq α] (items : List α) : List α :=
  items.foldl (fun seen item => if seen.contains item then seen else seen ++ [item]) []

theorem mem_foldl_firstOccurrences {α : Type} [BEq α] [LawfulBEq α] {item : α}
    (items seen : List α) :
    item ∈ items.foldl (fun seen item => if seen.contains item then seen else seen ++ [item]) seen ↔
      item ∈ seen ∨ item ∈ items := by
  induction items generalizing seen with
  | nil => simp
  | cons first rest ih =>
    rw [List.foldl_cons, ih]
    by_cases known : first ∈ seen
    · rw [if_pos (List.contains_iff_mem.2 known)]
      constructor
      · rintro (old | new)
        · exact .inl old
        · exact .inr (List.mem_cons_of_mem _ new)
      · rintro (old | new)
        · exact .inl old
        · rcases List.mem_cons.1 new with rfl | later
          · exact .inl known
          · exact .inr later
    · rw [if_neg (fun found => known (List.contains_iff_mem.1 found))]
      simp [or_assoc]

/-- Keeping first occurrences loses no item. -/
@[simp] theorem mem_firstOccurrences {α : Type} [BEq α] [LawfulBEq α] {item : α} {items : List α} :
    item ∈ firstOccurrences items ↔ item ∈ items := by
  rw [firstOccurrences, mem_foldl_firstOccurrences]
  simp

/-- The props that a text refers to, in the order of their first reference. -/
def propReferences (code : List Char) : List (List Char) :=
  firstOccurrences ((Snippet.ofCode code).tree.pieces.filterMap Piece.prop?)

end ComponentCompiler.Script
