import ComponentCompiler.Script.Reference

/-!
# Places of a tree

A place leads from the root of a tree to one of its subtrees: it lists which child is taken at each
node on the way. The references that are replaced are the outermost ones, those with no reference on
the way to them. They are the references among the pieces of the tree: a piece that holds a
reference starts where its subtree starts, and holds the text of the subtree.

## Main definitions

* `Tree.subtree?` — the subtree at a place
* `Tree.textBefore` — the text in front of a place
* `Tree.IsOutermost` — the references that stand in no other reference
* `Piece.Occurs` — where a row of pieces holds a reference

## Main results

* `Tree.occurs_pieces_iff` — the references among the pieces of a tree are its outermost ones
-/

namespace ComponentCompiler.Script

namespace Tree

/-- The trees right below a tree. -/
def children : Tree → List Tree
  | .token _ _ => []
  | .node _ row => row

@[simp] theorem children_token (kind : TokenKind) (text : List Char) :
    (Tree.token kind text).children = [] := rfl

@[simp] theorem children_node (form : Form) (row : List Tree) :
    (Tree.node form row).children = row := rfl

theorem sizeOf_lt_of_mem_children {tree child : Tree} (member : child ∈ tree.children) :
    sizeOf child < sizeOf tree := by
  cases tree with
  | token kind text => simp at member
  | node form row =>
    have smaller : sizeOf child < sizeOf row := List.sizeOf_lt_of_mem member
    simp only [Tree.node.sizeOf_spec]
    omega

/-- What holds of a tree if it holds of the trees right below it holds of every tree. -/
theorem induct {motive : Tree → Prop}
    (step : ∀ tree : Tree, (∀ child ∈ tree.children, motive child) → motive tree) (tree : Tree) :
    motive tree :=
  step tree fun child member =>
    have _ := sizeOf_lt_of_mem_children member
    induct step child
termination_by sizeOf tree

/-- The subtree that is reached by taking the listed children. -/
def subtree? : Tree → List Nat → Option Tree
  | tree, [] => some tree
  | tree, index :: place => tree.children[index]?.bind (subtree? · place)

/-- The text of a tree in front of the subtree at a place. -/
def textBefore : Tree → List Nat → List Char
  | _, [] => []
  | tree, index :: place =>
    textOf (tree.children.take index) ++
      (tree.children[index]?.map (textBefore · place)).getD []

@[simp] theorem subtree?_nil (tree : Tree) : tree.subtree? [] = some tree := rfl

@[simp] theorem subtree?_cons (tree : Tree) (index : Nat) (place : List Nat) :
    tree.subtree? (index :: place) = tree.children[index]?.bind (subtree? · place) := rfl

/-- A place leads on from the subtree that its front leads to. -/
theorem subtree?_append (tree : Tree) (front back : List Nat) :
    tree.subtree? (front ++ back) = (tree.subtree? front).bind (subtree? · back) := by
  induction front generalizing tree with
  | nil => rfl
  | cons index front ih => simp [ih, Option.bind_assoc]

/-- The reference that the subtree at a place is, if no subtree on the way to it is one. -/
structure IsOutermost (tree : Tree) (place : List Nat) (target : Reference) : Prop where
  found : (tree.subtree? place).bind reference? = some target
  topmost : ∀ front back, front ++ back = place → back ≠ [] →
    (tree.subtree? front).bind reference? = none

theorem isOutermost_nil {tree : Tree} {target : Reference} :
    tree.IsOutermost [] target ↔ tree.reference? = some target := by
  constructor
  · intro outermost
    exact outermost.found
  · intro found
    refine ⟨found, ?_⟩
    intro front back whole inside
    exact absurd (List.append_eq_nil_iff.1 whole).2 inside

theorem isOutermost_cons {tree : Tree} {index : Nat} {place : List Nat} {target : Reference} :
    tree.IsOutermost (index :: place) target ↔
      tree.reference? = none ∧
        ∃ child, tree.children[index]? = some child ∧ child.IsOutermost place target := by
  constructor
  · intro outermost
    have found := outermost.found
    rw [subtree?_cons] at found
    cases present : tree.children[index]? with
    | none => simp [present] at found
    | some child =>
      rw [present] at found
      refine ⟨outermost.topmost [] _ rfl (by simp), child, rfl, found, ?_⟩
      intro front back whole inside
      simpa [present] using outermost.topmost (index :: front) back (by simp [whole]) inside
  · rintro ⟨absent, child, present, found, topmost⟩
    refine ⟨by simpa [present] using found, ?_⟩
    intro front back whole inside
    cases front with
    | nil => exact absent
    | cons first front =>
      obtain ⟨rfl, rest⟩ := List.cons.inj whole
      simpa [present] using topmost front back rest inside

/-- Below a subtree with no reference on the way to it, the outermost references are those of the
subtree. -/
theorem isOutermost_append {tree sub : Tree} {place below : List Nat} {target : Reference}
    (here : tree.subtree? place = some sub)
    (free : ∀ front back, front ++ back = place → back ≠ [] →
      (tree.subtree? front).bind reference? = none) :
    tree.IsOutermost (place ++ below) target ↔ sub.IsOutermost below target := by
  induction place generalizing tree with
  | nil =>
    obtain rfl := Option.some.inj here
    rfl
  | cons index place ih =>
    rw [List.cons_append, isOutermost_cons]
    obtain ⟨child, present, inside⟩ := Option.bind_eq_some_iff.1 here
    have absent : tree.reference? = none := free [] _ rfl (by simp)
    have inner := ih inside fun front back whole nonempty => by
      simpa [present] using free (index :: front) back (by simp [whole]) nonempty
    simp [absent, present, inner]

end Tree

/-! ### References among pieces -/

namespace Piece

/-- A row of pieces holds a reference, written as given, behind the given text. -/
def Occurs (pieces : List Piece) (before written : List Char) (target : Reference) : Prop :=
  ∃ front back, pieces = front ++ .reference written target :: back ∧
    front.flatMap Piece.text = before

variable {before written : List Char} {target : Reference}

theorem not_occurs_nil : ¬ Occurs [] before written target := by
  rintro ⟨front, back, same, -⟩
  simp at same

theorem occurs_singleton {piece : Piece} :
    Occurs [piece] before written target ↔ piece = .reference written target ∧ before = [] := by
  constructor
  · rintro ⟨front, back, same, rfl⟩
    obtain ⟨rfl, last⟩ | ⟨rfl, none⟩ := List.singleton_eq_append_iff.1 same
    · obtain ⟨rfl, -⟩ := List.cons.inj last
      exact ⟨rfl, rfl⟩
    · cases none
  · rintro ⟨rfl, rfl⟩
    exact ⟨[], [], rfl, rfl⟩

theorem occurs_append {pieces others : List Piece} :
    Occurs (pieces ++ others) before written target ↔
      Occurs pieces before written target ∨
        ∃ later, Occurs others later written target ∧
          before = pieces.flatMap Piece.text ++ later := by
  constructor
  · rintro ⟨front, back, same, rfl⟩
    -- The reference starts in the second row, or the first row reaches beyond its front.
    rcases List.append_eq_append_iff.1 same with ⟨middle, rfl, rfl⟩ | ⟨middle, rfl, rest⟩
    · exact .inr ⟨_, ⟨middle, back, rfl, rfl⟩, by simp⟩
    · cases middle with
      | nil => exact .inr ⟨[], ⟨[], back, rest.symm, rfl⟩, by simp⟩
      | cons piece middle =>
        obtain ⟨rfl, rfl⟩ := List.cons.inj rest
        exact .inl ⟨front, middle, rfl, rfl⟩
  · rintro (⟨front, back, rfl, rfl⟩ | ⟨later, ⟨front, back, rfl, rfl⟩, rfl⟩)
    · exact ⟨front, back ++ others, by simp, rfl⟩
    · exact ⟨pieces ++ front, back, by simp, by simp⟩

/-- A row of trees holds the references of its trees, each behind the text of the trees before. -/
theorem occurs_piecesOf {row : List Tree} :
    Occurs (piecesOf row) before written target ↔
      ∃ index child later, row[index]? = some child ∧
        Occurs child.pieces later written target ∧
        before = textOf (row.take index) ++ later := by
  induction row generalizing before with
  | nil => simp [piecesOf, not_occurs_nil]
  | cons tree rest ih =>
    rw [piecesOf, occurs_append]
    constructor
    · rintro (here | ⟨later, there, rfl⟩)
      · exact ⟨0, tree, before, rfl, here, rfl⟩
      · obtain ⟨index, child, inner, present, occurs, rfl⟩ := ih.1 there
        exact ⟨index + 1, child, inner, present, occurs, by simp [Tree.text_pieces]⟩
    · rintro ⟨index, child, later, present, occurs, rfl⟩
      cases index with
      | zero =>
        obtain rfl := Option.some.inj present
        exact .inl occurs
      | succ index =>
        refine .inr ⟨_, ih.2 ⟨index, child, later, present, occurs, rfl⟩, ?_⟩
        simp [Tree.text_pieces]

end Piece

namespace Tree

theorem pieces_of_reference {tree : Tree} {target : Reference}
    (found : tree.reference? = some target) : tree.pieces = [.reference tree.text target] := by
  cases tree with
  | token kind text => simp [reference?] at found
  | node form row => simp [pieces, found]

/-- What is no reference holds the references of the trees right below it. -/
theorem occurs_pieces_of_none {tree : Tree} {before written : List Char} {target : Reference}
    (absent : tree.reference? = none) :
    Piece.Occurs tree.pieces before written target ↔
      Piece.Occurs (piecesOf tree.children) before written target := by
  cases tree with
  | token kind text => simp [pieces, piecesOf, Piece.occurs_singleton, Piece.not_occurs_nil]
  | node form row => simp [pieces, absent]

/-- The references among the pieces of a tree are its outermost ones, as they stand in its text. -/
theorem occurs_pieces_iff (tree : Tree) {before written : List Char} {target : Reference} :
    Piece.Occurs tree.pieces before written target ↔
      ∃ place, tree.IsOutermost place target ∧ tree.textBefore place = before ∧
        (tree.subtree? place).map text = some written := by
  -- Each child starts behind a text of its own, so the text in front is general.
  induction tree using Tree.induct generalizing before with
  | step tree ih =>
    cases found : tree.reference? with
    | some own =>
      -- The tree is the reference itself, and no place below it is outermost.
      rw [pieces_of_reference found, Piece.occurs_singleton]
      constructor
      · rintro ⟨same, rfl⟩
        injection same with same here
        exact ⟨[], isOutermost_nil.2 (here ▸ found), rfl, by simp [same]⟩
      · rintro ⟨place, outermost, rfl, covers⟩
        cases place with
        | nil =>
          obtain rfl := Option.some.inj (found.symm.trans (isOutermost_nil.1 outermost))
          exact ⟨by rw [Option.some.inj covers], rfl⟩
        | cons index place =>
          rw [isOutermost_cons, found] at outermost
          cases outermost.1
    | none =>
      -- The references are those of the children, and their places start one step higher.
      rw [occurs_pieces_of_none found, Piece.occurs_piecesOf]
      constructor
      · rintro ⟨index, child, later, present, occurs, rfl⟩
        obtain ⟨place, outermost, rfl, covers⟩ :=
          (ih child (List.mem_of_getElem? present)).1 occurs
        exact ⟨index :: place, isOutermost_cons.2 ⟨found, child, present, outermost⟩,
          by simp [textBefore, present], by simpa [present] using covers⟩
      · rintro ⟨place, outermost, rfl, covers⟩
        cases place with
        | nil =>
          rw [isOutermost_nil, found] at outermost
          cases outermost
        | cons index place =>
          obtain ⟨-, child, present, inner⟩ := isOutermost_cons.1 outermost
          refine ⟨index, child, child.textBefore place, present, ?_, by simp [textBefore, present]⟩
          exact (ih child (List.mem_of_getElem? present)).2
            ⟨place, inner, rfl, by simpa [present] using covers⟩

end Tree

end ComponentCompiler.Script
