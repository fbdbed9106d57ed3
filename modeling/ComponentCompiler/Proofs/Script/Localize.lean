import ComponentCompiler.Script.Check
import ComponentCompiler.Script.Reference

/-!
# Trees with their references replaced

Replacing the references of a text by the names they stand for is a change of its tree: each
reference becomes a name, or a member of the container of the props where props are qualified, and
everything else stays. The tree that comes of it covers the replaced text. It holds nodes of the
same forms as before, but for the members that were references, and everything in it fits the role
that it had before.

## Main definitions

* `Reference.localTree` — the tree of the text that stands for a reference
* `Tree.localize`, `localizeRow` — replaces the references in a tree, or in a row of trees

## Main results

* `Tree.text_localize` — the replaced tree covers the replaced text
* `Tree.fits_localize` — the replaced tree fits the role of the tree
-/

namespace ComponentCompiler.Script

/-- The tree of the text that stands for a reference where the code runs. -/
def Reference.localTree (qualifyProps : Bool) (r : Reference) : Tree :=
  match r.container, qualifyProps with
  | .props, true =>
    .node .member [.token .identifier "props".toList, .token .punctuator ['.'],
      .token .propertyName r.member]
  | _, _ => .token .identifier r.member

mutual

/-- Replaces the references in a tree by the names they stand for. -/
def Tree.localize (qualifyProps : Bool) : Tree → Tree
  | .token kind text => .token kind text
  | .node form children =>
    match Tree.reference? (.node form children) with
    | some reference => reference.localTree qualifyProps
    | none => .node form (localizeRow qualifyProps children)

/-- Replaces the references in a row of trees by the names they stand for. -/
def localizeRow (qualifyProps : Bool) : List Tree → List Tree
  | [] => []
  | tree :: rest => tree.localize qualifyProps :: localizeRow qualifyProps rest

end

variable {qualifyProps : Bool}

@[simp] theorem Tree.localize_token (kind : TokenKind) (text : List Char) :
    (Tree.token kind text).localize qualifyProps = .token kind text := by
  simp [Tree.localize]

theorem Tree.localize_of_reference {form : Form} {children : List Tree} {reference : Reference}
    (found : (Tree.node form children).reference? = some reference) :
    (Tree.node form children).localize qualifyProps = reference.localTree qualifyProps := by
  simp [Tree.localize, found]

theorem Tree.localize_of_none {form : Form} {children : List Tree}
    (absent : (Tree.node form children).reference? = none) :
    (Tree.node form children).localize qualifyProps =
      .node form (localizeRow qualifyProps children) := by
  simp [Tree.localize, absent]

@[simp] theorem localizeRow_nil : localizeRow qualifyProps [] = [] := by
  simp [localizeRow]

@[simp] theorem localizeRow_cons (tree : Tree) (rest : List Tree) :
    localizeRow qualifyProps (tree :: rest) =
      tree.localize qualifyProps :: localizeRow qualifyProps rest := by
  simp [localizeRow]

theorem localizeRow_eq_map (row : List Tree) :
    localizeRow qualifyProps row = row.map (Tree.localize qualifyProps) := by
  induction row with
  | nil => simp
  | cons tree rest ih => simp [ih]

/-! ### The text of the replaced tree -/

theorem Reference.text_localTree (r : Reference) :
    (r.localTree qualifyProps).text = r.localText qualifyProps := by
  obtain ⟨container, member⟩ := r
  cases container <;> cases qualifyProps <;> simp [Reference.localTree, Reference.localText]

mutual

/-- The replaced tree covers the replaced text. -/
theorem Tree.text_localize : (tree : Tree) →
    (tree.localize qualifyProps).text = tree.pieces.flatMap (Piece.localText qualifyProps)
  | .token kind text => by simp [Tree.pieces, Piece.localText]
  | .node form children => by
    cases found : (Tree.node form children).reference? with
    | some reference =>
      rw [Tree.localize_of_reference found, Reference.text_localTree]
      simp [Tree.pieces, found, Piece.localText]
    | none =>
      rw [Tree.localize_of_none found, Tree.text_node, textOf_localizeRow children]
      simp [Tree.pieces, found]

theorem textOf_localizeRow : (row : List Tree) →
    textOf (localizeRow qualifyProps row) =
      (piecesOf row).flatMap (Piece.localText qualifyProps)
  | [] => by simp [piecesOf]
  | tree :: rest => by
    simp [piecesOf, Tree.text_localize tree, textOf_localizeRow rest]

end

theorem text_localize_ofCode (code : List Char) :
    ((Snippet.ofCode code).tree.localize qualifyProps).text =
      localizeReferences qualifyProps code :=
  Tree.text_localize _

/-! ### References in the replaced tree -/

/-- A reference is a member of its container, which is a name or itself a reference. -/
theorem Tree.eq_member_of_reference? {tree : Tree} {reference : Reference}
    (found : tree.reference? = some reference) :
    ∃ object, tree = .node .member [object, .token .punctuator ['.'],
        .token .propertyName reference.member] ∧
      ((∃ name, object = .token .identifier name ∧
          Container.ofName? name = some reference.container) ∨
        ∃ inner, object.reference? = some inner ∧
          Container.ofName? inner.member = some reference.container) := by
  unfold Tree.reference? at found
  split at found
  · next object member =>
    split at found
    · next name =>
      obtain ⟨container, known, rfl⟩ := Option.map_eq_some_iff.1 found
      exact ⟨_, rfl, .inl ⟨name, rfl, known⟩⟩
    · obtain ⟨container, known, rfl⟩ := Option.map_eq_some_iff.1 found
      obtain ⟨inner, innerFound, known⟩ := Option.bind_eq_some_iff.1 known
      exact ⟨_, rfl, .inr ⟨inner, innerFound, known⟩⟩
  · cases found

/-- The reference that a member is, if its object is a reference. -/
theorem Tree.reference?_member_of_reference? {object : Tree} {inner : Reference}
    (found : object.reference? = some inner) (member : List Char) :
    (Tree.node .member [object, .token .punctuator ['.'], .token .propertyName member]).reference? =
      (Container.ofName? inner.member).map (⟨·, member⟩) := by
  obtain ⟨outer, same, -⟩ := Tree.eq_member_of_reference? found
  rw [Tree.reference?]
  · rw [found, Option.bind_some]
  · rintro name rfl
    cases same

theorem Reference.reference?_localTree (r : Reference) :
    (r.localTree qualifyProps).reference? =
      if r.container = .props ∧ qualifyProps = true then some r else none := by
  obtain ⟨container, member⟩ := r
  cases container <;> cases qualifyProps <;>
    simp [Reference.localTree, Tree.reference?, Container.ofName?]

/-- Only a token becomes a token of a kind other than that of names. -/
theorem Tree.eq_token_of_localize {tree : Tree} {kind : TokenKind} {text : List Char}
    (other : kind ≠ .identifier) (same : tree.localize qualifyProps = .token kind text) :
    tree = .token kind text := by
  cases tree with
  | token own ownText => simpa using same
  | node form children =>
    cases found : (Tree.node form children).reference? with
    | none =>
      rw [Tree.localize_of_none found] at same
      cases same
    | some reference =>
      rw [Tree.localize_of_reference found] at same
      obtain ⟨container, member⟩ := reference
      cases container <;> cases qualifyProps <;> simp [Reference.localTree] at same
      all_goals exact absurd same.1.symm other

theorem Tree.localize_of_found {tree : Tree} {reference : Reference}
    (found : tree.reference? = some reference) :
    tree.localize qualifyProps = reference.localTree qualifyProps := by
  cases tree with
  | token kind text => simp [Tree.reference?] at found
  | node form children => exact Tree.localize_of_reference found

theorem Reference.member_of_localTree {r : Reference} {name : List Char}
    (same : r.localTree qualifyProps = .token .identifier name) : r.member = name := by
  obtain ⟨container, member⟩ := r
  cases container <;> cases qualifyProps <;> simp_all [Reference.localTree]

/-- A name that stands in the replaced tree and replaces no reference stood in the tree before. -/
theorem Tree.eq_name_of_localize {tree : Tree} {text : List Char} (absent : tree.reference? = none)
    (same : tree.localize qualifyProps = .token .identifier text) :
    tree = .token .identifier text := by
  cases tree with
  | token own ownText => simpa using same
  | node form children =>
    rw [Tree.localize_of_none absent] at same
    cases same

/-- What is no reference is none after its references were replaced. -/
theorem Tree.reference?_localize_of_none : (tree : Tree) → tree.reference? = none →
    (tree.localize qualifyProps).reference? = none
  | .token kind text, _ => by simp [Tree.reference?]
  | .node form children, absent => by
    rw [Tree.localize_of_none absent]
    cases found : (Tree.node form (localizeRow qualifyProps children)).reference? with
    | none => rfl
    | some reference =>
      obtain ⟨newObject, same, objectIs⟩ := Tree.eq_member_of_reference? found
      injection same with sameForm sameRow
      subst sameForm
      rw [localizeRow_eq_map] at sameRow
      obtain ⟨object, afterObject, rfl, rfl, dotRow⟩ := List.map_eq_cons_iff.1 sameRow
      obtain ⟨dot, afterDot, rfl, sameDot, nameRow⟩ := List.map_eq_cons_iff.1 dotRow
      obtain ⟨name, afterName, rfl, sameName, noRow⟩ := List.map_eq_cons_iff.1 nameRow
      obtain rfl := List.map_eq_nil_iff.1 noRow
      obtain rfl := Tree.eq_token_of_localize (by decide) sameDot
      obtain rfl := Tree.eq_token_of_localize (by decide) sameName
      cases objectFound : object.reference? with
      | none =>
        rcases objectIs with ⟨container, sameObject, known⟩ | ⟨inner, innerFound, -⟩
        · obtain rfl := Tree.eq_name_of_localize objectFound sameObject
          simp [Tree.reference?, known] at absent
        · rw [Tree.reference?_localize_of_none object objectFound] at innerFound
          cases innerFound
      | some inner =>
        -- The object stands for the member of a reference, which is no container here.
        rw [Tree.reference?_member_of_reference? objectFound] at absent
        have unknown : Container.ofName? inner.member = none := by
          simpa using absent
        rw [Tree.localize_of_found objectFound] at objectIs
        rcases objectIs with ⟨container, sameObject, known⟩ | ⟨outer, outerFound, known⟩
        · obtain rfl := Reference.member_of_localTree sameObject
          rw [unknown] at known
          cases known
        · rw [Reference.reference?_localTree] at outerFound
          split at outerFound
          · cases outerFound
            rw [unknown] at known
            cases known
          · cases outerFound

/-! ### The form and the role of the replaced tree -/

theorem Reference.isForm_localTree {form : Form} (other : form ≠ .member) (r : Reference) :
    (r.localTree qualifyProps).isForm form = false := by
  obtain ⟨container, member⟩ := r
  cases container <;> cases qualifyProps <;>
    simp [Reference.localTree, Tree.isForm, Tree.form?, Ne.symm other]

/-- Replacing references turns members into names, and keeps every other form. -/
theorem Tree.isForm_localize {form : Form} (other : form ≠ .member) (tree : Tree) :
    (tree.localize qualifyProps).isForm form = tree.isForm form := by
  cases tree with
  | token kind text => simp
  | node own children =>
    cases found : (Tree.node own children).reference? with
    | none => simp [Tree.localize_of_none found, Tree.isForm, Tree.form?]
    | some reference =>
      obtain ⟨object, same, -⟩ := Tree.eq_member_of_reference? found
      rw [Tree.localize_of_reference found, Reference.isForm_localTree other, same]
      simp [Tree.isForm, Tree.form?, Ne.symm other]

/-- What stands for a reference fits every role that a member fits. -/
theorem Reference.fits_localTree {role : Role} (free : role ≠ .binding) (r : Reference) :
    (r.localTree qualifyProps).fits role = true := by
  obtain ⟨container, member⟩ := r
  cases role with
  | binding => exact absurd rfl free
  | value | pattern =>
    cases container <;> cases qualifyProps <;>
      simp [Reference.localTree, Tree.fits, rolesOf, rowFits, tokenFits]

/-- A reference declares no name. -/
theorem Tree.not_fits_binding_of_reference? {tree : Tree} {reference : Reference}
    (found : tree.reference? = some reference) : tree.fits .binding = false := by
  obtain ⟨object, rfl, -⟩ := Tree.eq_member_of_reference? found
  simp [Tree.fits, rolesOf, rolesInPattern]

mutual

/-- The replaced tree fits the role of the tree. -/
theorem Tree.fits_localize (role : Role) : (tree : Tree) → tree.fits role = true →
    (tree.localize qualifyProps).fits role = true
  | .token kind text, fit => by simpa using fit
  | .node form children, fit => by
    cases found : (Tree.node form children).reference? with
    | some reference =>
      rw [Tree.localize_of_reference found]
      refine Reference.fits_localTree ?_ reference
      rintro rfl
      rw [Tree.not_fits_binding_of_reference? found] at fit
      cases fit
    | none =>
      rw [Tree.localize_of_none found]
      unfold Tree.fits at fit ⊢
      split at fit
      · cases fit
      · next first others roles =>
        exact rowFits_localizeRow first others children fit

theorem rowFits_localizeRow (first others : Role) : (row : List Tree) →
    rowFits first others row = true → rowFits first others (localizeRow qualifyProps row) = true
  | [], _ => by simp [rowFits]
  | tree :: rest, fit => by
    rw [rowFits, Bool.and_eq_true] at fit
    rw [localizeRow_cons, rowFits, Bool.and_eq_true]
    exact ⟨Tree.fits_localize first tree fit.1, rowFits_localizeRow others others rest fit.2⟩

end

end ComponentCompiler.Script
