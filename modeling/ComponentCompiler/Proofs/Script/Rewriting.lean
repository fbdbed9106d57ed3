import ComponentCompiler.Proofs.Embedding.FixedPoint
import ComponentCompiler.Proofs.Script.Places
import ComponentCompiler.Proofs.Script.Splice
import Mathlib.Data.List.Induction

/-!
# Replacing references through their bytes

The references of a text can be found by a walk over its tree that keeps the trees still to be
visited on a stack, together with the positions of their first bytes in what was parsed. That is the
text itself, or the text behind an opening parenthesis, by which all positions are off. The
references are then replaced by edits of the bytes. A text in which no container is named needs no
parser at all.

This file shows that the walk finds the references among the pieces of the tree, in their order, and
that the edits turn the bytes of the text into those of the text with its pieces replaced.

## Main definitions

* `sweep` — the walk, which finds references with the bytes they cover
* `Snippet.lead` — the number of bytes in front of the text in what was parsed
* `Snippet.findings`, `Finding.edit` — the references of a snippet, and the edit that replaces one
* `Decomposes` — pieces that are the outermost references of a text and the text around them

## Main results

* `sweep_eq_flatMap` — the walk finds the references among the pieces of the trees
* `Snippet.applyEdits_findings` — the edits replace the pieces of a snippet
* `exists_decomposition` — both ways to replace references and the search for props follow one
  decomposition of the text
-/

namespace ComponentCompiler.Script

/-- A reference with the range of bytes that it covers. -/
structure Finding where
  start : Nat
  stop : Nat
  target : Reference
deriving DecidableEq, Repr

/-- The trees of a row with the positions of their first bytes. -/
def placeRow (start : Nat) : List Tree → List (Nat × Tree)
  | [] => []
  | tree :: rest => (start, tree) :: placeRow (start + (utf8 tree.text).length) rest

@[simp] theorem map_snd_placeRow (start : Nat) (row : List Tree) :
    (placeRow start row).map Prod.snd = row := by
  induction row generalizing start with
  | nil => rfl
  | cons tree rest ih => simp [placeRow, ih]

theorem sizeOf_children_append (tree : Tree) (rest : List Tree) :
    sizeOf (tree.children ++ rest) < sizeOf (tree :: rest) := by
  have joined (row : List Tree) : sizeOf (row ++ rest) + 1 = sizeOf row + sizeOf rest := by
    induction row with
    | nil => simp; omega
    | cons first others ih => simp; omega
  cases tree with
  | token kind text =>
    simp only [Tree.children_token, List.nil_append, List.cons.sizeOf_spec]
    omega
  | node form row =>
    have whole := joined row
    simp only [Tree.children_node, List.cons.sizeOf_spec, Tree.node.sizeOf_spec]
    omega

/-- Visits the trees on a stack, with all trees below them, and finds the references. A reference is
not entered; any other tree is replaced on the stack by the trees right below it. -/
def sweep : List (Nat × Tree) → List Finding
  | [] => []
  | (start, tree) :: stack =>
    match tree.reference? with
    | some target => ⟨start, start + (utf8 tree.text).length, target⟩ :: sweep stack
    | none => sweep (placeRow start tree.children ++ stack)
termination_by stack => sizeOf (stack.map Prod.snd)
decreasing_by
  · simp only [List.map_cons, List.cons.sizeOf_spec]
    omega
  · simpa using sizeOf_children_append tree (stack.map Prod.snd)

/-- The references among pieces whose first byte is at the given position. -/
def findingsFrom (start : Nat) : List Piece → List Finding
  | [] => []
  | .verbatim text :: rest => findingsFrom (start + (utf8 text).length) rest
  | .reference text target :: rest =>
    ⟨start, start + (utf8 text).length, target⟩ :: findingsFrom (start + (utf8 text).length) rest

theorem findingsFrom_append (start : Nat) (pieces others : List Piece) :
    findingsFrom start (pieces ++ others) =
      findingsFrom start pieces ++
        findingsFrom (start + (utf8 (pieces.flatMap Piece.text)).length) others := by
  induction pieces generalizing start with
  | nil => rfl
  | cons piece rest ih => cases piece <;> simp [findingsFrom, ih, Piece.text, Nat.add_assoc]

theorem findingsFrom_piecesOf (start : Nat) (row : List Tree) :
    findingsFrom start (piecesOf row) =
      (placeRow start row).flatMap fun placed => findingsFrom placed.1 placed.2.pieces := by
  induction row generalizing start with
  | nil => rfl
  | cons tree rest ih =>
    rw [piecesOf, findingsFrom_append, Tree.text_pieces, ih]
    rfl

/-- What is no reference holds the findings of the trees right below it. -/
theorem Tree.findingsFrom_pieces_of_none {tree : Tree} (absent : tree.reference? = none)
    (start : Nat) :
    findingsFrom start tree.pieces = findingsFrom start (piecesOf tree.children) := by
  cases tree with
  | token kind text => simp [pieces, piecesOf, findingsFrom]
  | node form row => simp [pieces, absent]

/-- The walk finds the references among the pieces of the trees on the stack, in their order. -/
theorem sweep_eq_flatMap (stack : List (Nat × Tree)) :
    sweep stack = stack.flatMap fun placed => findingsFrom placed.1 placed.2.pieces := by
  -- The stack stands for the pieces of its trees, also after a step.
  induction stack using sweep.induct with
  | case1 => simp [sweep]
  | case2 start tree stack target found ih =>
    rw [sweep, found]
    simp [ih, Tree.pieces_of_reference found, findingsFrom]
  | case3 start tree stack absent ih =>
    rw [sweep, absent]
    simp only [ih, List.flatMap_append, List.flatMap_cons]
    rw [Tree.findingsFrom_pieces_of_none absent, findingsFrom_piecesOf]

/-! ### The references of a snippet -/

/-- The number of bytes that stand in front of a text in what was parsed. -/
def Snippet.lead : Snippet → Nat
  | .expression _ | .faulty _ => 1
  | .statements _ => 0

/-- The references of a snippet, as a walk finds them in what was parsed. -/
def Snippet.findings (snippet : Snippet) : List Finding :=
  sweep [(snippet.lead, snippet.tree)]

/-- The edit that replaces a reference, which was found behind the given number of bytes. -/
def Finding.edit (qualifyProps : Bool) (lead : Nat) (finding : Finding) : Edit :=
  ⟨finding.start - lead, finding.stop - lead, finding.target.localText qualifyProps⟩

/-- The prop that was found. -/
def Finding.prop? (finding : Finding) : Option (List Char) :=
  if finding.target.container = .props then some finding.target.member else none

theorem Snippet.findings_eq (snippet : Snippet) :
    snippet.findings = findingsFrom snippet.lead snippet.tree.pieces := by
  rw [findings, sweep_eq_flatMap]
  simp

theorem filterMap_prop?_findingsFrom (start : Nat) (pieces : List Piece) :
    (findingsFrom start pieces).filterMap Finding.prop? = pieces.filterMap Piece.prop? := by
  induction pieces generalizing start with
  | nil => rfl
  | cons piece rest ih =>
    cases piece with
    | verbatim text => simp [findingsFrom, List.filterMap_cons, Piece.prop?, ih]
    | reference text target =>
      obtain ⟨container, member⟩ := target
      cases container <;> simp [findingsFrom, List.filterMap_cons, Finding.prop?, Piece.prop?, ih]

/-- A piece as a part that is replaced if it is a reference. -/
def Piece.part (qualifyProps : Bool) : Piece → Part
  | .verbatim text => ⟨text, none⟩
  | .reference text target => ⟨text, some (target.localText qualifyProps)⟩

@[simp] theorem Piece.text_part (qualifyProps : Bool) (piece : Piece) :
    (piece.part qualifyProps).text = piece.text := by
  cases piece <;> rfl

@[simp] theorem Piece.newText_part (qualifyProps : Bool) (piece : Piece) :
    (piece.part qualifyProps).newText = piece.localText qualifyProps := by
  cases piece <;> rfl

/-- Without the bytes in front of the text, the findings are the edits of its parts. -/
theorem map_edit_findingsFrom (qualifyProps : Bool) (lead start : Nat) (pieces : List Piece) :
    (findingsFrom (lead + start) pieces).map (Finding.edit qualifyProps lead) =
      editsFrom start (pieces.map (Piece.part qualifyProps)) := by
  induction pieces generalizing start with
  | nil => rfl
  | cons piece rest ih =>
    cases piece with
    | verbatim text =>
      have later := ih (start + (utf8 text).length)
      simpa [findingsFrom, editsFrom, Piece.part, Nat.add_assoc] using later
    | reference text target =>
      have later := ih (start + (utf8 text).length)
      have here : Finding.edit qualifyProps lead
          ⟨lead + start, lead + (start + (utf8 text).length), target⟩ =
            ⟨start, start + (utf8 text).length, target.localText qualifyProps⟩ := by
        simp [Finding.edit]
      simp [findingsFrom, editsFrom, Piece.part, here, ← later, Nat.add_assoc]

/-- The subtree that a reference among the pieces of a tree covers. -/
theorem Tree.exists_of_mem_pieces {tree : Tree} {written : List Char} {target : Reference}
    (member : Piece.reference written target ∈ tree.pieces) :
    ∃ inner : Tree, inner.reference? = some target ∧ inner.text = written := by
  obtain ⟨front, back, same⟩ := List.append_of_mem member
  obtain ⟨place, outermost, -, covers⟩ :=
    tree.occurs_pieces_iff.1 ⟨front, back, same, rfl⟩
  obtain ⟨inner, found, text⟩ := Option.map_eq_some_iff.1 covers
  refine ⟨inner, ?_, text⟩
  simpa [found] using outermost.found

theorem Tree.text_ne_nil_of_reference? {tree : Tree} {target : Reference}
    (found : tree.reference? = some target) : tree.text ≠ [] := by
  obtain ⟨object, rfl, -⟩ := Tree.eq_member_of_reference? found
  simp

/-- Making the edits for its references replaces the pieces of a snippet, whichever way it was
read. -/
theorem Snippet.applyEdits_findings (qualifyProps : Bool) (snippet : Snippet) :
    applyEdits (snippet.findings.map (Finding.edit qualifyProps snippet.lead))
        (utf8 snippet.tree.text) =
      utf8 (snippet.tree.pieces.flatMap (Piece.localText qualifyProps)) := by
  have inside : ∀ part ∈ snippet.tree.pieces.map (Piece.part qualifyProps),
      part.replacement ≠ none → part.text ≠ [] := by
    intro part member replaced
    obtain ⟨piece, known, rfl⟩ := List.mem_map.1 member
    cases piece with
    | verbatim text => exact absurd rfl replaced
    | reference text target =>
      obtain ⟨inner, found, rfl⟩ := Tree.exists_of_mem_pieces known
      exact Tree.text_ne_nil_of_reference? found
  have changed := applyEdits_of_perm inside (.refl _)
  rw [← map_edit_findingsFrom qualifyProps snippet.lead, Nat.add_zero, ← findings_eq] at changed
  simpa [List.flatMap_map, Tree.text_pieces] using changed

/-! ### Texts that name no container -/

/-- A reference names its container. -/
theorem Tree.name_infix_of_reference? {tree : Tree} {target : Reference}
    (found : tree.reference? = some target) : target.container.name <:+: tree.text := by
  obtain ⟨object, rfl, objectIs⟩ := Tree.eq_member_of_reference? found
  have inObject : target.container.name <:+: object.text := by
    rcases objectIs with ⟨name, rfl, known⟩ | ⟨inner, innerFound, known⟩
    · rw [← Container.eq_name_of_ofName? known]
      exact List.infix_refl _
    · -- The member of the inner reference stands at its end.
      obtain ⟨_, rfl, -⟩ := Tree.eq_member_of_reference? innerFound
      rw [← Container.eq_name_of_ofName? known]
      exact ⟨_ ++ ['.'], [], by simp; rfl⟩
  obtain ⟨front, back, same⟩ := inObject
  exact ⟨front, back ++ '.' :: target.member, by simp [← same]⟩

theorem Piece.text_infix_of_mem {piece : Piece} {pieces : List Piece} (member : piece ∈ pieces) :
    piece.text <:+: pieces.flatMap Piece.text := by
  obtain ⟨front, back, rfl⟩ := List.append_of_mem member
  exact ⟨front.flatMap Piece.text, back.flatMap Piece.text, by simp⟩

/-- A text names the container of each of its references. -/
theorem name_infix_of_mem_pieces {code written : List Char} {target : Reference}
    (member : Piece.reference written target ∈ (Snippet.ofCode code).tree.pieces) :
    target.container.name <:+: code := by
  obtain ⟨inner, found, rfl⟩ := Tree.exists_of_mem_pieces member
  have inText := (Tree.name_infix_of_reference? found).trans (Piece.text_infix_of_mem member)
  rwa [Tree.text_pieces, Snippet.text_ofCode] at inText

theorem localizeReferences_of_unnamed {code : List Char} (qualifyProps : Bool)
    (unnamed : ∀ container : Container, ¬ container.name <:+: code) :
    localizeReferences qualifyProps code = code :=
  localizeReferences_eq_self_iff.2 fun _ target member =>
    absurd (name_infix_of_mem_pieces member) (unnamed target.container)

/-! ### Props without repetitions -/

theorem firstOccurrences_eq_eraseDups {α : Type} [BEq α] [LawfulBEq α] (items : List α) :
    firstOccurrences items = items.eraseDups := by
  induction items using List.reverseRecOn with
  | nil => rfl
  | append_singleton items item ih =>
    have last : firstOccurrences (items ++ [item]) =
        if (firstOccurrences items).contains item then firstOccurrences items
        else firstOccurrences items ++ [item] := by
      simp [firstOccurrences]
    rw [last, List.eraseDups_append, ← ih]
    by_cases known : item ∈ items <;> simp [List.removeAll, List.eraseDups_cons, known]

theorem propReferences_of_unnamed {code : List Char} (unnamed : ¬ Container.props.name <:+: code) :
    propReferences code = [] := by
  rw [propReferences]
  have none : (Snippet.ofCode code).tree.pieces.filterMap Piece.prop? = [] := by
    refine List.filterMap_eq_nil_iff.2 fun piece member => ?_
    rcases piece with text | ⟨text, ⟨_ | _, name⟩⟩
    · rfl
    · rfl
    · exact absurd (name_infix_of_mem_pieces member) unnamed
  rw [none]
  rfl

/-! ### The decomposition -/

/-- Pieces that make up a text and hold its outermost references, each where it stands. -/
structure Decomposes (code : List Char) (pieces : List Piece) : Prop where
  covers : pieces.flatMap Piece.text = code
  references : ∀ before written target, Piece.Occurs pieces before written target ↔
    ∃ place, (Snippet.ofCode code).tree.IsOutermost place target ∧
      (Snippet.ofCode code).tree.textBefore place = before ∧
      ((Snippet.ofCode code).tree.subtree? place).map Tree.text = some written

/-- A text falls into its outermost references and the text around them. Replacing the references
turns each into its member, or the member of the props into the qualified one, and keeps the text
around them; the props that are found are the members of the props among the references, each when it
first occurs. A walk over the tree of the text and a splice of its bytes do the same, and so does the
answer that is given at once where the containers are not named. -/
theorem exists_decomposition (code : List Char) :
    ∃ pieces, Decomposes code pieces ∧
      localizeReferences false code = (pieces.flatMap fun
        | .verbatim text => text
        | .reference _ target => target.member) ∧
      localizeReferences true code = (pieces.flatMap fun
        | .verbatim text => text
        | .reference _ ⟨.state, member⟩ => member
        | .reference _ ⟨.props, member⟩ => "props.".toList ++ member) ∧
      propReferences code = (pieces.filterMap fun
        | .reference _ ⟨.props, member⟩ => some member
        | _ => none).eraseDups ∧
      (∀ qualifyProps, applyEdits
          ((Snippet.ofCode code).findings.map
            (Finding.edit qualifyProps (Snippet.ofCode code).lead)) (utf8 code) =
        utf8 (localizeReferences qualifyProps code)) ∧
      ((Snippet.ofCode code).findings.filterMap Finding.prop?).eraseDups = propReferences code ∧
      (¬ "state".toList <:+: code → ¬ "props".toList <:+: code →
        ∀ qualifyProps, localizeReferences qualifyProps code = code) ∧
      (¬ "props".toList <:+: code → propReferences code = []) := by
  refine ⟨(Snippet.ofCode code).tree.pieces, ⟨?_, ?_⟩, ?_, ?_, ?_, ?_, ?_, ?_, ?_⟩
  · rw [Tree.text_pieces, Snippet.text_ofCode]
  · intro before written target
    exact Tree.occurs_pieces_iff _
  · refine List.flatMap_congr fun piece _ => ?_
    rcases piece with text | ⟨text, ⟨_ | _, member⟩⟩ <;> rfl
  · refine List.flatMap_congr fun piece _ => ?_
    rcases piece with text | ⟨text, ⟨_ | _, member⟩⟩ <;> rfl
  · rw [propReferences, firstOccurrences_eq_eraseDups]
    congr 2
  · intro qualifyProps
    have changed := (Snippet.ofCode code).applyEdits_findings qualifyProps
    rwa [Snippet.text_ofCode] at changed
  · rw [Snippet.findings_eq, filterMap_prop?_findingsFrom, ← firstOccurrences_eq_eraseDups]
    rfl
  · intro noState noProps qualifyProps
    refine localizeReferences_of_unnamed qualifyProps fun container => ?_
    cases container
    · exact noState
    · exact noProps
  · exact propReferences_of_unnamed

/-- The string stays, and so does the last name, whose first letter takes two bytes. -/
example :
    let code := "state.props.a + 'state.b' + été.state.c + state.d".toList
    localizeReferences false code = "a + 'state.b' + été.state.c + d".toList ∧
      localizeReferences true code = "props.a + 'state.b' + été.state.c + d".toList ∧
      propReferences code = ["a".toList] := by
  decide +kernel

end ComponentCompiler.Script
