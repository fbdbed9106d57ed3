import ComponentCompiler.Proofs.Script.Lexical
import ComponentCompiler.Proofs.Script.Localize
import ComponentCompiler.Proofs.Script.Shortened

/-!
# Reading two texts side by side

A text and its shortened form are read by the same rules. This file sets two cursors side by side:
one in the source, the other in the target, with the trees that the first one has read, their
references replaced. Which target the source has only shows at its end, where all trees are known.
So a rule is followed from its end to its start: if the target goes on as it should where the rule
ends, it went on as it should where the rule was called; and if the cursors stood side by side
there, they stand side by side where it ends. The rules for the two texts may give up at different
depths, so the cursors also count how much was left to read when the rule was called.

## Main definitions

* `Tree.IsSturdy` — references that are replaced by names which can stand for themselves
* `Cursor.IsPlaced` — a target that falls into the replaced trees and a shortened rest
* `Beside`, `Faces` — cursors side by side, and what they see
* `Tracks` — what is said about a rule for the source and a rule for the target

## Main results

* `Tracks.bind`, `Tracks.ite`, `Tracks.marked` — rules are followed step by step
* `Tracks.close_of_none` — a node that is no reference
* `Tracks.token`, `Tracks.shiftNext`, `Tracks.shiftWord` — single tokens
-/

namespace ComponentCompiler.Script

/-! ### Trees that may be replaced -/

/-- Whether a reference is replaced by its bare member. -/
def Reference.isBare (qualifyProps : Bool) (r : Reference) : Bool :=
  !(r.container == .props && qualifyProps)

/-- Whether the name that a piece is replaced by, if it is a bare member, can stand for itself. -/
def Piece.isSturdy (qualifyProps : Bool) : Piece → Bool
  | .verbatim _ => true
  | .reference _ target => !target.isBare qualifyProps || !isFragile target.member

/-- The references in a tree are replaced by names that can stand for themselves. -/
def Tree.IsSturdy (qualifyProps : Bool) (tree : Tree) : Prop :=
  ∀ piece ∈ tree.pieces, piece.isSturdy qualifyProps = true

variable {qualifyProps : Bool}

theorem isSturdy_row {row : List Tree} :
    (∀ piece ∈ piecesOf row, piece.isSturdy qualifyProps = true) ↔
      ∀ tree ∈ row, tree.IsSturdy qualifyProps := by
  induction row with
  | nil => simp [piecesOf]
  | cons tree rest ih =>
    rw [piecesOf, List.forall_mem_append, ih, List.forall_mem_cons]
    rfl

/-- What holds of a node holds of its children, if it is no reference. -/
theorem Tree.IsSturdy.children {form : Form} {row : List Tree}
    (sturdy : (Tree.node form row).IsSturdy qualifyProps)
    (absent : (Tree.node form row).reference? = none) :
    ∀ tree ∈ row, tree.IsSturdy qualifyProps := by
  rw [Tree.IsSturdy, Tree.pieces, absent] at sturdy
  exact isSturdy_row.1 sturdy

theorem Tree.reference?_of_form {form : Form} (other : form ≠ .member) (row : List Tree) :
    (Tree.node form row).reference? = none := by
  cases found : (Tree.node form row).reference? with
  | none => rfl
  | some reference =>
    obtain ⟨object, same, -⟩ := Tree.eq_member_of_reference? found
    injection same with sameForm
    exact absurd sameForm other

theorem localize_of_isTrivia {tree : Tree} (trivia : tree.isTrivia = true) :
    tree.localize qualifyProps = tree := by
  cases tree with
  | token kind text => exact Tree.localize_token kind text
  | node form row => cases trivia

theorem map_localize_of_isTrivia {row : List Tree} (trivia : ∀ tree ∈ row, tree.isTrivia = true) :
    row.map (Tree.localize qualifyProps) = row := by
  conv_rhs => rw [← List.map_id row]
  exact List.map_congr_left fun tree member => localize_of_isTrivia (trivia tree member)

/-! ### Two cursors side by side -/

/-- The setting of a comparison: how references are replaced, and how much was left to read for each
reader when the rule that is compared was called. -/
structure Setting where
  qualifyProps : Bool
  oldBound : Nat
  newBound : Nat

variable {source target : List Char} {s : Setting} {place onto middle : Place}

namespace Cursor

/-- The cursor stands where something may be read: only blanks and comments come before it, and
none after it unless literal text may start there. -/
structure IsSound (place : Place) (c : Cursor source) : Prop where
  separated : ∀ tree ∈ c.trivia, tree.isTrivia = true
  clear : place ≠ .literal → c.enclosure ≠ .opening → triviaAt c.rest = none
  entered : place = .literal → c.enclosure ≠ .opening

/-- What may stand at the front of the text that is left to read: an operand, as long as the first
unwritten parenthesis is still to come. -/
def front (place : Place) (c : Cursor source) : Place :=
  if c.enclosure = .opening then .operand else place

/-- The target falls into the replaced trees that a cursor has read and a shortened form of what it
has not read. -/
structure IsPlaced (qualifyProps : Bool) (target : List Char) (place : Place)
    (c : Cursor source) : Prop where
  sturdy : ∀ tree ∈ c.done, tree.IsSturdy qualifyProps
  covered : ∃ bare, Shortened (c.front place) c.rest bare ∧
    textOf ((c.done.map (Tree.localize qualifyProps)).reverse ++ c.trivia) ++ bare = target

end Cursor

/-- A cursor in the target has read the replaced trees of a cursor in the source. If it has not
moved since the rule was called, the other one has not moved either. -/
structure Beside (s : Setting) (c : Cursor source) (d : Cursor target) : Prop where
  done : d.done = c.done.map (Tree.localize s.qualifyProps)
  trivia : d.trivia = c.trivia
  enclosure : d.enclosure = c.enclosure
  pace : d.remaining < s.newBound ∨ d.remaining = s.newBound ∧ c.remaining = s.oldBound

/-- Two cursors side by side of which the one in the target sees a shortened form of what the other
one sees. -/
structure Faces (s : Setting) (place : Place) (c : Cursor source) (d : Cursor target) : Prop extends
    Beside s c d where
  text : Shortened (c.front place) c.rest d.rest

theorem Beside.rest_eq {c : Cursor source} {d : Cursor target} (beside : Beside s c d)
    {bare : List Char}
    (covers : textOf ((c.done.map (Tree.localize s.qualifyProps)).reverse ++ c.trivia) ++ bare =
      target) : d.rest = bare := by
  have whole := d.whole
  rw [beside.done, beside.trivia] at whole
  exact List.append_cancel_left (whole.trans covers.symm)

theorem Beside.faces {c : Cursor source} {d : Cursor target} (beside : Beside s c d)
    (placed : c.IsPlaced s.qualifyProps target place) : Faces s place c d := by
  obtain ⟨bare, short, covers⟩ := placed.covered
  exact ⟨beside, beside.rest_eq covers ▸ short⟩

theorem Beside.remaining_le {c : Cursor source} {d : Cursor target} (beside : Beside s c d) :
    d.remaining ≤ s.newBound := by
  rcases beside.pace with less | ⟨same, -⟩
  · exact Nat.le_of_lt less
  · exact Nat.le_of_eq same

/-- The rule for the source comes to cursors at the next place only. If the target continues as it
should there, it did so where the rule was called, and a cursor that started beside that of the
source comes to a cursor beside. -/
def Tracks (s : Setting) (place onto : Place) (c : Cursor source) (result : Option (Cursor source))
    (d : Cursor target) (newResult : Option (Cursor target)) : Prop :=
  ∀ e ∈ result, e.IsSound onto ∧
    (e.IsPlaced s.qualifyProps target onto → c.IsPlaced s.qualifyProps target place ∧
      (Beside s c d → ∃ f ∈ newResult, Beside s e f))

namespace Tracks

variable {c e : Cursor source} {d f : Cursor target}
  {result other : Option (Cursor source)} {newResult newOther : Option (Cursor target)}

theorem none : Tracks s place onto c none d newResult := nofun

theorem here (sound : c.IsSound place) : Tracks s place place c (some c) d (some d) := by
  rintro _ ⟨⟩
  exact ⟨sound, fun placed => ⟨placed, fun beside => ⟨d, rfl, beside⟩⟩⟩

/-- One step after the other. -/
theorem through (first : Tracks s place middle c (some e) d (some f))
    (rest : e.IsSound middle → Tracks s middle onto e result f newResult) :
    Tracks s place onto c result d newResult := by
  intro final reached
  obtain ⟨sound, back⟩ := first e rfl
  obtain ⟨ended, further⟩ := rest sound final reached
  refine ⟨ended, fun placed => ?_⟩
  obtain ⟨between, onward⟩ := further placed
  obtain ⟨started, moves⟩ := back between
  refine ⟨started, fun beside => ?_⟩
  obtain ⟨_, same, met⟩ := moves beside
  cases same
  exact onward met

theorem bind {step : Cursor source → Option (Cursor source)}
    {newStep : Cursor target → Option (Cursor target)}
    (first : Tracks s place middle c result d newResult)
    (rest : ∀ e f, e.IsSound middle → Tracks s middle onto e (step e) f (newStep f)) :
    Tracks s place onto c (result >>= step) d (newResult >>= newStep) := by
  intro final reached
  obtain ⟨e, found, reached⟩ := Option.bind_eq_some_iff.1 reached
  obtain ⟨sound, back⟩ := first e found
  refine ⟨(rest e d sound final reached).1, fun placed => ?_⟩
  obtain ⟨between, -⟩ := (rest e d sound final reached).2 placed
  obtain ⟨started, moves⟩ := back between
  refine ⟨started, fun beside => ?_⟩
  obtain ⟨f, newFound, met⟩ := moves beside
  obtain ⟨last, newReached, ends⟩ := ((rest e f sound final reached).2 placed).2 met
  exact ⟨last, Option.bind_eq_some_iff.2 ⟨f, newFound, newReached⟩, ends⟩

/-- What the reader of the target comes to may be described otherwise, and the success of the reader
of the source may be used for it. -/
theorem congr (tracks : Tracks s place onto c result d newResult)
    (same : ∀ e ∈ result, Faces s place c d → newOther = newResult) :
    Tracks s place onto c result d newOther := by
  intro final reached
  obtain ⟨sound, back⟩ := tracks final reached
  refine ⟨sound, fun placed => ?_⟩
  obtain ⟨started, moves⟩ := back placed
  refine ⟨started, fun beside => ?_⟩
  rw [same final reached (beside.faces started)]
  exact moves beside

theorem given (tracks : ∀ e ∈ result, Tracks s place onto c result d newResult) :
    Tracks s place onto c result d newResult :=
  fun e reached => tracks e reached e reached

/-- Both readers take the same branch. -/
theorem ite {condition newCondition : Bool}
    (agree : Faces s place c d → newCondition = condition)
    (yes : condition = true → Tracks s place onto c result d newResult)
    (no : condition = false → Tracks s place onto c other d newOther) :
    Tracks s place onto c (if condition = true then result else other) d
      (if newCondition = true then newResult else newOther) := by
  cases condition with
  | false => exact (no rfl).congr fun _ _ faces => by simp [agree faces]
  | true => exact (yes rfl).congr fun _ _ faces => by simp [agree faces]

/-- A value that both readers compute. -/
theorem value {α : Type} {step : α → Option (Cursor source)} {newStep : α → Option (Cursor target)}
    {a b : α} (agree : Faces s place c d → b = a)
    (each : Tracks s place onto c (step a) d (newStep a)) :
    Tracks s place onto c (step a) d (newStep b) :=
  each.congr fun _ _ faces => by rw [agree faces]

theorem joint {step : Cursor source → Option (Cursor source)}
    {newStep : Cursor target → Option (Cursor target)} (middle : Place)
    (branches : (∀ e f, e.IsSound middle → Tracks s middle onto e (step e) f (newStep f)) →
      Tracks s place onto c result d newResult)
    (onward : ∀ e f, e.IsSound middle → Tracks s middle onto e (step e) f (newStep f)) :
    Tracks s place onto c result d newResult :=
  branches onward

end Tracks

/-! ### Moves without reading -/

section
variable {c : Cursor source} {d : Cursor target} {result : Option (Cursor source)}

theorem Cursor.IsSound.flush (sound : c.IsSound place) : c.flush.IsSound place :=
  ⟨nofun, sound.clear, sound.entered⟩

theorem Cursor.IsSound.close (sound : c.IsSound place) (form : Form) (mark : Nat) :
    (c.close form mark).IsSound place :=
  ⟨sound.separated, sound.clear, sound.entered⟩

theorem Beside.flush (beside : Beside s c d) (separated : ∀ tree ∈ c.trivia, tree.isTrivia = true) :
    Beside s c.flush d.flush := by
  refine ⟨?_, rfl, beside.enclosure, beside.pace⟩
  rw [Cursor.flush_done, Cursor.flush_done, beside.done, beside.trivia, List.map_append,
    map_localize_of_isTrivia fun tree member => separated tree (List.mem_reverse.1 member)]

theorem Cursor.close_done (form : Form) (start : Nat) (c : Cursor source) :
    (c.close form start).done = .node form (c.done.take (c.done.length - start)).reverse ::
      c.done.drop (c.done.length - start) := rfl

theorem Beside.length_done (beside : Beside s c d) : d.done.length = c.done.length := by
  rw [beside.done, List.length_map]

theorem Cursor.exists_length_done (text : List Char) (n : Nat) :
    ∃ d : Cursor text, d.flush.done.length = n := by
  refine ⟨⟨List.replicate n (.token .blank []), [], text, .absent, ?_⟩, by simp [Cursor.flush]⟩
  induction n with
  | zero => rfl
  | succ n ih => simpa [List.replicate_succ] using ih

namespace Tracks

theorem flush (sound : c.IsSound place) :
    Tracks s place place c (some c.flush) d (some d.flush) := by
  rintro _ ⟨⟩
  refine ⟨sound.flush, fun placed => ⟨⟨fun tree member => ?_, ?_⟩, fun beside =>
    ⟨_, rfl, beside.flush sound.separated⟩⟩⟩
  · exact placed.sturdy tree (List.mem_append_right _ member)
  · obtain ⟨bare, short, covers⟩ := placed.covered
    refine ⟨bare, short, ?_⟩
    rw [← covers, Cursor.flush_done, List.map_append, map_localize_of_isTrivia fun tree member =>
      sound.separated tree (List.mem_reverse.1 member)]
    simp [Cursor.flush]

/-- Cursors side by side have read equally many trees, so a rule may count on marks to be equal. -/
theorem marked {newRule : Cursor target → Option (Cursor target)} (sound : c.IsSound place)
    (each : ∀ d, d.flush.done.length = c.flush.done.length →
      Tracks s place onto c.flush result d.flush (newRule d)) (d : Cursor target) :
    Tracks s place onto c result d (newRule d) := by
  by_cases same : d.flush.done.length = c.flush.done.length
  · exact (flush sound).through fun _ => each d same
  · -- What is said about the cursors in the source holds whatever stands beside them.
    intro e reached
    obtain ⟨d', length⟩ := Cursor.exists_length_done target c.flush.done.length
    obtain ⟨_, started⟩ := flush sound (d := d) c.flush rfl
    obtain ⟨ended, back⟩ := each d' length e reached
    refine ⟨ended, fun placed => ⟨(started (back placed).1).1, fun beside => absurd ?_ same⟩⟩
    exact (beside.flush sound.separated).length_done

/-- A node that is no reference. -/
theorem close_of_none {form : Form} {start : Nat} (sound : c.IsSound place)
    (absent : (Tree.node form (c.done.take (c.done.length - start)).reverse).reference? = Option.none) :
    Tracks s place place c (some (c.close form start)) d (some (d.close form start)) := by
  rintro _ ⟨⟩
  have split := (List.take_append_drop (c.done.length - start) c.done).symm
  have closed := c.close_done form start
  have newClosed (beside : Beside s c d) : (d.close form start).done =
      .node form ((c.done.take (c.done.length - start)).map (Tree.localize s.qualifyProps)).reverse ::
        (c.done.drop (c.done.length - start)).map (Tree.localize s.qualifyProps) := by
    rw [Cursor.close_done, beside.done, List.length_map, List.map_take, List.map_drop]
  generalize c.done.take (c.done.length - start) = row at *
  generalize c.done.drop (c.done.length - start) = base at *
  have localized : (Tree.node form row.reverse).localize s.qualifyProps =
      .node form (row.map (Tree.localize s.qualifyProps)).reverse := by
    rw [Tree.localize_of_none absent, localizeRow_eq_map, List.map_reverse]
  refine ⟨sound.close form start, fun placed => ⟨⟨?_, ?_⟩, fun beside => ⟨_, rfl, ?_⟩⟩⟩
  · have sturdy := placed.sturdy
    rw [closed, List.forall_mem_cons] at sturdy
    rw [split]
    refine List.forall_mem_append.2 ⟨fun tree member => ?_, sturdy.2⟩
    exact sturdy.1.children absent tree (List.mem_reverse.2 member)
  · obtain ⟨bare, short, covers⟩ := placed.covered
    refine ⟨bare, short, ?_⟩
    rw [← covers, closed, split]
    simp [localized, Cursor.close]
  · refine ⟨?_, beside.trivia, beside.enclosure, beside.pace⟩
    rw [newClosed beside, closed, List.map_cons, localized]

theorem close {form : Form} {start newStart : Nat} (sound : c.IsSound place)
    (other : form ≠ .member) (same : newStart = start) :
    Tracks s place place c (some (c.close form start)) d (some (d.close form newStart)) := by
  subst same
  exact close_of_none sound (Tree.reference?_of_form other _)

end Tracks

end

/-! ### Passing tokens -/

section
variable {c e : Cursor source} {d f : Cursor target}

namespace Cursor

theorem front_of_ne (entered : c.enclosure ≠ .opening) (place : Place) : c.front place = place :=
  if_neg entered

theorem IsPlaced.of_name (placed : c.IsPlaced s.qualifyProps target .name) (place : Place) :
    c.IsPlaced s.qualifyProps target place := by
  refine ⟨placed.sturdy, placed.covered.imp fun bare => And.imp_left fun short => ?_⟩
  unfold front at short ⊢
  split
  · next opening => rwa [if_pos opening] at short
  · next entered =>
    rw [if_neg entered] at short
    exact short.of_name place

/-- Between places without literal text, it does not matter to a cursor itself where it stands. -/
theorem IsSound.change (sound : c.IsSound place) (plain : place ≠ .literal) (other : onto ≠ .literal) :
    c.IsSound onto :=
  ⟨sound.separated, fun _ => sound.clear plain, fun same => absurd same other⟩

/-- What follows the blanks and comments tells what the text with them falls into. -/
theorem IsPlaced.unsettle (placed : c.settle.IsPlaced s.qualifyProps target place) (plain : place ≠ .literal) :
    c.IsPlaced s.qualifyProps target place := by
  obtain ⟨bare, short, covers⟩ := placed.covered
  have other : c.front place ≠ .literal := by
    unfold front
    split
    · decide
    · exact plain
  refine ⟨placed.sturdy, _, Shortened.unsettle short other, ?_⟩
  rw [← covers]
  simp [settle]

end Cursor

theorem Beside.settle (beside : Beside s c d) (placed : c.IsPlaced s.qualifyProps target place)
    (plain : place ≠ .literal) (strict : d.remaining < s.newBound) :
    Beside s c.settle d.settle := by
  have other : c.front place ≠ .literal := by
    unfold Cursor.front
    split
    · decide
    · exact plain
  obtain ⟨same, -, -⟩ := (beside.faces placed).text.splitTrivia other
  refine ⟨beside.done, ?_, beside.enclosure, .inl ?_⟩
  · change d.trivia ++ _ = c.trivia ++ _
    rw [same, beside.trivia]
  · have shorter : d.settle.rest.length ≤ d.rest.length := by
      conv_rhs => rw [← textOf_splitTrivia d.rest.length d.rest, List.length_append]
      exact Nat.le_add_left _ _
    have kept : d.settle.enclosure = d.enclosure := rfl
    simp only [Cursor.remaining, kept] at strict ⊢
    omega

/-- A token is passed on both sides, and what follows it has not been looked at. -/
def Steps (s : Setting) (place onto : Place) (c e : Cursor source) (d f : Cursor target)
    (known : Prop) : Prop :=
  e.IsPlaced s.qualifyProps target onto → c.IsPlaced s.qualifyProps target place ∧
    (Beside s c d → known ∧ Beside s e f ∧ f.remaining < s.newBound)

theorem Steps.settle {known : Prop} (steps : Steps s place onto c e d f known)
    (plain : onto ≠ .literal) (trivia : e.trivia = []) {newResult : Option (Cursor target)}
    (found : known → newResult = some f.settle) :
    Tracks s place onto c (some e.settle) d newResult := by
  rintro _ ⟨⟩
  refine ⟨⟨fun tree member => ?_, fun _ _ => triviaAt_splitTrivia (Nat.le_refl _),
    fun same => absurd same plain⟩, fun placed => ?_⟩
  · have member : tree ∈ e.trivia ++ (splitTrivia e.rest.length e.rest).1 := member
    rw [trivia] at member
    exact isTrivia_of_mem_splitTrivia member
  · have placed := placed.unsettle plain
    obtain ⟨started, moves⟩ := steps placed
    refine ⟨started, fun beside => ?_⟩
    obtain ⟨known, beside, strict⟩ := moves beside
    exact ⟨_, found known, beside.settle placed plain strict⟩

theorem Steps.raw {known : Prop} (steps : Steps s place .literal c e d f known)
    (trivia : e.trivia = []) (entered : e.enclosure ≠ .opening)
    {newResult : Option (Cursor target)} (found : known → newResult = some f) :
    Tracks s place .literal c (some e) d newResult := by
  rintro _ ⟨⟩
  refine ⟨⟨fun tree member => ?_, fun other => absurd rfl other, fun _ => entered⟩, fun placed => ?_⟩
  · rw [trivia] at member
    cases member
  · obtain ⟨started, moves⟩ := steps placed
    refine ⟨started, fun beside => ?_⟩
    obtain ⟨known, beside, -⟩ := moves beside
    exact ⟨_, found known, beside⟩

namespace Cursor

theorem isWritten_of_rest (entered : c.enclosure ≠ .opening) (some : c.rest ≠ []) : c.IsWritten :=
  ⟨upcoming_eq_rest entered some, entered⟩

theorem trivia_shiftRaw (kind : TokenKind) (n : Nat) (c : Cursor source) :
    (c.shiftRaw kind n).trivia = [] := by
  unfold shiftRaw
  split <;> rfl

theorem shiftRaw_of_written (entered : c.enclosure ≠ .opening) (some : c.rest ≠ [])
    (kind : TokenKind) (n : Nat) :
    (c.shiftRaw kind n).done = .token kind (c.rest.take n) :: (c.trivia.reverse ++ c.done) ∧
      (c.shiftRaw kind n).rest = c.rest.drop n ∧
      (c.shiftRaw kind n).enclosure = c.enclosure := by
  obtain ⟨done, trivia, rest, enclosure, whole⟩ := c
  cases enclosure with
  | opening => exact absurd rfl entered
  | closing =>
    cases rest with
    | nil => exact absurd rfl some
    | cons first rest => exact ⟨rfl, rfl, rfl⟩
  | absent => exact ⟨rfl, rfl, rfl⟩

end Cursor

/-- A token that is written. -/
theorem Steps.written {kind : TokenKind} {token rest : List Char} {known : Prop}
    (sound : c.IsSound place) (entered : c.enclosure ≠ .opening) (split : c.rest = token ++ rest)
    (nonempty : token ≠ [])
    (step : ∀ bare, Shortened onto rest bare → Shortened place (token ++ rest) (token ++ bare) ∧
      (d.rest = token ++ bare → d.IsWritten → known)) :
    Steps s place onto c (c.shiftRaw kind token.length) d (d.shiftRaw kind token.length) known := by
  intro placed
  have some : c.rest ≠ [] := split ▸ List.append_ne_nil_of_left_ne_nil nonempty rest
  obtain ⟨done, left, enclosure⟩ := Cursor.shiftRaw_of_written entered some kind token.length
  have trivia := Cursor.trivia_shiftRaw kind token.length c
  rw [split, List.take_left] at done
  rw [split, List.drop_left] at left
  obtain ⟨bare, short, covers⟩ := placed.covered
  rw [Cursor.front_of_ne (enclosure ▸ entered), left] at short
  rw [done, trivia, List.map_cons, List.map_append,
    map_localize_of_isTrivia fun tree member => sound.separated tree (List.mem_reverse.1 member)]
    at covers
  obtain ⟨before, measured⟩ := step bare short
  have covers : textOf ((c.done.map (Tree.localize s.qualifyProps)).reverse ++ c.trivia) ++
      (token ++ bare) = target := by
    rw [← covers]
    simp
  refine ⟨⟨fun tree member => placed.sturdy tree ?_, token ++ bare, ?_, covers⟩, fun beside => ?_⟩
  · rw [done]
    exact List.mem_cons_of_mem _ (List.mem_append_right _ member)
  · rw [Cursor.front_of_ne entered, split]
    exact before
  have newSplit := beside.rest_eq covers
  have newSome : d.rest ≠ [] := newSplit ▸ List.append_ne_nil_of_left_ne_nil nonempty bare
  have newEntered : d.enclosure ≠ .opening := beside.enclosure ▸ entered
  have holds := measured newSplit (Cursor.isWritten_of_rest newEntered newSome)
  obtain ⟨newDone, newLeft, newEnclosure⟩ :=
    Cursor.shiftRaw_of_written newEntered newSome kind token.length
  rw [newSplit, List.take_left] at newDone
  rw [newSplit, List.drop_left] at newLeft
  have strict : (d.shiftRaw kind token.length).remaining < s.newBound := by
    have positive : 0 < token.length := List.length_pos_of_ne_nil nonempty
    have before := beside.remaining_le
    simp only [Cursor.remaining, newLeft, newEnclosure, newSplit, List.length_append] at before ⊢
    omega
  refine ⟨holds, ⟨?_, ?_, ?_, .inl strict⟩, strict⟩
  · rw [newDone, done, beside.done, beside.trivia, List.map_cons, List.map_append,
      Tree.localize_token, map_localize_of_isTrivia fun tree member =>
        sound.separated tree (List.mem_reverse.1 member)]
  · rw [Cursor.trivia_shiftRaw, trivia]
  · rw [newEnclosure, enclosure, beside.enclosure]

theorem Cursor.shiftRaw_of_unwritten (unwritten : ¬ c.IsWritten) (kind : TokenKind) (n : Nat) :
    (c.shiftRaw kind n).done = .token kind [] :: (c.trivia.reverse ++ c.done) ∧
      (c.shiftRaw kind n).rest = c.rest ∧
      (c.enclosure = .opening ∧ (c.shiftRaw kind n).enclosure = .closing ∨
        c.enclosure = .closing ∧ c.rest = [] ∧ (c.shiftRaw kind n).enclosure = .absent) := by
  obtain ⟨done, trivia, rest, enclosure, whole⟩ := c
  cases enclosure with
  | opening => exact ⟨rfl, rfl, .inl ⟨rfl, rfl⟩⟩
  | closing =>
    cases rest with
    | nil => exact ⟨rfl, rfl, .inr ⟨rfl, rfl, rfl⟩⟩
    | cons first rest => exact absurd ⟨rfl, nofun⟩ unwritten
  | absent => exact absurd ⟨rfl, nofun⟩ unwritten

/-- An unwritten parenthesis. -/
theorem Steps.unwritten (sound : c.IsSound place) (unwritten : ¬ c.IsWritten) (kind : TokenKind)
    (n m : Nat) : Steps s place .operand c (c.shiftRaw kind n) d (d.shiftRaw kind m) True := by
  intro placed
  obtain ⟨done, left, enclosures⟩ := Cursor.shiftRaw_of_unwritten unwritten kind n
  have trivia := Cursor.trivia_shiftRaw kind n c
  obtain ⟨bare, short, covers⟩ := placed.covered
  rw [Cursor.front_of_ne (Cursor.enclosure_shiftRaw kind n c), left] at short
  rw [done, trivia, List.map_cons, List.map_append,
    map_localize_of_isTrivia fun tree member => sound.separated tree (List.mem_reverse.1 member)]
    at covers
  have started : c.IsPlaced s.qualifyProps target place := by
    refine ⟨fun tree member => placed.sturdy tree ?_, bare, ?_, ?_⟩
    · rw [done]
      exact List.mem_cons_of_mem _ (List.mem_append_right _ member)
    · rcases enclosures with ⟨opening, -⟩ | ⟨closing, empty, -⟩
      · rw [Cursor.front, if_pos opening]
        exact short
      · rw [empty] at short ⊢
        rw [short.nil_iff.1 rfl]
        exact .nil
    · rw [← covers]
      simp
  refine ⟨started, fun beside => ?_⟩
  have faces := beside.faces started
  have newUnwritten : ¬ d.IsWritten := by
    intro written
    rcases enclosures with ⟨opening, -⟩ | ⟨closing, empty, -⟩
    · exact written.entered (beside.enclosure.trans opening)
    · have same := written.upcoming
      have newEmpty : d.rest = [] := faces.text.nil_iff.1 empty
      rw [Cursor.upcoming, beside.enclosure, closing, newEmpty] at same
      cases same
  obtain ⟨newDone, newLeft, newEnclosures⟩ := Cursor.shiftRaw_of_unwritten newUnwritten kind m
  have enclosure : (d.shiftRaw kind m).enclosure = (c.shiftRaw kind n).enclosure ∧
      (d.shiftRaw kind m).enclosure.count < d.enclosure.count := by
    have same := beside.enclosure
    rcases enclosures with ⟨before, after⟩ | ⟨before, -, after⟩
    · rcases newEnclosures with ⟨newBefore, newAfter⟩ | ⟨newBefore, -⟩
      · rw [after, newAfter, newBefore]
        decide
      · rw [newBefore, before] at same
        cases same
    · rcases newEnclosures with ⟨newBefore, -⟩ | ⟨newBefore, -, newAfter⟩
      · rw [newBefore, before] at same
        cases same
      · rw [after, newAfter, newBefore]
        decide
  have strict : (d.shiftRaw kind m).remaining < s.newBound := by
    have before := beside.remaining_le
    have fewer := enclosure.2
    simp only [Cursor.remaining, newLeft] at before ⊢
    omega
  refine ⟨trivial, ⟨?_, ?_, enclosure.1, .inl strict⟩, strict⟩
  · rw [newDone, done, beside.done, beside.trivia, List.map_cons, List.map_append,
      Tree.localize_token, map_localize_of_isTrivia fun tree member =>
        sound.separated tree (List.mem_reverse.1 member)]
  · rw [Cursor.trivia_shiftRaw, trivia]

end

/-! ### What both cursors see -/

theorem Cursor.isWritten_of_word {c : Cursor source} (nonempty : c.word ≠ []) : c.IsWritten := by
  have some : wordLength c.upcoming ≠ 0 := fun none =>
    nonempty (by rw [Cursor.word, none, List.take_zero])
  obtain ⟨char, after, same, opens⟩ := opensWord_of_wordLength some
  refine isWritten_of_seen (by rw [same]; rfl) ⟨?_, ?_⟩
  · rintro rfl
    cases opens
  · rintro rfl
    cases opens

namespace Faces

variable {c : Cursor source} {d : Cursor target}

/-- What comes next in the target is a shortened form of what comes next in the source. -/
theorem upcoming (faces : Faces s place c d) : Shortened place c.upcoming d.upcoming := by
  have parenthesis (char : Char) (opens : opensSolid char = true)
      (clear : startsComment [char] = false) : Shortened place [char] [char] := by
    have alone : Shortened place (char :: ([] ++ [])) (char :: ([] ++ [])) :=
      .solid opens clear (fun _ => ⟨rfl, rfl⟩) (.nil : Shortened .operand [] [])
    exact alone
  have text := faces.text
  have same := faces.enclosure
  obtain ⟨done, trivia, rest, enclosure, whole⟩ := c
  obtain ⟨newDone, newTrivia, newRest, newEnclosure, newWhole⟩ := d
  dsimp only at same
  subst same
  cases newEnclosure with
  | opening => exact parenthesis '(' rfl rfl
  | closing =>
    rw [Cursor.front_of_ne (by simp)] at text
    dsimp only at text
    have both := text.nil_iff
    cases rest with
    | nil =>
      obtain rfl := both.1 rfl
      exact parenthesis ')' rfl rfl
    | cons first rest =>
      cases newRest with
      | nil => exact absurd (both.2 rfl) (List.cons_ne_nil _ _)
      | cons newFirst newRest => exact text
  | absent =>
    rw [Cursor.front_of_ne (by simp)] at text
    exact text

theorem next (faces : Faces s place c d) : d.next = c.next :=
  faces.upcoming.punctuatorAt_eq

theorem sees (faces : Faces s place c d) (text : String) : d.sees text = c.sees text := by
  rw [Cursor.sees, Cursor.sees, faces.next]

theorem seesChar (faces : Faces s place c d) {char : Char} (solid : opensWord char = false) :
    d.seesChar char = c.seesChar char := by
  rw [Cursor.seesChar, Cursor.seesChar, Bool.eq_iff_iff, beq_iff_eq, beq_iff_eq,
    faces.upcoming.head?_eq_iff solid]

theorem atEnd (faces : Faces s place c d) : d.atEnd = c.atEnd := by
  rw [Cursor.atEnd, Cursor.atEnd, Bool.eq_iff_iff, List.isEmpty_iff, List.isEmpty_iff]
  exact faces.upcoming.nil_iff.symm

theorem afterLineEnd (faces : Faces s place c d) : d.afterLineEnd = c.afterLineEnd := by
  rw [Cursor.afterLineEnd, Cursor.afterLineEnd, faces.trivia]

end Faces

/-! ### Single tokens -/

namespace Tracks

variable {c : Cursor source} {d : Cursor target}

/-- A token and the blanks and comments behind it. What the reader of the target does may be known
from the text that it finds. -/
theorem token {kind : TokenKind} {token rest : List Char} {n : Nat}
    {newResult : Option (Cursor target)} (sound : c.IsSound place) (plain : onto ≠ .literal)
    (entered : c.enclosure ≠ .opening) (split : c.rest = token ++ rest) (nonempty : token ≠ [])
    (length : n = token.length)
    (step : ∀ bare, Shortened onto rest bare → Shortened place (token ++ rest) (token ++ bare) ∧
      (d.rest = token ++ bare → d.IsWritten → newResult = some (d.shift kind token.length))) :
    Tracks s place onto c (some (c.shift kind n)) d newResult := by
  subst length
  exact (Steps.written sound entered split nonempty step).settle plain
    (Cursor.trivia_shiftRaw _ _ _) fun found => found

/-- A token in front of literal text. -/
theorem tokenRaw {kind : TokenKind} {token rest : List Char} {n : Nat}
    {newResult : Option (Cursor target)} (sound : c.IsSound place)
    (entered : c.enclosure ≠ .opening) (split : c.rest = token ++ rest) (nonempty : token ≠ [])
    (length : n = token.length)
    (step : ∀ bare, Shortened .literal rest bare → Shortened place (token ++ rest) (token ++ bare) ∧
      (d.rest = token ++ bare → d.IsWritten → newResult = some (d.shiftRaw kind token.length))) :
    Tracks s place .literal c (some (c.shiftRaw kind n)) d newResult := by
  subst length
  exact (Steps.written sound entered split nonempty step).raw (Cursor.trivia_shiftRaw _ _ _)
    (Cursor.enclosure_shiftRaw _ _ _) fun found => found

/-- An operator. -/
theorem shiftNext (sound : c.IsSound place) (nonempty : c.next ≠ [])
    (clear : c.IsWritten → startsComment c.rest = false) :
    Tracks s place .operand c (some c.shiftNext) d (some d.shiftNext) := by
  by_cases written : c.IsWritten
  · obtain ⟨after, split⟩ := isPrefix_punctuatorAt c.upcoming
    have operator : c.next = punctuatorAt c.rest := by rw [Cursor.next, written.upcoming]
    rw [written.upcoming, ← operator] at split
    refine token sound (by decide) written.entered split.symm nonempty rfl fun bare short => ?_
    have further : Shortened .operand (c.rest.drop (punctuatorAt c.rest).length) bare := by
      rw [← operator, ← split, List.drop_left]
      exact short
    have whole (place : Place) := further.append_punctuator (operator ▸ nonempty) (clear written) place
    rw [← operator, ← split] at whole
    refine ⟨whole place, fun newSplit newWritten => ?_⟩
    have same : d.next = c.next := by
      rw [Cursor.next, newWritten.upcoming, newSplit, (whole .name).punctuatorAt_eq, split,
        ← operator]
    rw [Cursor.shiftNext, same]
  · exact (Steps.unwritten sound written _ _ _).settle (by decide) (Cursor.trivia_shiftRaw _ _ _)
      fun _ => rfl

/-- A single character that starts no word, and is neither a parenthesis nor a star. -/
theorem character {char : Char} {kind : TokenKind} (sound : c.IsSound place)
    (plain : onto ≠ .literal)
    (seen : c.upcoming.head? = some char) (solid : opensSolid char = true)
    (other : char ≠ '(' ∧ char ≠ ')' ∧ char ≠ '*')
    (clear : c.IsWritten → startsComment c.rest = false) :
    Tracks s place onto c (some (c.shift kind 1)) d (some (d.shift kind 1)) := by
  have written := Cursor.isWritten_of_seen seen ⟨other.1, other.2.1⟩
  obtain ⟨after, split⟩ := List.head?_eq_some_iff.1 (written.upcoming ▸ seen)
  have start := clear written
  rw [split] at start
  have front : c.rest = [char] ++ after := split
  refine token sound plain written.entered front (List.cons_ne_nil _ _) rfl
    fun bare short => ⟨?_, fun _ _ => rfl⟩
  exact short.cons_solid solid start other.2 place

/-- A single character in front of literal text. -/
theorem characterRaw {char : Char} {kind : TokenKind} (sound : c.IsSound place)
    (seen : c.upcoming.head? = some char) (solid : opensSolid char = true)
    (other : char ≠ '(' ∧ char ≠ ')' ∧ char ≠ '*')
    (clear : c.IsWritten → startsComment c.rest = false) :
    Tracks s place .literal c (some (c.shiftRaw kind 1)) d (some (d.shiftRaw kind 1)) := by
  have written := Cursor.isWritten_of_seen seen ⟨other.1, other.2.1⟩
  obtain ⟨after, split⟩ := List.head?_eq_some_iff.1 (written.upcoming ▸ seen)
  have start := clear written
  rw [split] at start
  have front : c.rest = [char] ++ after := split
  refine tokenRaw sound written.entered front (List.cons_ne_nil _ _) rfl
    fun bare short => ⟨?_, fun _ _ => rfl⟩
  exact short.cons_solid solid start other.2 place

/-- A word. -/
theorem shiftWord (kind : TokenKind) (sound : c.IsSound place) (nonempty : c.word ≠ []) :
    Tracks s place .operand c (some (c.shiftWord kind)) d (some (d.shiftWord kind)) := by
  have length : c.word.length = wordLength c.upcoming := by
    rw [Cursor.word, List.length_take]
    exact Nat.min_eq_left (wordLength_le _)
  have written := Cursor.isWritten_of_word nonempty
  have split : c.rest = c.word ++ c.rest.drop c.word.length := by
    conv_lhs => rw [← List.take_append_drop (wordLength c.rest) c.rest]
    rw [length, Cursor.word, written.upcoming]
  refine token sound (by decide) written.entered split nonempty rfl fun bare short => ?_
  have whole : wordLength (c.word ++ c.rest.drop c.word.length) = c.word.length := by
    rw [← split, length, written.upcoming]
  refine ⟨short.append_word nonempty whole place, fun newSplit newWritten => ?_⟩
  have same : d.word = c.word := by
    rw [Cursor.word, newWritten.upcoming, newSplit, short.wordLength_append nonempty whole,
      List.take_left]
  rw [Cursor.shiftWord, same]

end Tracks

end ComponentCompiler.Script
