import ComponentCompiler.Script.Grammar
import Mathlib.Data.List.Infix

/-!
# The stack of a reader

A cursor keeps the trees that it has read on a stack, and a rule of the grammar gathers the topmost
ones into a node. Where a rule closes a node, it relies on the rules it has called: they left what
was on the stack before, and an operand is one tree on top of it. From this follows the shape of the
nodes. Two of them matter here: the pair of an object literal, which is a key, a colon and a value,
in this order and with nothing but blanks and comments between them, and the literal itself, which
has nothing but entries between its braces and commas.

## Main definitions

* `IsPairRow` — the row of trees that a pair is made of
* `Tree.IsWellFormed` — every pair in a tree has such a row
* `Tree.isEntryPart`, `Tree.IsShaped` — and every object literal has entries only
* `Cursor.StandsOn`, `Cursor.Holds`, `Cursor.Lists` — what is on the stack of a cursor
* `Keeps`, `Yields`, `Extends`, `Collects` — what a rule does to the stack
* `Goal.IsOrderly` — what the rule for a goal does to the stack

## Main results

* `Cursor.StandsOn.node`, `Cursor.StandsOn.close` — a node that is closed on the bottom of the
  stack, and one that is closed above it
* `Yields.keeps` — a rule that puts one tree on the stack leaves what was there
-/

namespace ComponentCompiler.Script

/-! ### The shape of trees -/

/-- Whether a tree can name an entry of an object. A name has at least one character. -/
def Tree.isKey : Tree → Bool
  | .token .propertyName text => !text.isEmpty
  | .token kind _ => [.privateName, .number, .string].contains kind
  | .node form _ => form == .computedName

/-- Whether a tree can stand for a value. -/
def Tree.isOperand : Tree → Bool
  | .token kind _ => [.identifier, .privateName, .keyword, .number, .string, .regex].contains kind
  | .node _ _ => true

/-- The row of trees that a pair is made of: a key, a colon and a value. -/
inductive IsPairRow : List Tree → Prop
  | intro {key value : Tree} {before after : List Tree} (colon : List Char)
      (named : key.isKey = true) (first : ∀ tree ∈ before, tree.isTrivia = true)
      (second : ∀ tree ∈ after, tree.isTrivia = true) (valued : value.isOperand = true) :
      IsPairRow (key :: (before ++ .token .punctuator colon :: (after ++ [value])))

/-- Every pair in a tree is a key, a colon and a value, and a name that stands for a whole entry has
at least one character. -/
inductive Tree.IsWellFormed : Tree → Prop
  | token {kind : TokenKind} {text : List Char} (named : kind = .shorthand → text ≠ []) :
      IsWellFormed (.token kind text)
  | node {form : Form} {row : List Tree} (each : ∀ tree ∈ row, tree.IsWellFormed)
      (paired : form = .pair → IsPairRow row) : IsWellFormed (.node form row)

/-- The forms of the entries of an object literal. An entry that is a name with a default value is
meant for patterns. -/
def entryForms : List Form :=
  [.pair, .spread, .method, .shorthandDefault]

/-- Whether a tree can stand in an object literal: an entry, a brace or comma, a blank or comment. -/
def Tree.isEntryPart : Tree → Bool
  | .token kind _ => [.shorthand, .punctuator, .blank, .comment].contains kind
  | .node form _ => entryForms.contains form

/-- A tree is well-formed, and every object literal in it consists of entries. -/
inductive Tree.IsShaped : Tree → Prop
  | token {kind : TokenKind} {text : List Char} (named : kind = .shorthand → text ≠ []) :
      IsShaped (.token kind text)
  | node {form : Form} {row : List Tree} (each : ∀ tree ∈ row, tree.IsShaped)
      (paired : form = .pair → IsPairRow row)
      (listed : form = .object → ∀ tree ∈ row, tree.isEntryPart = true) : IsShaped (.node form row)

theorem Tree.IsShaped.isWellFormed {tree : Tree} (shaped : tree.IsShaped) : tree.IsWellFormed := by
  induction shaped with
  | token named => exact .token named
  | node _ paired _ ih => exact .node ih paired

/-- Whether nothing is asked of the row of a form. -/
def Form.isFree (form : Form) : Bool :=
  form != .pair && form != .object

theorem Tree.isShaped_of_isTrivia {tree : Tree} (trivia : tree.isTrivia = true) :
    tree.IsShaped := by
  cases tree with
  | token kind text => exact .token (by rintro rfl; cases trivia)
  | node form row => cases trivia

theorem Tree.isEntryPart_of_isTrivia {tree : Tree} (trivia : tree.isTrivia = true) :
    tree.isEntryPart = true := by
  unfold Tree.isTrivia at trivia
  split at trivia
  · rfl
  · rfl
  · cases trivia

theorem isTrivia_of_mem_splitTrivia {limit : Nat} {text : List Char} {tree : Tree}
    (member : tree ∈ (splitTrivia limit text).1) : tree.isTrivia = true := by
  induction limit generalizing text with
  | zero => cases member
  | succ limit ih =>
    unfold splitTrivia at member
    split at member
    case h_1 => cases member
    case h_2 kind n found =>
      rcases List.mem_cons.1 member with rfl | later
      · unfold triviaAt at found
        split at found
        · obtain ⟨length, -, same⟩ := Option.map_eq_some_iff.1 found
          cases same
          rfl
        · cases found
          rfl
      · exact ih later

/-! ### What a rule leaves -/

variable {source : List Char}

/-- Whatever a step comes to satisfies the condition. -/
def Ensures {α : Type} (result : Option α) (post : α → Prop) : Prop :=
  ∀ value ∈ result, post value

namespace Ensures

variable {α β : Type} {result other : Option α} {pre post : α → Prop}

theorem none : Ensures Option.none post := nofun

theorem some {value : α} (holds : post value) : Ensures (some value) post :=
  fun _ same => Option.some.inj same ▸ holds

theorem bind {next : α → Option β} {last : β → Prop} (first : Ensures result pre)
    (onward : ∀ value, pre value → Ensures (next value) last) :
    Ensures (result >>= next) last := by
  intro final member
  obtain ⟨value, reached, followed⟩ := Option.bind_eq_some_iff.1 member
  exact onward value (first value reached) final followed

/-- Nothing needs to be known of a value on which the condition does not depend. -/
theorem bind_any {next : α → Option β} {last : β → Prop}
    (onward : ∀ value, Ensures (next value) last) : Ensures (result >>= next) last :=
  bind (fun _ _ => trivial : Ensures result fun _ => True) fun value _ => onward value

theorem map_any {f : α → β} {last : β → Prop} (onward : ∀ value, last (f value)) :
    Ensures (result.map f) last := by
  intro final member
  obtain ⟨value, -, rfl⟩ := Option.map_eq_some_iff.1 member
  exact onward value

theorem ite {condition : Prop} [Decidable condition] (yes : Ensures result post)
    (no : Ensures other post) : Ensures (if condition then result else other) post := by
  split
  · exact yes
  · exact no

/-- A branch is only taken where its condition holds. -/
theorem branch {condition : Prop} [Decidable condition] (yes : condition → Ensures result post)
    (no : ¬ condition → Ensures other post) :
    Ensures (if condition then result else other) post := by
  split
  · next holds => exact yes holds
  · next fails => exact no fails

theorem mono (ensured : Ensures result pre) (weaker : ∀ value, pre value → post value) :
    Ensures result post :=
  fun value member => weaker value (ensured value member)

/-- Branches that go on alike are followed by one argument. -/
theorem joint {next : α → Option β} {branches : Option β} {last : β → Prop} (pre : α → Prop)
    (each : (∀ value, pre value → Ensures (next value) last) → Ensures branches last)
    (onward : ∀ value, pre value → Ensures (next value) last) : Ensures branches last :=
  each onward

end Ensures

/-! ### What is on the stack -/

namespace Cursor

/-- The trees on the stack have the right shape, those at its bottom are the given ones, and only
blanks and comments stand before the next token. -/
structure StandsOn (base : List Tree) (c : Cursor source) : Prop where
  shaped : ∀ tree ∈ c.done, tree.IsShaped
  separated : ∀ tree ∈ c.trivia, tree.isTrivia = true
  kept : base <:+ c.done

/-- One tree, which passes the test, is on top of the given trees. -/
structure Holds (test : Tree → Bool) (base : List Tree) (c : Cursor source) : Prop where
  stands : c.StandsOn base
  top : ∃ tree, test tree = true ∧ c.done = tree :: base

variable {base : List Tree} {c : Cursor source}

theorem length_le_flush (on : c.StandsOn base) : base.length ≤ c.flush.done.length :=
  (on.kept.trans (List.suffix_append _ _)).length_le

theorem flush_done (c : Cursor source) : c.flush.done = c.trivia.reverse ++ c.done := rfl

namespace StandsOn

theorem of_suffix {lower : List Tree} (on : c.StandsOn base) (below : lower <:+ base) :
    c.StandsOn lower :=
  ⟨on.shaped, on.separated, below.trans on.kept⟩

theorem ite {condition : Prop} [Decidable condition] {other : Cursor source}
    (yes : c.StandsOn base) (no : other.StandsOn base) :
    (if condition then c else other).StandsOn base := by
  split
  · exact yes
  · exact no

theorem settle (on : c.StandsOn base) : c.settle.StandsOn base := by
  refine ⟨on.shaped, fun tree member => ?_, on.kept⟩
  rcases List.mem_append.1 member with before | later
  · exact on.separated tree before
  · exact isTrivia_of_mem_splitTrivia later

/-- The trees that are on the stack when a mark is set. -/
theorem start (on : c.StandsOn base) : c.flush.StandsOn c.flush.done := by
  refine ⟨fun tree member => ?_, nofun, List.suffix_refl _⟩
  rcases List.mem_append.1 member with trivia | before
  · exact Tree.isShaped_of_isTrivia (on.separated tree (List.mem_reverse.1 trivia))
  · exact on.shaped tree before

theorem suffix_flush (on : c.StandsOn base) : base <:+ c.flush.done :=
  on.kept.trans (List.suffix_append _ _)

theorem flush (on : c.StandsOn base) : c.flush.StandsOn base :=
  on.start.of_suffix on.suffix_flush

end StandsOn

theorem done_shiftRaw (kind : TokenKind) (n : Nat) (c : Cursor source) :
    ∃ text, (c.shiftRaw kind n).done = .token kind text :: c.flush.done ∧
      (c.shiftRaw kind n).trivia = [] := by
  unfold shiftRaw
  split
  · exact ⟨_, rfl, rfl⟩
  · exact ⟨_, rfl, rfl⟩
  · exact ⟨_, rfl, rfl⟩

theorem isTrivia_of_mem_shift {kind : TokenKind} {n : Nat} {c : Cursor source} {tree : Tree}
    (member : tree ∈ (c.shift kind n).trivia) : tree.isTrivia = true := by
  obtain ⟨_, -, trivia⟩ := done_shiftRaw kind n c
  rcases List.mem_append.1 member with before | later
  · simp [trivia] at before
  · exact isTrivia_of_mem_splitTrivia later

theorem done_close (form : Form) {row base : List Tree} {c : Cursor source}
    (stack : c.done = row ++ base) :
    (c.close form base.length).done = .node form row.reverse :: base := by
  simp [close, stack]

/-- A word that comes next is passed as it is written. -/
theorem done_shiftWord (kind : TokenKind) {c : Cursor source} (some : c.word ≠ []) :
    (c.shiftWord kind).done = .token kind c.word :: c.flush.done := by
  have opening : ['('].take (wordLength ['(']) = [] := by decide
  have closing : [')'].take (wordLength [')']) = [] := by decide
  have written : c.upcoming = c.rest → c.rest.take c.word.length = c.word := by
    intro same
    have front : c.word <+: c.rest := same ▸ List.take_prefix _ _
    exact (List.prefix_iff_eq_take.1 front).symm
  obtain ⟨done, trivia, rest, enclosure, whole⟩ := c
  cases enclosure with
  | opening => exact absurd opening some
  | closing =>
    cases rest with
    | nil => exact absurd closing some
    | cons first others => exact congrArg (Tree.token kind · :: _) (written rfl)
  | absent => exact congrArg (Tree.token kind · :: _) (written rfl)

namespace StandsOn

/-- A token lies on top of all that was read before. -/
theorem shiftRaw (on : c.StandsOn base) (n : Nat) {kind : TokenKind}
    (plain : (kind == .shorthand) = false) : (c.shiftRaw kind n).StandsOn base := by
  obtain ⟨text, done, trivia⟩ := done_shiftRaw kind n c
  refine ⟨?_, by simp [trivia], ?_⟩
  · rw [done, List.forall_mem_cons]
    exact ⟨.token fun same => absurd same (by simpa using plain), on.flush.shaped⟩
  · rw [done]
    exact on.suffix_flush.trans (List.suffix_cons _ _)

theorem shift (on : c.StandsOn base) (n : Nat) {kind : TokenKind}
    (plain : (kind == .shorthand) = false) : (c.shift kind n).StandsOn base :=
  (on.shiftRaw n plain).settle

theorem shiftNext (on : c.StandsOn base) : c.shiftNext.StandsOn base :=
  on.shift _ rfl

theorem shiftWord (on : c.StandsOn base) {kind : TokenKind}
    (plain : (kind == .shorthand) = false) : (c.shiftWord kind).StandsOn base :=
  on.shift _ plain

theorem shiftChar (on : c.StandsOn base) (raw : Bool) : (c.shiftChar raw).StandsOn base := by
  unfold Cursor.shiftChar
  exact .ite (on.shiftRaw 1 rfl) (on.shift 1 rfl)

theorem expect (on : c.StandsOn base) (text : String) :
    Ensures (c.expect text) (·.StandsOn base) :=
  .ite (.some on.shiftNext) .none

theorem expectWord (on : c.StandsOn base) (text : String) :
    Ensures (c.expectWord text) (·.StandsOn base) :=
  .ite (.some (on.shiftWord rfl)) .none

theorem expectIdentifier (on : c.StandsOn base) : Ensures c.expectIdentifier (·.StandsOn base) :=
  .ite (.some (on.shiftWord rfl)) .none

theorem expectString (on : c.StandsOn base) : Ensures c.expectString (·.StandsOn base) :=
  .map_any fun n => on.shift n rfl

theorem expectPrivateName (on : c.StandsOn base) :
    Ensures c.expectPrivateName (·.StandsOn base) := by
  unfold Cursor.expectPrivateName
  split
  · exact .none
  · exact .some (on.shift _ rfl)

theorem expectChar (on : c.StandsOn base) (char : Char) (raw : Bool) :
    Ensures (c.expectChar char raw) (·.StandsOn base) :=
  .ite (.some (on.shiftChar raw)) .none

theorem expectMarkupName (on : c.StandsOn base) {kind : TokenKind}
    (plain : (kind == .shorthand) = false) :
    Ensures (c.expectMarkupName kind) (·.StandsOn base) := by
  unfold Cursor.expectMarkupName
  split
  · exact .none
  · exact .ite .none (.some (on.shift _ plain))

/-- The trees above the bottom of the stack become one node. -/
theorem gather (on : c.StandsOn base) {form : Form} {row : List Tree} (stack : c.done = row ++ base)
    (paired : form = .pair → IsPairRow row.reverse)
    (listed : form = .object → ∀ tree ∈ row, tree.isEntryPart = true) :
    (c.close form base.length).StandsOn base := by
  have done := done_close form stack
  refine ⟨?_, on.separated, done ▸ List.suffix_cons _ _⟩
  rw [done, List.forall_mem_cons]
  refine ⟨.node (fun tree member => ?_) paired fun object tree member => ?_, fun tree member => ?_⟩
  · exact on.shaped tree (stack ▸ List.mem_append_left _ (List.mem_reverse.1 member))
  · exact listed object tree (List.mem_reverse.1 member)
  · exact on.shaped tree (stack ▸ List.mem_append_right _ member)

/-- The node that is closed on the bottom of the stack is the one tree on top of it. -/
theorem holds_close (on : c.StandsOn base) {form : Form} {test : Tree → Bool}
    (free : form.isFree = true) (passes : ∀ row, test (.node form row) = true) :
    (c.close form base.length).Holds test base := by
  obtain ⟨row, stack⟩ := on.kept
  simp only [Form.isFree, Bool.and_eq_true, bne_iff_ne] at free
  exact ⟨on.gather stack.symm (absurd · free.1) (absurd · free.2), _, passes _,
    done_close form stack.symm⟩

theorem node (on : c.StandsOn base) {form : Form} (free : form.isFree = true) :
    (c.close form base.length).Holds Tree.isOperand base :=
  on.holds_close free fun _ => rfl

theorem computedName (on : c.StandsOn base) :
    (c.close .computedName base.length).Holds Tree.isKey base :=
  on.holds_close rfl fun _ => rfl

/-- A node that is closed above the bottom of the stack leaves the bottom. -/
theorem close (on : c.StandsOn base) {form : Form} {start : Nat} (above : base.length ≤ start)
    (free : form.isFree = true) : (c.close form start).StandsOn base := by
  have lower := on.kept.length_le
  have kept : base <:+ c.done.drop (c.done.length - start) := by
    refine List.suffix_of_suffix_length_le on.kept (List.drop_suffix _ _) ?_
    rw [List.length_drop]
    omega
  have same : c.close form start =
      c.close form (c.done.drop (c.done.length - start)).length := by
    have count : c.done.length - (c.done.length - (c.done.length - start)) =
        c.done.length - start := by
      omega
    simp only [Cursor.close, List.length_drop, count]
  have top : c.StandsOn (c.done.drop (c.done.length - start)) :=
    ⟨on.shaped, on.separated, List.drop_suffix _ _⟩
  rw [same]
  exact (top.node free).stands.of_suffix kept

theorem wrap (on : c.StandsOn base) {form : Form} (free : form.isFree = true) :
    (c.close form base.length).StandsOn base :=
  on.close (Nat.le_refl _) free

end StandsOn

namespace Holds

variable {test : Tree → Bool}

/-- A token is one tree on top of all that was read before. -/
theorem shift (on : c.StandsOn base) (n : Nat) {kind : TokenKind}
    (plain : (kind == .shorthand) = false) (passes : ∀ text, test (.token kind text) = true) :
    (c.shift kind n).Holds test c.flush.done := by
  obtain ⟨text, done, -⟩ := done_shiftRaw kind n c
  exact ⟨on.start.shift n plain, _, passes text, done⟩

theorem expectWord (on : c.StandsOn base) (text : String) :
    Ensures (c.expectWord text) (·.Holds Tree.isOperand c.flush.done) :=
  .ite (.some (shift on _ rfl fun _ => rfl)) .none

theorem expectString (on : c.StandsOn base) (passes : ∀ text, test (.token .string text) = true) :
    Ensures c.expectString (·.Holds test c.flush.done) :=
  .map_any fun n => shift on n rfl passes

theorem expectRegex (on : c.StandsOn base) (passes : ∀ text, test (.token .regex text) = true) :
    Ensures c.expectRegex (·.Holds test c.flush.done) :=
  .map_any fun n => shift on n rfl passes

theorem expectPrivateName (on : c.StandsOn base)
    (passes : ∀ text, test (.token .privateName text) = true) :
    Ensures c.expectPrivateName (·.Holds test c.flush.done) := by
  unfold Cursor.expectPrivateName
  split
  · exact .none
  · exact .some (shift on _ rfl passes)

/-- A word that names an entry. -/
theorem key (on : c.StandsOn base) (some : c.word ≠ []) :
    (c.shiftWord .propertyName).Holds Tree.isKey c.flush.done := by
  refine ⟨on.start.shiftWord rfl, _, ?_, done_shiftWord .propertyName some⟩
  simpa [Tree.isKey] using some

end Holds

/-- A word that stands for a whole entry. -/
theorem Holds.shorthand (on : c.StandsOn base) (some : c.word ≠ []) :
    (c.shiftWord .shorthand).Holds Tree.isEntryPart c.flush.done := by
  have done := done_shiftWord .shorthand some
  refine ⟨⟨?_, fun _ => isTrivia_of_mem_shift, done ▸ List.suffix_cons _ _⟩, _, rfl, done⟩
  rw [done, List.forall_mem_cons]
  exact ⟨.token fun _ => some, on.flush.shaped⟩

/-! ### Entries on the stack -/

/-- Parts of an object literal, and nothing else, lie on top of the given trees. -/
structure Lists (base : List Tree) (c : Cursor source) : Prop where
  stands : c.StandsOn base
  listed : ∃ row, (∀ tree ∈ row, tree.isEntryPart = true) ∧ c.done = row ++ base

namespace Lists

theorem flush (lists : c.Lists base) : c.flush.Lists base := by
  obtain ⟨row, listed, stack⟩ := lists.listed
  refine ⟨lists.stands.flush, c.trivia.reverse ++ row, fun tree member => ?_, ?_⟩
  · rcases List.mem_append.1 member with trivia | before
    · exact Tree.isEntryPart_of_isTrivia (lists.stands.separated tree (List.mem_reverse.1 trivia))
    · exact listed tree before
  · rw [flush_done, stack, List.append_assoc]

/-- One more part of an object literal lies on top of the others. -/
theorem add (lists : c.Lists base) {d : Cursor source}
    (holds : d.Holds Tree.isEntryPart c.flush.done) : d.Lists base := by
  obtain ⟨row, listed, stack⟩ := lists.flush.listed
  obtain ⟨tree, part, top⟩ := holds.top
  refine ⟨holds.stands.of_suffix lists.stands.suffix_flush, tree :: row, ?_, ?_⟩
  · exact List.forall_mem_cons.2 ⟨part, listed⟩
  · rw [top, stack, List.cons_append]

theorem shiftNext (lists : c.Lists base) : c.shiftNext.Lists base :=
  lists.add (.shift lists.stands _ rfl fun _ => rfl)

theorem expect (lists : c.Lists base) (text : String) : Ensures (c.expect text) (·.Lists base) :=
  .ite (.some lists.shiftNext) .none

/-- The parts above the bottom of the stack become an object literal. -/
theorem close (lists : c.Lists base) :
    (c.close .object base.length).Holds Tree.isOperand base := by
  obtain ⟨row, listed, stack⟩ := lists.listed
  exact ⟨lists.stands.gather stack nofun fun _ => listed, _, rfl, done_close .object stack⟩

end Lists

end Cursor

/-! ### What rules do to the stack -/

/-- The rule leaves what was on the stack. -/
def Keeps (rule : Rule source) : Prop :=
  ∀ ⦃base c⦄, c.StandsOn base → Ensures (rule c) (·.StandsOn base)

/-- The rule puts one tree on the stack, which passes the test. -/
def Yields (test : Tree → Bool) (rule : Rule source) : Prop :=
  ∀ ⦃base c⦄, c.StandsOn base → Ensures (rule c) (·.Holds test c.flush.done)

/-- The rule puts one operand in the place of the operand on top of the stack, which started at the
mark. -/
def Extends (start : Nat) (rule : Rule source) : Prop :=
  ∀ ⦃base c⦄, base.length = start → c.Holds Tree.isOperand base →
    Ensures (rule c) (·.Holds Tree.isOperand base)

/-- The rule puts parts of an object literal on the stack. -/
def Collects (rule : Rule source) : Prop :=
  ∀ ⦃base c⦄, c.Lists base → Ensures (rule c) (·.Lists base)

theorem Yields.keeps {test : Tree → Bool} {rule : Rule source} (yields : Yields test rule) :
    Keeps rule :=
  fun _ _ on => (yields on).mono fun _ holds => holds.stands.of_suffix on.suffix_flush

/-- What the rule for a goal does to the stack. -/
def Goal.IsOrderly (rule : Rule source) : Goal → Prop
  | .assignment _ | .binary _ _ | .unary | .operand | .markupElement _ =>
    Yields Tree.isOperand rule
  | .binaryTail start _ _ | .accessTail start _ => Extends start rule
  | .entries => Collects rule
  | .markupNameTail start =>
    ∀ ⦃base c⦄, base.length ≤ start → c.StandsOn base → Ensures (rule c) (·.StandsOn base)
  | _ => Keeps rule

/-- Each rule does to the stack what it should. -/
def Rules.IsOrderly (self : Rules source) : Prop :=
  ∀ goal : Goal, goal.IsOrderly (self goal)

/-- A rule that leaves what is on the stack when it sets its mark leaves what was on the stack. -/
theorem keeps_of_start {rule : Rule source}
    (reads : ∀ ⦃base c⦄, c.StandsOn base → Ensures (rule c) (·.StandsOn c.flush.done)) :
    Keeps rule :=
  fun _ _ on => (reads on).mono fun _ stands => stands.of_suffix on.suffix_flush

end ComponentCompiler.Script
