import ComponentCompiler.Proofs.Script.Stack
import ComponentCompiler.Script.Snippet

/-!
# The rules of the grammar keep the stack in order

Each rule of the grammar treats the stack of its cursor as the rules that call it expect, if the
rules that it calls itself do. So all of them do, however deep they are nested, and the tree of a
text that follows the grammar is well-formed. A rule is followed step by step: in each proof `on`
tells what is at the bottom of the stack of the cursor `c` that the rule has come to.

## Main results

* `holds_pairRule`, `collects_entriesRule` — the row of a pair, and that of an object literal
* `isOrderly_ruleOf` — the rule for a goal is orderly if those for the goals inside are
* `isShaped_of_readProgram` — whatever follows the grammar has a tree of the right shape
* `isShaped_expression?` — and so has the expression that a text consists of
-/

namespace ComponentCompiler.Script

open Cursor (StandsOn Holds length_le_flush)

variable {source : List Char} {self : Rules source} {base : List Tree} {c : Cursor source}

/-! ### Rules that call no other goals -/

theorem standsOn_passModifiers (limit : Nat) (on : c.StandsOn base) :
    (passModifiers limit c).StandsOn base := by
  induction limit generalizing c with
  | zero => exact on
  | succ limit ih =>
    unfold passModifiers
    exact .ite (ih (on.shiftWord rfl)) on

theorem keeps_fieldEnd : Keeps (@fieldEnd source) :=
  fun _ _ on => .ite (.some on.shiftNext) (.ite (.some on) .none)

/-- A string or number is one tree. -/
theorem yields_literalRule {test : Tree → Bool} (number : ∀ text, test (.token .number text) = true)
    (string : ∀ text, test (.token .string text) = true) :
    Yields test (@literalRule source) :=
  fun _ _ on => .ite (.expectString on string) (.ite .none (.some (.shift on _ rfl number)))

theorem yields_importRule : Yields Tree.isOperand (@importRule source) := by
  intro base c on
  refine (Holds.expectWord on.start _).bind fun c holds => ?_
  refine .ite ?_ (.ite (.some holds) .none)
  exact (holds.stands.shiftNext.expectWord _).bind fun c on => .some (on.node rfl)

theorem keeps_semicolon : Keeps (@semicolon source) :=
  fun _ _ on => .ite (.some on.shiftNext) (.ite (.some on) .none)

theorem keeps_jumpRule : Keeps (@jumpRule source) := by
  refine keeps_of_start fun base c on => ?_
  have on : (c.flush.shiftWord .keyword).StandsOn c.flush.done := on.start.shiftWord rfl
  exact (keeps_semicolon (.ite (on.shiftWord rfl) on)).bind fun c on =>
    .some (on.wrap rfl)

theorem keeps_moduleName : Keeps (@moduleName source) :=
  fun _ _ on => .ite on.expectString (.some (on.shiftWord rfl))

theorem keeps_sourceRule : Keeps (@sourceRule source) :=
  fun _ _ on => (on.expectWord _).bind fun _ on => on.expectString

/-! ### Functions and classes -/

section
variable (orderly : self.IsOrderly)
include orderly

theorem holds_primaryRule (allowCall : Bool) (on : c.StandsOn base) (bottom : c.flush.done = base) :
    Ensures (primaryRule self base.length allowCall c) (·.Holds Tree.isOperand base) := by
  have operand := orderly .operand on
  rw [bottom] at operand
  refine operand.bind fun c holds => ?_
  exact .ite (.some holds) (orderly (.accessTail _ allowCall) rfl holds)

theorem yields_blockRule : Yields Tree.isOperand (blockRule self) := by
  intro base c on
  refine (on.start.expect _).bind fun c on => ?_
  refine (orderly .statements on).bind fun c on => ?_
  refine (on.expect _).bind fun c on => ?_
  exact .some (on.node rfl)

theorem yields_parametersRule : Yields Tree.isOperand (parametersRule self) := by
  intro base c on
  refine (on.start.expect _).bind fun c on => ?_
  refine (orderly (.elements ")") on).bind fun c on => ?_
  refine (on.expect _).bind fun c on => ?_
  exact .some (on.node rfl)

theorem yields_argumentsRule : Yields Tree.isOperand (argumentsRule self) := by
  intro base c on
  refine (on.start.expect _).bind fun c on => ?_
  refine (orderly (.elements ")") on).bind fun c on => ?_
  refine (on.expect _).bind fun c on => ?_
  exact .some (on.node rfl)

theorem yields_keyRule : Yields Tree.isKey (keyRule self) := by
  intro base c on
  have on := on.start
  refine .ite ?_ (.ite ?_ ?_)
  · refine ((orderly (.assignment true)).keeps on.shiftNext).bind fun c on => ?_
    refine (on.expect _).bind fun c on => ?_
    exact .some on.computedName
  · exact .expectPrivateName on fun _ => rfl
  · split
    case isTrue word =>
      have named := Holds.key on (by simpa using word)
      exact .some named
    case isFalse => exact yields_literalRule (fun _ => rfl) (fun _ => rfl) on

theorem holds_methodRule (on : c.StandsOn base) :
    Ensures (methodRule self base.length c) (·.Holds Tree.isEntryPart base) := by
  refine ((yields_parametersRule orderly).keeps on).bind fun c on => ?_
  refine (orderly .block on).bind fun c on => ?_
  exact .some (on.holds_close rfl fun _ => rfl)

theorem yields_functionRule : Yields Tree.isOperand (functionRule self) := by
  intro base c on
  refine ((StandsOn.ite (on.start.shiftWord rfl) on.start).expectWord _).bind fun c on => ?_
  have on : (if c.sees "*" then c.shiftNext else c).StandsOn _ := .ite on.shiftNext on
  refine ((yields_parametersRule orderly).keeps (.ite (on.shiftWord rfl) on)).bind fun c on => ?_
  refine (orderly .block on).bind fun c on => ?_
  exact .some (on.node rfl)

theorem keeps_memberRule : Keeps (memberRule self) := by
  refine keeps_of_start fun base c on => ?_
  have on := standsOn_passModifiers 3 on.start
  refine .ite ?_ ?_
  · exact (orderly .block on).bind fun c on => .some (on.wrap rfl)
  · refine ((yields_keyRule orderly).keeps (.ite on.shiftNext on)).bind fun c on => ?_
    refine .ite ((holds_methodRule orderly on).mono fun _ holds => holds.stands) ?_
    refine .joint (StandsOn _) (fun onward =>
      .ite (((orderly (.assignment true)).keeps on.shiftNext).bind onward)
        (.bind (.some on) onward)) fun c on => ?_
    exact keeps_fieldEnd (on.wrap rfl)

theorem keeps_membersRule : Keeps (membersRule self) := by
  intro base c on
  refine .ite (.some on) (.ite (orderly .members on.shiftNext) ?_)
  exact (keeps_memberRule orderly on).bind fun c on => orderly .members on

theorem yields_classRule : Yields Tree.isOperand (classRule self) := by
  intro base c on
  refine (on.start.expectWord _).bind fun c on => ?_
  have on : (if c.seesIdentifier then c.shiftWord .declaredName else c).StandsOn _ :=
    .ite (on.shiftWord rfl) on
  refine .joint (StandsOn _) (fun onward => .ite ?_ (.bind (.some on) onward)) fun c on => ?_
  · have on : (Cursor.shiftWord .keyword _).StandsOn _ := on.shiftWord rfl
    refine (holds_primaryRule orderly true on.start rfl).bind fun c holds => ?_
    exact onward c (holds.stands.of_suffix on.suffix_flush)
  · have above := length_le_flush on
    refine (on.flush.expect _).bind fun c on => ?_
    refine (orderly .members on).bind fun c on => ?_
    refine (on.expect _).bind fun c on => ?_
    exact .some ((on.close above rfl).node rfl)

/-! ### Sequences and assignments -/

theorem keeps_expressionRule (allowIn : Bool) : Keeps (expressionRule self allowIn) := by
  refine keeps_of_start fun base c on => ?_
  refine ((orderly (.assignment allowIn)).keeps on.start).bind fun c on => ?_
  refine .ite ?_ (.some on)
  exact (orderly (.sequenceTail allowIn) on.shiftNext).bind fun c on =>
    .some (on.wrap rfl)

theorem keeps_sequenceTailRule (allowIn : Bool) : Keeps (sequenceTailRule self allowIn) := by
  intro base c on
  refine ((orderly (.assignment allowIn)).keeps on).bind fun c on => ?_
  exact .ite (orderly (.sequenceTail allowIn) on.shiftNext) (.some on)

theorem holds_arrowRule (allowIn : Bool) (on : c.StandsOn base) :
    Ensures (arrowRule self base.length allowIn c) (·.Holds Tree.isOperand base) := by
  refine (on.expect _).bind fun c on => ?_
  refine .joint (StandsOn _) (fun onward =>
    .ite ((orderly .block on).bind onward)
      (((orderly (.assignment allowIn)).keeps on).bind onward)) fun c on => ?_
  exact .some (on.node rfl)

theorem holds_yieldRule (allowIn : Bool) (on : c.StandsOn base) :
    Ensures (yieldRule self base.length allowIn c) (·.Holds Tree.isOperand base) := by
  have bare : (c.shiftWord .keyword).StandsOn base := on.shiftWord rfl
  refine .ite ?_ (.ite (.some (bare.node rfl)) ?_)
  · refine ((orderly (.assignment allowIn)).keeps bare.shiftNext).bind fun c on => ?_
    exact .some (on.node rfl)
  · refine ((orderly (.assignment allowIn)).keeps bare).bind fun c on => ?_
    exact .some (on.node rfl)

theorem holds_conditionalRule (allowIn : Bool) (on : c.StandsOn base) :
    Ensures (conditionalRule self base.length allowIn c) (·.Holds Tree.isOperand base) := by
  refine (on.expect _).bind fun c on => ?_
  refine ((orderly (.assignment true)).keeps on).bind fun c on => ?_
  refine (on.expect _).bind fun c on => ?_
  refine ((orderly (.assignment allowIn)).keeps on).bind fun c on => ?_
  exact .some (on.node rfl)

theorem yields_assignmentRule (allowIn : Bool) :
    Yields Tree.isOperand (assignmentRule self allowIn) := by
  intro base c on
  have on := on.start
  refine .ite (holds_yieldRule orderly allowIn on) (.ite ?_ (.ite ?_ ?_))
  · exact holds_arrowRule orderly allowIn ((on.shiftWord rfl).wrap rfl)
  · have above : c.flush.done.length ≤ (c.flush.shiftWord .keyword).flush.done.length :=
      length_le_flush (on.shiftWord rfl)
    exact holds_arrowRule orderly allowIn (((on.shiftWord rfl).flush.shiftWord rfl).close above rfl)
  · refine (orderly (.binary 0 allowIn) on).bind fun c holds => ?_
    have on := holds.stands
    refine .ite (.some holds) (.ite (holds_conditionalRule orderly allowIn on) ?_)
    split
    · refine .ite ?_ .none
      refine ((orderly (.assignment allowIn)).keeps on.shiftNext).bind fun c on => ?_
      exact .some (on.node (by split <;> rfl))
    · exact .some holds

/-! ### Binary and unary operators -/

theorem yields_binaryRule (level : Nat) (allowIn : Bool) :
    Yields Tree.isOperand (binaryRule self level allowIn) := by
  intro base c on
  refine (orderly .unary on.start).bind fun c holds => ?_
  exact .ite (.some holds) (orderly (.binaryTail _ level allowIn) rfl holds)

theorem extends_binaryTailRule (start level : Nat) (allowIn : Bool) :
    Extends start (binaryTailRule self start level allowIn) := by
  rintro base c rfl holds
  unfold binaryTailRule
  split
  · exact .some holds
  · refine .ite (.some holds) ?_
    have on : (if c.word.isEmpty then c.shiftNext else c.shiftWord .keyword).StandsOn base :=
      .ite holds.stands.shiftNext (holds.stands.shiftWord rfl)
    refine ((orderly (.binary _ allowIn)).keeps on).bind fun c on => ?_
    exact orderly (.binaryTail _ level allowIn) rfl (on.node rfl)

theorem yields_unaryRule : Yields Tree.isOperand (unaryRule self) := by
  intro base c on
  have on := on.start
  refine .ite ?_ (.ite ?_ (.ite ?_ (.ite ?_ ?_)))
  · exact ((orderly .unary).keeps on.shiftNext).bind fun c on => .some (on.node rfl)
  · exact ((orderly .unary).keeps on.shiftNext).bind fun c on => .some (on.node rfl)
  · exact ((orderly .unary).keeps (on.shiftWord rfl)).bind fun c on => .some (on.node rfl)
  · exact ((orderly .unary).keeps (on.shiftWord rfl)).bind fun c on => .some (on.node rfl)
  · refine (holds_primaryRule orderly true on rfl).bind fun c holds => .ite (.some holds) ?_
    exact .ite (.some (holds.stands.shiftNext.node rfl)) (.some holds)

/-! ### Operands -/

theorem yields_parenthesisRule : Yields Tree.isOperand (parenthesisRule self) := by
  intro base c on
  refine (on.start.expect _).bind fun c on => ?_
  have above := length_le_flush on
  refine (orderly (.elements ")") on.flush).bind fun c on => ?_
  refine .ite (.ite ?_ (.ite ?_ .none)) .none
  · exact holds_arrowRule orderly true (on.shiftNext.wrap rfl)
  · exact .some ((StandsOn.ite on (on.close above rfl)).shiftNext.node rfl)

/-- The arguments lie on the operand, or the operand and they have become an arrow function. -/
theorem stands_applicationRule (on : c.StandsOn base) :
    Ensures (applicationRule self base.length c) fun c =>
      c.StandsOn base ∧ (c.lastIs .arrow = true → c.Holds Tree.isOperand base) := by
  have above := length_le_flush on
  refine (on.flush.expect _).bind fun c on => ?_
  refine (orderly (.elements ")") on).bind fun c on => ?_
  refine (on.expect _).bind fun c on => .ite (.ite ?_ .none) (.some ⟨on.close above rfl, nofun⟩)
  exact (holds_arrowRule orderly true (on.close above rfl)).mono fun c holds =>
    ⟨holds.stands, fun _ => holds⟩

theorem yields_constructionRule : Yields Tree.isOperand (constructionRule self) := by
  intro base c on
  refine (on.start.expectWord _).bind fun c on => ?_
  refine .ite ((on.shiftNext.expectWord _).bind fun c on => .some (on.node rfl)) ?_
  refine (holds_primaryRule orderly false on.start rfl).bind fun d holds => ?_
  have applied := (stands_applicationRule orderly holds.stands).mono fun _ applied =>
    applied.1.of_suffix on.suffix_flush
  refine .joint (StandsOn _) (fun onward => .ite (applied.bind onward)
    (.bind (.some (holds.stands.of_suffix on.suffix_flush)) onward)) fun c on => ?_
  exact .some (on.node rfl)

theorem yields_templateRule : Yields Tree.isOperand (templateRule self) := by
  intro base c on
  exact (orderly .templateParts (on.start.shiftRaw 1 rfl)).bind fun c on => .some (on.node rfl)

theorem keeps_templatePartsRule : Keeps (templatePartsRule self) := by
  intro base c on
  refine .bind_any fun n => ?_
  have on : (if n == 0 then c else c.shiftRaw .templateText n).StandsOn base :=
    .ite on (on.shiftRaw n rfl)
  have above := length_le_flush on
  refine .ite ?_ (.some (on.shift 1 rfl))
  refine (orderly (.expression true) (on.flush.shift 2 rfl)).bind fun c on => ?_
  exact .ite (orderly .templateParts ((on.shiftRaw 1 rfl).close above rfl)) .none

theorem yields_wordRule : Yields Tree.isOperand (wordRule self) := by
  intro base c on
  refine .ite (yields_functionRule orderly on) (.ite (yields_classRule orderly on) (.ite
    (yields_constructionRule orderly on) (.ite (yields_importRule on) (.ite ?_ (.ite .none (.ite
      (yields_functionRule orderly on) ?_))))))
  · exact .some (.shift on _ rfl fun _ => rfl)
  · exact .some (.shift on _ rfl fun _ => rfl)

theorem yields_arrayRule : Yields Tree.isOperand (arrayRule self) := by
  intro base c on
  refine (on.start.expect _).bind fun c on => ?_
  refine (orderly (.elements "]") on).bind fun c on => ?_
  exact (on.expect _).bind fun c on => .some (on.node rfl)

theorem yields_objectRule : Yields Tree.isOperand (objectRule self) := by
  intro base c on
  have bottom : c.flush.Lists c.flush.done := ⟨on.start, [], nofun, rfl⟩
  refine (bottom.expect _).bind fun c lists => ?_
  refine (orderly .entries lists).bind fun c lists => ?_
  exact (lists.expect _).bind fun c lists => .some lists.close

theorem yields_operandRule : Yields Tree.isOperand (operandRule self) := by
  intro base c on
  refine .ite (yields_wordRule orderly on) (.ite (yields_parenthesisRule orderly on) ?_)
  refine .ite (yields_arrayRule orderly on) (.ite (yields_objectRule orderly on) ?_)
  refine .ite (yields_templateRule orderly on) (.ite (.expectRegex on fun _ => rfl) ?_)
  refine .ite (orderly (.markupElement false) on) (.ite (.expectPrivateName on fun _ => rfl) ?_)
  exact yields_literalRule (fun _ => rfl) (fun _ => rfl) on

theorem holds_callTailRule (holds : c.Holds Tree.isOperand base) :
    Ensures (callTailRule self base.length c) (·.Holds Tree.isOperand base) := by
  refine (stands_applicationRule orderly holds.stands).bind fun c applied => ?_
  exact .branch (fun arrow => .some (applied.2 arrow)) fun _ => orderly (.accessTail _ true) rfl (applied.1.node rfl)

theorem extends_accessTailRule (start : Nat) (allowCall : Bool) :
    Extends start (accessTailRule self start allowCall) := by
  rintro base c rfl holds
  have on := holds.stands
  have resume {d : Cursor source} (on : d.StandsOn base) (form : Form)
      (free : form.isFree = true) :
      Ensures (self (.accessTail base.length allowCall) (d.close form base.length))
        (·.Holds Tree.isOperand base) :=
    orderly (.accessTail _ allowCall) rfl (on.node free)
  have arguments {d : Cursor source} (on : d.StandsOn base) :=
    (yields_argumentsRule orderly).keeps on
  have subscript {d : Cursor source} (on : d.StandsOn base) :=
    orderly (.expression true) on
  refine .ite (.ite ?_ (.ite ?_ (.ite ?_ (.ite ?_ .none)))) (.ite ?_ (.ite ?_ (.ite ?_ ?_)))
  · exact (on.shiftNext.expectPrivateName).bind fun c on => resume on .member rfl
  · exact resume (on.shiftNext.shiftWord rfl) .member rfl
  · exact (arguments on.shiftNext).bind fun c on => resume on .call rfl
  · refine (subscript on.shiftNext.shiftNext).bind fun c on => ?_
    exact (on.expect _).bind fun c on => resume on .subscript rfl
  · refine (subscript on.shiftNext).bind fun c on => ?_
    exact (on.expect _).bind fun c on => resume on .subscript rfl
  · exact holds_callTailRule orderly holds
  · exact ((yields_templateRule orderly).keeps on).bind fun c on => resume on .call rfl
  · exact .ite .none (.some holds)

/-! ### Rows of items and entries -/

theorem keeps_itemRule : Keeps (itemRule self) := by
  refine keeps_of_start fun base c on => ?_
  have on := on.start
  refine .ite ?_ ((orderly (.assignment true)).keeps on)
  exact ((orderly (.assignment true)).keeps on.shiftNext).bind fun c on =>
    .some (on.wrap rfl)

theorem keeps_elementsRule (closer : String) : Keeps (elementsRule self closer) := by
  intro base c on
  refine .ite (.some on) (.ite (orderly (.elements closer) on.shiftNext) ?_)
  refine (keeps_itemRule orderly on).bind fun c on => ?_
  exact .ite (orderly (.elements closer) on.shiftNext) (.ite (.some on) .none)

/-- After a key comes a colon, and then one operand. -/
theorem holds_pairRule (holds : c.Holds Tree.isKey base) :
    Ensures (pairRule self base.length c) (·.Holds Tree.isEntryPart base) := by
  obtain ⟨key, named, keyed⟩ := holds.top
  obtain ⟨colon, marked, -⟩ := Cursor.done_shiftRaw .punctuator c.next.length c
  have expected : Ensures (c.expect ":") (· = c.shiftNext) := .ite (.some rfl) .none
  refine expected.bind ?_
  rintro _ rfl
  have on := holds.stands.shiftNext
  refine (orderly (.assignment true) on).bind fun d valued => ?_
  obtain ⟨value, operand, top⟩ := valued.top
  have stack : d.done =
      (value :: (c.shiftNext.trivia.reverse ++ .token .punctuator colon ::
        (c.trivia.reverse ++ [key]))) ++ base := by
    have below : c.shiftNext.done = .token .punctuator colon :: (c.trivia.reverse ++ c.done) :=
      marked
    rw [top, Cursor.flush_done, below, keyed]
    simp
  have row := IsPairRow.intro colon named holds.stands.separated on.separated operand
  have paired : (d.close .pair base.length).StandsOn base :=
    (valued.stands.of_suffix on.suffix_flush).gather stack (fun _ => by simpa using row) nofun
  exact .some ⟨paired, _, rfl, Cursor.done_close .pair stack⟩

theorem holds_wordEntryRule (on : c.StandsOn base) (bottom : c.flush.done = base)
    (word : c.word ≠ []) :
    Ensures (wordEntryRule self base.length c) (·.Holds Tree.isEntryPart base) := by
  have shorthand := Holds.shorthand on word
  rw [bottom] at shorthand
  refine .ite (holds_methodRule orderly (on.shiftWord rfl)) (.ite ?_ (.ite .none (.ite ?_ ?_)))
  · have keyed := Holds.key on word
    rw [bottom] at keyed
    exact holds_pairRule orderly keyed
  · refine ((orderly (.assignment true)).keeps shorthand.stands.shiftNext).bind fun c on => ?_
    exact .some (on.holds_close rfl fun _ => rfl)
  · exact .some shorthand

theorem yields_entryRule : Yields Tree.isEntryPart (entryRule self) := by
  intro base c on
  have on := on.start
  have method {d : Cursor source} (on : d.StandsOn c.flush.done) :
      Ensures (do let d ← keyRule self d; methodRule self c.flush.done.length d)
        (·.Holds Tree.isEntryPart c.flush.done) :=
    ((yields_keyRule orderly).keeps on).bind fun d on => holds_methodRule orderly on
  refine .ite ?_ (.ite ?_ (.ite ?_ ?_))
  · refine ((orderly (.assignment true)).keeps on.shiftNext).bind fun c on => ?_
    exact .some (on.holds_close rfl fun _ => rfl)
  · exact method on.shiftNext
  · have on : (c.flush.shiftWord .keyword).StandsOn c.flush.done := on.shiftWord rfl
    exact method (.ite on.shiftNext on)
  · split
    case isTrue word => exact holds_wordEntryRule orderly on rfl (by simpa using word)
    case isFalse =>
      refine (yields_keyRule orderly on).bind fun c holds => ?_
      exact .ite (holds_methodRule orderly holds.stands) (holds_pairRule orderly holds)

theorem collects_entriesRule : Collects (entriesRule self) := by
  intro base c lists
  refine .ite (.some lists) (.ite (orderly .entries lists.shiftNext) ?_)
  refine (yields_entryRule orderly lists.stands).bind fun d holds => ?_
  have lists := lists.add holds
  exact .ite (orderly .entries lists.shiftNext) (.ite (.some lists) .none)

/-! ### Markup -/

theorem keeps_markupNameRule : Keeps (markupNameRule self) := by
  refine keeps_of_start fun base c on => ?_
  refine (on.start.expectMarkupName rfl).bind fun c on => ?_
  refine .ite ((on.shiftChar false).expectMarkupName rfl) ?_
  exact orderly (.markupNameTail _) (Nat.le_refl _) on

theorem standsOn_markupNameTailRule {start : Nat} (above : base.length ≤ start)
    (on : c.StandsOn base) : Ensures (markupNameTailRule self start c) (·.StandsOn base) := by
  refine .ite (.ite .none ?_) (.ite .none (.some on))
  refine ((on.shiftChar false).expectMarkupName rfl).bind fun c on => ?_
  exact orderly (.markupNameTail start) above (on.close above rfl)

theorem keeps_markupExpressionRule (inside : Bool) :
    Keeps (markupExpressionRule self inside) := by
  refine keeps_of_start fun base c on => ?_
  refine (on.start.expectChar _ _).bind fun c on => ?_
  refine .joint (StandsOn _) (fun onward =>
    .ite (.bind (.some on) onward) (.ite
      (((orderly (.assignment true)).keeps on.shiftNext).bind onward)
      ((orderly (.expression true) on).bind onward))) fun c on => ?_
  exact (on.expectChar _ _).bind fun c on => .some (on.wrap rfl)

theorem keeps_markupValueRule : Keeps (markupValueRule self) := by
  intro base c on
  refine .ite (keeps_markupExpressionRule orderly false on) ?_
  exact .ite ((orderly (.markupElement false)).keeps on) (.map_any fun n => on.shift n rfl)

theorem keeps_markupAttributesRule : Keeps (markupAttributesRule self) := by
  intro base c on
  refine .ite ?_ (.ite (.some on) ?_)
  · exact (keeps_markupExpressionRule orderly false on).bind fun c on =>
      orderly .markupAttributes on
  · have above := length_le_flush on
    refine (on.flush.expectMarkupName rfl).bind fun c on => ?_
    refine .joint (StandsOn base) (fun onward =>
      .ite (((on.shiftChar false).expectMarkupName rfl).bind onward)
        (.bind (.some on) onward)) fun c on => ?_
    refine .joint (StandsOn base) (fun onward =>
      .ite ((keeps_markupValueRule orderly (on.shiftChar false)).bind onward)
        (.bind (.some on) onward)) fun c on => ?_
    exact orderly .markupAttributes (on.close above rfl)

theorem keeps_markupChildrenRule : Keeps (markupChildrenRule self) := by
  intro base c on
  refine .ite (.some on) (.ite ?_ (.ite ?_ ?_))
  · exact ((orderly (.markupElement true)).keeps on).bind fun c on => orderly .markupChildren on
  · exact (keeps_markupExpressionRule orderly true on).bind fun c on => orderly .markupChildren on
  · exact .bind_any fun n => orderly .markupChildren (on.shiftRaw n rfl)

theorem keeps_closingTagRule (inside : Bool) : Keeps (closingTagRule self inside) := by
  refine keeps_of_start fun base c on => ?_
  have on := on.start.shift 2 (rfl : (TokenKind.punctuator == .shorthand) = false)
  refine .joint (StandsOn _) (fun onward =>
    .ite (.bind (.some on) onward) ((keeps_markupNameRule orderly on).bind onward)) fun c on => ?_
  exact (on.expectChar _ _).bind fun c on => .some (on.wrap rfl)

theorem yields_markupElementRule (inside : Bool) :
    Yields Tree.isOperand (markupElementRule self inside) := by
  intro base c on
  have closed {d : Cursor source} (on : d.StandsOn c.flush.done) :
      Ensures (do
        let d ← self .markupChildren d
        let d ← closingTagRule self inside d
        some (d.close .markupElement c.flush.done.length))
      (·.Holds Tree.isOperand c.flush.done) :=
    (orderly .markupChildren on).bind fun d on =>
      (keeps_closingTagRule orderly inside on).bind fun d on => .some (on.node rfl)
  refine (on.start.expectChar _ _).bind fun c on => .ite ?_ ?_
  · exact closed ((on.shiftChar true).wrap rfl)
  · refine (keeps_markupNameRule orderly on).bind fun c on => ?_
    refine (orderly .markupAttributes on).bind fun c on => .ite ?_ ?_
    · refine ((on.shiftChar false).expectChar _ _).bind fun c on => ?_
      exact .some ((on.wrap rfl).node rfl)
    · refine (on.expectChar _ _).bind fun c on => ?_
      exact closed (on.wrap rfl)

/-! ### Statements -/

theorem keeps_conditionRule : Keeps (conditionRule self) := by
  refine keeps_of_start fun base c on => ?_
  refine (on.start.expect _).bind fun c on => ?_
  refine (orderly (.expression true) on).bind fun c on => ?_
  exact (on.expect _).bind fun c on => .some (on.wrap rfl)

theorem keeps_bindingRule : Keeps (bindingRule self) :=
  fun _ _ on => .ite ((orderly .operand).keeps on) on.expectIdentifier

theorem keeps_declaratorsRule (allowIn : Bool) : Keeps (declaratorsRule self allowIn) := by
  refine keeps_of_start fun base c on => ?_
  refine (keeps_bindingRule orderly on.start).bind fun c on => ?_
  refine .joint (StandsOn _) (fun onward =>
    .ite (((orderly (.assignment allowIn)).keeps on.shiftNext).bind onward)
      (.bind (.some on) onward)) fun c on => ?_
  have on := on.wrap (rfl : Form.declarator.isFree = true)
  exact .ite (orderly (.declarators allowIn) on.shiftNext) (.some on)

theorem keeps_declarationRule : Keeps (declarationRule self) := by
  refine keeps_of_start fun base c on => ?_
  refine (orderly (.declarators true) (on.start.shiftWord rfl)).bind fun c on => ?_
  exact (keeps_semicolon on).bind fun c on => .some (on.wrap rfl)

/-! ### Control flow -/

theorem keeps_ifRule : Keeps (ifRule self) := by
  refine keeps_of_start fun base c on => ?_
  refine (keeps_conditionRule orderly (on.start.shiftWord rfl)).bind fun c on => ?_
  refine (orderly .statement on).bind fun c on => ?_
  refine .joint (StandsOn _) (fun onward =>
    .ite ((orderly .statement (on.shiftWord rfl)).bind onward) (.bind (.some on) onward))
    fun c on => ?_
  exact .some (on.wrap rfl)

theorem standsOn_forEachTailRule (on : c.StandsOn base) :
    Ensures (forEachTailRule self base.length c) (·.StandsOn base) := by
  refine (orderly (.expression true) (on.shiftWord rfl)).bind fun c on => ?_
  refine (on.expect _).bind fun c on => ?_
  exact (orderly .statement on).bind fun c on => .some (on.wrap rfl)

theorem standsOn_forTailRule (on : c.StandsOn base) :
    Ensures (forTailRule self base.length c) (·.StandsOn base) := by
  refine (on.expect _).bind fun c on => ?_
  refine .joint (StandsOn base) (fun onward =>
    .ite (.bind (.some on) onward) ((orderly (.expression true) on).bind onward)) fun c on => ?_
  refine (on.expect _).bind fun c on => ?_
  refine .joint (StandsOn base) (fun onward =>
    .ite (.bind (.some on) onward) ((orderly (.expression true) on).bind onward)) fun c on => ?_
  refine (on.expect _).bind fun c on => ?_
  exact (orderly .statement on).bind fun c on => .some (on.wrap rfl)

theorem keeps_forRule : Keeps (forRule self) := by
  refine keeps_of_start fun base c on => ?_
  have on : (c.flush.shiftWord .keyword).StandsOn c.flush.done := on.start.shiftWord rfl
  refine ((StandsOn.ite (on.shiftWord rfl) on).expect _).bind fun d on => ?_
  have above := length_le_flush on
  have on := on.flush
  refine .ite (standsOn_forTailRule orderly on) (.ite ?_ ?_)
  · refine (orderly (.declarators false) (on.shiftWord rfl)).bind fun d on => ?_
    have on := on.close above (rfl : Form.declaration.isFree = true)
    exact .ite (standsOn_forEachTailRule orderly on) (standsOn_forTailRule orderly on)
  · refine (orderly (.expression false) on).bind fun d on => ?_
    refine .ite (.ite ?_ .none) (standsOn_forTailRule orderly on)
    exact standsOn_forEachTailRule orderly (on.close above rfl)

theorem keeps_whileRule : Keeps (whileRule self) := by
  refine keeps_of_start fun base c on => ?_
  refine (keeps_conditionRule orderly (on.start.shiftWord rfl)).bind fun c on => ?_
  exact (orderly .statement on).bind fun c on => .some (on.wrap rfl)

theorem keeps_doRule : Keeps (doRule self) := by
  refine keeps_of_start fun base c on => ?_
  refine (orderly .statement (on.start.shiftWord rfl)).bind fun c on => ?_
  refine (on.expectWord _).bind fun c on => ?_
  refine (keeps_conditionRule orderly on).bind fun c on => ?_
  exact .some ((StandsOn.ite on.shiftNext on).wrap rfl)

theorem keeps_withRule : Keeps (withRule self) := by
  refine keeps_of_start fun base c on => ?_
  refine (keeps_conditionRule orderly (on.start.shiftWord rfl)).bind fun c on => ?_
  exact (orderly .statement on).bind fun c on => .some (on.wrap rfl)

theorem keeps_switchRule : Keeps (switchRule self) := by
  refine keeps_of_start fun base c on => ?_
  refine (keeps_conditionRule orderly (on.start.shiftWord rfl)).bind fun c on => ?_
  refine (on.expect _).bind fun c on => ?_
  refine (orderly .switchCases on).bind fun c on => ?_
  exact (on.expect _).bind fun c on => .some (on.wrap rfl)

theorem keeps_switchCasesRule : Keeps (switchCasesRule self) := by
  intro base c on
  refine .ite (.some on) ?_
  have above := length_le_flush on
  have on := on.flush
  refine .joint (StandsOn base) (fun onward =>
    .ite ((orderly (.expression true) (on.shiftWord rfl)).bind onward)
      ((on.expectWord _).bind onward)) fun c on => ?_
  refine (on.expect _).bind fun c on => ?_
  refine (orderly .statements on).bind fun c on => ?_
  exact orderly .switchCases (on.close above rfl)

theorem keeps_catchRule : Keeps (catchRule self) := by
  refine keeps_of_start fun base c on => ?_
  have on : (c.flush.shiftWord .keyword).StandsOn c.flush.done := on.start.shiftWord rfl
  have above := length_le_flush on
  refine .joint (StandsOn c.flush.done) (fun onward => .ite ?_ (.bind (.some on) onward))
    fun c on => ?_
  · refine (keeps_bindingRule orderly on.flush.shiftNext).bind fun c on => ?_
    refine (on.expect _).bind fun c on => ?_
    exact .bind (.some (on.close above rfl)) onward
  · exact (orderly .block on).bind fun c on => .some (on.wrap rfl)

theorem keeps_tryRule : Keeps (tryRule self) := by
  refine keeps_of_start fun base c on => ?_
  refine (orderly .block (on.start.shiftWord rfl)).bind fun c on => ?_
  refine .joint (StandsOn _) (fun onward =>
    .ite ((keeps_catchRule orderly on).bind onward) (.bind (.some on) onward)) fun c on => ?_
  refine .joint (StandsOn _) (fun onward =>
    .ite ((orderly .block (on.shiftWord rfl)).bind onward) (.bind (.some on) onward))
    fun c on => ?_
  exact .some (on.wrap rfl)

theorem keeps_returnRule : Keeps (returnRule self) := by
  refine keeps_of_start fun base c on => ?_
  have on : (c.flush.shiftWord .keyword).StandsOn c.flush.done := on.start.shiftWord rfl
  refine .joint (StandsOn c.flush.done) (fun onward =>
    .ite (.bind (.some on) onward) ((orderly (.expression true) on).bind onward)) fun c on => ?_
  exact (keeps_semicolon on).bind fun c on => .some (on.wrap rfl)

theorem keeps_throwRule : Keeps (throwRule self) := by
  refine keeps_of_start fun base c on => ?_
  refine (orderly (.expression true) (on.start.shiftWord rfl)).bind fun c on => ?_
  exact (keeps_semicolon on).bind fun c on => .some (on.wrap rfl)

/-! ### Modules -/

theorem keeps_specifiersRule : Keeps (specifiersRule self) := by
  intro base c on
  refine .ite (.some on) ((keeps_moduleName on).bind fun c on => ?_)
  refine .joint (StandsOn base) (fun onward =>
    .ite ((keeps_moduleName (on.shiftWord rfl)).bind onward) (.bind (.some on) onward))
    fun c on => ?_
  exact .ite (orderly .specifiers on.shiftNext) (.ite (.some on) .none)

theorem keeps_namedRule : Keeps (namedRule self) := by
  intro base c on
  refine (on.expect _).bind fun c on => ?_
  exact (orderly .specifiers on).bind fun c on => on.expect _

theorem keeps_bundleRule : Keeps (bundleRule self) := by
  intro base c on
  refine .ite ?_ (keeps_namedRule orderly on)
  exact (on.shiftNext.expectWord _).bind fun c on => on.expectIdentifier

theorem keeps_importStatementRule : Keeps (importStatementRule self) := by
  refine keeps_of_start fun base c on => ?_
  have on : (c.flush.shiftWord .keyword).StandsOn c.flush.done := on.start.shiftWord rfl
  refine .joint (StandsOn c.flush.done) (fun onward =>
    .ite (on.expectString.bind onward) (.ite ?_ ?_)) fun c on => ?_
  · refine .joint (StandsOn _) (fun named =>
      .ite ((keeps_bundleRule orderly (on.shiftWord rfl).shiftNext).bind named)
        (.bind (.some (on.shiftWord rfl)) named)) fun c on => ?_
    exact (keeps_sourceRule on).bind onward
  · refine (keeps_bundleRule orderly on).bind fun c on => ?_
    exact (keeps_sourceRule on).bind onward
  · refine .joint (StandsOn _) (fun onward =>
      .ite (((orderly .operand).keeps (on.shiftWord rfl)).bind onward)
        (.bind (.some on) onward)) fun c on => ?_
    exact (keeps_semicolon on).bind fun c on => .some (on.wrap rfl)

theorem keeps_exportStatementRule : Keeps (exportStatementRule self) := by
  refine keeps_of_start fun base c on => ?_
  have on : (c.flush.shiftWord .keyword).StandsOn c.flush.done := on.start.shiftWord rfl
  refine .joint (StandsOn c.flush.done) (fun onward =>
    .ite ?_ (.ite ?_ (.ite ?_ (.ite ((keeps_declarationRule orderly on).bind onward)
      (.ite (((yields_functionRule orderly).keeps on).bind onward)
        (.ite (((yields_classRule orderly).keeps on).bind onward) .none)))))) fun c on => ?_
  · refine .joint (StandsOn _) (fun named =>
      .ite ((keeps_moduleName (on.shiftNext.shiftWord rfl)).bind named)
        (.bind (.some on.shiftNext) named)) fun c on => ?_
    refine (keeps_sourceRule on).bind fun c on => ?_
    exact (keeps_semicolon on).bind onward
  · refine (keeps_namedRule orderly on).bind fun c on => ?_
    refine .joint (StandsOn _) (fun named =>
      .ite ((keeps_sourceRule on).bind named) (.bind (.some on) named)) fun c on => ?_
    exact (keeps_semicolon on).bind onward
  · refine .ite (((yields_functionRule orderly).keeps (on.shiftWord rfl)).bind onward) ?_
    refine .ite (((yields_classRule orderly).keeps (on.shiftWord rfl)).bind onward) ?_
    refine ((orderly (.assignment true)).keeps (on.shiftWord rfl)).bind fun c on => ?_
    exact .ite (.bind (.some on) onward) ((keeps_semicolon on).bind onward)
  · exact .some (on.wrap rfl)

theorem keeps_labeledRule : Keeps (labeledRule self) := by
  refine keeps_of_start fun base c on => ?_
  refine on.start.expectIdentifier.bind fun c on => ?_
  refine (on.expect _).bind fun c on => ?_
  exact (orderly .statement on).bind fun c on => .some (on.wrap rfl)

theorem keeps_expressionStatementRule : Keeps (expressionStatementRule self) := by
  refine keeps_of_start fun base c on => ?_
  refine (orderly (.expression true) on.start).bind fun c on => ?_
  exact (keeps_semicolon on).bind fun c on => .some (on.wrap rfl)

theorem keeps_statementRule : Keeps (statementRule self) := by
  intro base c on
  have expression := keeps_expressionStatementRule orderly on
  refine .ite (.ite (orderly .block on) (.ite ?_ expression)) ?_
  · exact .some (on.flush.shiftNext.close (length_le_flush on) rfl)
  · refine .ite (keeps_declarationRule orderly on) ?_
    refine .ite ((yields_functionRule orderly).keeps on) ?_
    refine .ite ((yields_classRule orderly).keeps on) ?_
    refine .ite (keeps_ifRule orderly on) (.ite (keeps_forRule orderly on) ?_)
    refine .ite (keeps_whileRule orderly on) (.ite (keeps_doRule orderly on) ?_)
    refine .ite (keeps_withRule orderly on) (.ite (keeps_switchRule orderly on) ?_)
    refine .ite (keeps_tryRule orderly on) (.ite (keeps_returnRule orderly on) ?_)
    refine .ite (keeps_throwRule orderly on) (.ite (keeps_jumpRule on) ?_)
    refine .ite (keeps_importStatementRule orderly on) ?_
    refine .ite (keeps_exportStatementRule orderly on) ?_
    exact .ite (keeps_labeledRule orderly on) expression

theorem keeps_statementsRule : Keeps (statementsRule self) := by
  intro base c on
  refine .ite (.some on) ?_
  exact (orderly .statement on).bind fun c on => orderly .statements on

/-! ### The grammar -/

/-- If the rules for the goals inside are orderly, so is the rule for each goal. -/
theorem isOrderly_ruleOf : (ruleOf self).IsOrderly := by
  intro goal
  cases goal with
  | statements => exact keeps_statementsRule orderly
  | statement => exact keeps_statementRule orderly
  | block => exact (yields_blockRule orderly).keeps
  | declarators allowIn => exact keeps_declaratorsRule orderly allowIn
  | switchCases => exact keeps_switchCasesRule orderly
  | specifiers => exact keeps_specifiersRule orderly
  | expression allowIn => exact keeps_expressionRule orderly allowIn
  | sequenceTail allowIn => exact keeps_sequenceTailRule orderly allowIn
  | assignment allowIn => exact yields_assignmentRule orderly allowIn
  | binary level allowIn => exact yields_binaryRule orderly level allowIn
  | binaryTail start level allowIn => exact extends_binaryTailRule orderly start level allowIn
  | unary => exact yields_unaryRule orderly
  | operand => exact yields_operandRule orderly
  | accessTail start allowCall => exact extends_accessTailRule orderly start allowCall
  | elements closer => exact keeps_elementsRule orderly closer
  | entries => exact collects_entriesRule orderly
  | members => exact keeps_membersRule orderly
  | templateParts => exact keeps_templatePartsRule orderly
  | markupElement inside => exact yields_markupElementRule orderly inside
  | markupNameTail start => exact fun _ _ => standsOn_markupNameTailRule orderly
  | markupAttributes => exact keeps_markupAttributesRule orderly
  | markupChildren => exact keeps_markupChildrenRule orderly

end

/-- Whether a rule is orderly is asked of one cursor at a time. -/
theorem Goal.isOrderly_of_pointwise (goal : Goal) (rule : Rule source)
    (each : ∀ c, ∃ other : Rule source, goal.IsOrderly other ∧ rule c = other c) :
    goal.IsOrderly rule := by
  cases goal <;>
    (intro base c on
     obtain ⟨other, orderly, same⟩ := each c
     rw [same]
     exact orderly on)

/-- The rules of the grammar are orderly, however deep they may be nested. -/
theorem isOrderly_read : Rules.IsOrderly (@read source) := by
  refine read_of_ruleOf Goal.isOrderly_of_pointwise (fun goal => ?_) fun _ => isOrderly_ruleOf
  cases goal <;> first | exact fun _ _ _ => .none | exact fun _ _ _ _ => .none

/-- Whatever follows the grammar has a tree of the right shape. -/
theorem isShaped_of_readProgram {enclosed : Bool} {tree : Tree}
    (read : readProgram enclosed source = some tree) : tree.IsShaped := by
  unfold readProgram at read
  split at read
  case h_1 => cases read
  case h_2 c found =>
    split at read
    case isFalse => cases read
    case isTrue =>
      cases read
      have on : (Cursor.start enclosed source).StandsOn [] := by
        unfold Cursor.start
        exact .ite ⟨nofun, nofun, List.nil_suffix⟩
          (StandsOn.settle ⟨nofun, nofun, List.nil_suffix⟩)
      have final := isOrderly_read .statements on c found
      refine .node (fun tree member => ?_) nofun nofun
      rcases List.mem_append.1 member with done | trivia
      · exact final.shaped tree (List.mem_reverse.1 done)
      · exact Tree.isShaped_of_isTrivia (final.separated tree trivia)

/-! ### The expression of a text -/

theorem tree_mem_of_focus? {row : List Tree} {focus : Focus} (found : focus? row = some focus) :
    focus.tree ∈ row := by
  induction row generalizing focus with
  | nil => cases found
  | cons tree rest ih =>
    unfold focus? at found
    split at found
    · obtain ⟨inner, innerFound, rfl⟩ := Option.map_eq_some_iff.1 found
      have inside : inner.tree ∈ rest := ih innerFound
      exact List.mem_cons_of_mem _ inside
    · split at found
      · cases found
        exact List.mem_cons_self
      · cases found

theorem tree_mem_of_focusBetween? {row : List Tree} {focus : Focus}
    (found : focusBetween? row = some focus) : focus.tree ∈ row := by
  cases row with
  | nil => cases found
  | cons opening rest =>
    simp only [focusBetween?] at found
    split at found
    · cases found
    · obtain ⟨inner, innerFound, rfl⟩ := Option.map_eq_some_iff.1 found
      have inside : inner.tree ∈ rest.dropLast := tree_mem_of_focus? innerFound
      exact List.mem_cons_of_mem _ (List.dropLast_subset _ inside)

/-- What holds of a node that is looked into, and of its children if it holds of a node, holds of
the tree that is found there. -/
theorem Focus.of_inner? {form : Form} {look : List Tree → Option Focus} {focus inner : Focus}
    {property : Tree → Prop} (found : focus.inner? form look = some inner)
    (whole : property focus.tree)
    (below : ∀ row, property (.node form row) → ∀ tree ∈ row, property tree)
    (looks : ∀ {row : List Tree} {i : Focus}, look row = some i → i.tree ∈ row) :
    property inner.tree := by
  obtain ⟨before, tree, after⟩ := focus
  cases tree with
  | token => cases found
  | node own row =>
    simp only [Focus.inner?] at found
    split at found
    · next same =>
      obtain ⟨i, innerFound, rfl⟩ := Option.map_eq_some_iff.1 found
      exact below row (same ▸ whole) i.tree (looks innerFound)
    · cases found

/-- What holds of a program, and passes from programs, statements and parentheses to what is in
them, holds of the expression that a text consists of. -/
theorem of_expression? {code : List Char} {focus : Focus} (property : Tree → Prop)
    (found : (Snippet.ofExpression code).expression? = some focus)
    (whole : ∀ tree, readProgram true code = some tree → property tree)
    (below : ∀ form ∈ [Form.program, .expressionStatement, .parenthesized], ∀ row,
      property (.node form row) → ∀ tree ∈ row, property tree) : property focus.tree := by
  unfold Snippet.ofExpression at found
  split at found
  case h_2 => cases found
  case h_1 tree read =>
    simp only [Snippet.expression?] at found
    obtain ⟨statement, inProgram, found⟩ := Option.bind_eq_some_iff.1 found
    obtain ⟨parentheses, inStatement, inProgram⟩ := Option.bind_eq_some_iff.1 inProgram
    have inside := Focus.of_inner? inStatement (whole tree read) (below _ (by decide))
      tree_mem_of_focus?
    exact Focus.of_inner? found
      (Focus.of_inner? inProgram inside (below _ (by decide)) tree_mem_of_focus?)
      (below _ (by decide)) tree_mem_of_focusBetween?

/-- The expression that a text consists of has the right shape. -/
theorem isShaped_expression? {code : List Char} {focus : Focus}
    (found : (Snippet.ofExpression code).expression? = some focus) : focus.tree.IsShaped := by
  refine of_expression? Tree.IsShaped found (fun _ => isShaped_of_readProgram) fun form _ row shaped => ?_
  cases shaped with
  | node each => exact each

/-- The pairs of the expression that a text consists of are well-formed. -/
theorem isWellFormed_expression? {code : List Char} {focus : Focus}
    (found : (Snippet.ofExpression code).expression? = some focus) : focus.tree.IsWellFormed :=
  (isShaped_expression? found).isWellFormed

end ComponentCompiler.Script
