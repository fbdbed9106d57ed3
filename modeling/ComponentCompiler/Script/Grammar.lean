import ComponentCompiler.Script.Check
import ComponentCompiler.Script.Grammar.Expression
import ComponentCompiler.Script.Grammar.Markup
import ComponentCompiler.Script.Grammar.Statement

/-!
# The grammar of snippets

The rules for the single goals are tied together here. A rule calls another one either after it has
read something, or for a goal that stands lower in the order of the grammar, so calls cannot go on
without end. A call that does neither is refused.

## Main definitions

* `ruleOf` — the rule for each goal
* `depth` — what each call of a rule makes smaller
* `read` — reads a goal
* `readProgram` — the tree of a whole text, if the text follows the grammar

## Main results

* `read_of_ruleOf` — what each rule passes on from the rules that it calls holds of reading
-/

namespace ComponentCompiler.Script

variable {source : List Char}

/-- The rule for each goal, given readers for the goals inside. -/
def ruleOf (self : Rules source) : Rules source
  | .statements => statementsRule self
  | .statement => statementRule self
  | .block => blockRule self
  | .declarators allowIn => declaratorsRule self allowIn
  | .switchCases => switchCasesRule self
  | .specifiers => specifiersRule self
  | .expression allowIn => expressionRule self allowIn
  | .sequenceTail allowIn => sequenceTailRule self allowIn
  | .assignment allowIn => assignmentRule self allowIn
  | .binary level allowIn => binaryRule self level allowIn
  | .binaryTail start level allowIn => binaryTailRule self start level allowIn
  | .unary => unaryRule self
  | .operand => operandRule self
  | .accessTail start allowCall => accessTailRule self start allowCall
  | .elements closer => elementsRule self closer
  | .entries => entriesRule self
  | .members => membersRule self
  | .templateParts => templatePartsRule self
  | .markupElement inside => markupElementRule self inside
  | .markupNameTail start => markupNameTailRule self start
  | .markupAttributes => markupAttributesRule self
  | .markupChildren => markupChildrenRule self

/-- The rank of a goal. Where nothing has been read in between, goals call goals of lower rank. -/
def Goal.rank : Goal → Nat
  | .statements => 9
  | .statement | .members => 8
  | .block | .declarators _ => 7
  | .expression _ | .sequenceTail _ | .elements _ => 6
  | .assignment _ => 5
  | .binary _ _ => 4
  | .unary => 3
  | .operand | .markupChildren => 2
  | .markupElement _ => 1
  | _ => 0

/-- How many unwritten parentheses are still to come. -/
def Enclosure.count : Enclosure → Nat
  | .opening => 2
  | .closing => 1
  | .absent => 0

/-- How much is left to read, unwritten parentheses included. -/
def Cursor.remaining (c : Cursor source) : Nat :=
  c.rest.length + c.enclosure.count

/-- How deep the rule for a goal may still be nested: what is left to read decides, and then the rank
of the goal. -/
def depth (goal : Goal) (c : Cursor source) : Nat :=
  10 * c.remaining + goal.rank

/-- Reads a goal. -/
@[semireducible]
def read (goal : Goal) (c : Cursor source) : Option (Cursor source) :=
  ruleOf (fun inner d => if depth inner d < depth goal c then read inner d else none) goal c
termination_by depth goal c

/-- What holds of the rule for each goal if it holds of the rules for the goals inside, holds of
reading. It may ask anything of a rule that is asked of one cursor at a time. -/
theorem read_of_ruleOf {holds : Goal → Rule source → Prop}
    (pointwise : ∀ goal rule, (∀ c, ∃ other, holds goal other ∧ rule c = other c) → holds goal rule)
    (fails : ∀ goal, holds goal fun _ => none)
    (step : ∀ self : Rules source, (∀ goal, holds goal (self goal)) →
      ∀ goal, holds goal (ruleOf self goal)) (goal : Goal) : holds goal (read goal) := by
  have below (bound : Nat) : ∀ goal, holds goal fun c : Cursor source =>
      if depth goal c < bound then read goal c else none := by
    induction bound using Nat.strongRecOn with
    | ind bound ih =>
      refine fun goal => pointwise goal _ fun c => ?_
      by_cases less : depth goal c < bound
      · exact ⟨_, step _ (ih _ less) goal, by rw [if_pos less, read]⟩
      · exact ⟨_, fails goal, if_neg less⟩
  exact pointwise goal _ fun c => ⟨_, step _ (below _) goal, by rw [read]⟩

/-- The tree of a text that follows the grammar, read between unwritten parentheses if
`enclosed`. -/
def readProgram (enclosed : Bool) (source : List Char) : Option Tree :=
  match read .statements (Cursor.start enclosed source) with
  | none => none
  | some c => if c.atEnd && c.tree.fits .value then some c.tree else none

/-- A text that follows the grammar is covered by its tree. -/
theorem text_of_readProgram {enclosed : Bool} {source : List Char} {tree : Tree}
    (h : readProgram enclosed source = some tree) : tree.text = source := by
  unfold readProgram at h
  split at h
  · simp at h
  · next c _ =>
    split at h
    · next hc =>
      rw [← Option.some.inj h]
      apply c.text_tree
      simp only [Bool.and_eq_true, Cursor.atEnd, Cursor.upcoming] at hc
      cases hr : c.rest with
      | nil => rfl
      | cons head tail =>
        cases he : c.enclosure <;> simp [hr, he] at hc
    · simp at h

end ComponentCompiler.Script
