import ComponentCompiler.Proofs.Script.Lexed

/-!
# The rules of the grammar read tokens

Each rule of the grammar takes from the text what the scanners find there, if the rules that it
calls do. So all of them do, however deep they are nested, and the tree of a text that follows the
grammar holds the tokens of the text. Blanks mean nothing between most tokens; in a template and
among the children of an element they are literal text, so the rules for these may be called only
where such text may start. A rule is followed step by step: in each proof `lexed` tells that the
cursor `c` that the rule has come to has read tokens.

## Main definitions

* `IsLexical`, `Goal.IsLexical` — what a rule, and the rule for a goal, does to the tokens

## Main results

* `isLexical_ruleOf` — the rule for a goal reads tokens if those for the goals inside do
* `lexes_readProgram` — the tree of a text holds the tokens of the text
-/

namespace ComponentCompiler.Script

open Cursor (IsLexed StandsInText)

variable {source : List Char} {self : Rules source} {c : Cursor source}

/-- The rule reads tokens of the text. -/
def IsLexical (rule : Rule source) : Prop :=
  ∀ ⦃c⦄, c.IsLexed → Ensures (rule c) IsLexed

/-- A tag among the children of an element ends where literal text may start; behind another tag
blanks and comments have been passed. -/
def EndsTag (inside : Bool) (c : Cursor source) : Prop :=
  if inside then c.StandsInText else c.IsLexed

/-- What the rule for a goal does to the tokens. The children of an element are never the last of a
text: a closing tag follows them. -/
def Goal.IsLexical (rule : Rule source) : Goal → Prop
  | .templateParts => ∀ ⦃c⦄, c.StandsInText → Ensures (rule c) IsLexed
  | .markupElement inside => ∀ ⦃c⦄, c.IsLexed → Ensures (rule c) (EndsTag inside)
  | .markupChildren =>
    (∀ c, Ensures (rule c) fun _ => c.rest ≠ []) ∧
      ∀ ⦃c⦄, c.StandsInText → Ensures (rule c) fun d => d.IsLexed ∧ ['<', '/'] <+: d.rest
  | _ => Script.IsLexical rule

/-- Each rule reads tokens of the text. -/
def Rules.IsLexical (self : Rules source) : Prop :=
  ∀ goal : Goal, goal.IsLexical (self goal)

theorem Ensures.bind_found {α β : Type} {result : Option α} {next : α → Option β} {post : β → Prop}
    (each : ∀ value, result = Option.some value → Ensures (next value) post) :
    Ensures (result >>= next) post := by
  intro final member
  obtain ⟨value, found, followed⟩ := Option.bind_eq_some_iff.1 member
  exact each value found final followed

/-! ### Rules that call no other goals -/

theorem isLexed_passModifiers (limit : Nat) (lexed : c.IsLexed) :
    (passModifiers limit c).IsLexed := by
  induction limit generalizing c with
  | zero => exact lexed
  | succ limit ih =>
    unfold passModifiers
    exact .ite (ih (lexed.shiftWord rfl rfl)) lexed

theorem isLexical_fieldEnd : IsLexical (@fieldEnd source) :=
  fun _ lexed => lexed.whenSees (by decide) .some (.ite (.some lexed) .none)

theorem isLexical_importRule : IsLexical (@importRule source) := by
  intro c lexed
  refine (lexed.flush.expectWord _).bind fun c lexed => ?_
  refine lexed.whenSees (by decide) (fun lexed => ?_) (.ite (.some lexed) .none)
  exact (lexed.expectWord _).bind fun c lexed => .some (lexed.close _ _)

theorem isLexical_semicolon : IsLexical (@semicolon source) :=
  fun _ lexed => lexed.whenSees (by decide) .some (.ite (.some lexed) .none)

theorem isLexical_jumpRule : IsLexical (@jumpRule source) := by
  intro c lexed
  have lexed : (c.flush.shiftWord .keyword).IsLexed := lexed.flush.shiftWord rfl rfl
  exact (isLexical_semicolon (.ite (lexed.shiftWord rfl rfl) lexed)).bind fun c lexed =>
    .some (lexed.close _ _)

theorem isLexical_moduleName : IsLexical (@moduleName source) :=
  fun _ lexed => .ite lexed.expectString (.some (lexed.shiftWord rfl rfl))

theorem isLexical_sourceRule : IsLexical (@sourceRule source) :=
  fun _ lexed => (lexed.expectWord _).bind fun _ lexed => lexed.expectString

/-- A name after a number sign. -/
theorem isLexed_expectPrivateName (lexed : c.IsLexed) (sign : c.upcoming.head? = some '#') :
    Ensures c.expectPrivateName IsLexed := by
  unfold Cursor.expectPrivateName
  split
  · exact .none
  · next named =>
    refine .some (lexed.shift (fun written => ?_) rfl)
    obtain ⟨after, same⟩ := List.head?_eq_some_iff.1 sign
    rw [← written.upcoming, same]
    rw [same] at named
    exact .privateName named rfl

theorem isLexical_literalRule : IsLexical (@literalRule source) := fun _ lexed =>
  .ite lexed.expectString
    (.ite .none (.some (lexed.shift (fun written => .number (by rw [written.upcoming])) rfl)))

/-! ### Single characters in tags and templates -/

theorem EndsTag.close {inside : Bool} (read : EndsTag inside c) (form : Form) (mark : Nat) :
    EndsTag inside (c.close form mark) := by
  cases inside with
  | true => exact StandsInText.close read form mark
  | false => exact IsLexed.close read form mark

theorem not_parenthesis_of_mem_tagPunctuators {char : Char} (known : [char] ∈ tagPunctuators) :
    char ≠ '(' ∧ char ≠ ')' := by
  constructor
  · rintro rfl
    simp [tagPunctuators] at known
  · rintro rfl
    simp [tagPunctuators] at known

/-- A bracket or separator of a tag or template. -/
theorem scans_tagPunctuator {char : Char} (known : [char] ∈ tagPunctuators) (other : char ≠ '/')
    {text : List Char} (written : [char] <+: text) : Scans .punctuator text 1 := by
  obtain ⟨after, rfl⟩ := written
  exact .tagPunctuator (startsComment_cons other after) known ⟨after, rfl⟩ rfl

theorem endsTag_shiftChar (lexes : Lexes source c.tokens c.rest) {char : Char}
    (seen : c.upcoming.head? = some char) (known : [char] ∈ tagPunctuators) (other : char ≠ '/')
    (raw : Bool) : EndsTag raw (c.shiftChar raw) := by
  have written := Cursor.isWritten_of_seen seen (not_parenthesis_of_mem_tagPunctuators known)
  have scanned := scans_tagPunctuator known other (written.prefix_of_seen seen)
  cases raw with
  | true => exact StandsInText.of_bracket lexes written scanned Nat.one_pos
  | false => exact Cursor.isLexed_settle (Cursor.lexes_shiftRaw lexes (fun _ => scanned) nofun)

theorem endsTag_expectChar (lexes : Lexes source c.tokens c.rest) {char : Char}
    (known : [char] ∈ tagPunctuators) (other : char ≠ '/') (raw : Bool) :
    Ensures (c.expectChar char raw) (EndsTag raw) :=
  .branch (fun seen => .some (endsTag_shiftChar lexes (beq_iff_eq.1 seen) known other raw))
    fun _ => .none

theorem isLexed_expectMarkupName (lexed : c.IsLexed) {kind : TokenKind}
    (word : kind.isWord = true) (plain : kind.isLiteral = false) :
    Ensures (c.expectMarkupName kind) IsLexed := by
  unfold Cursor.expectMarkupName
  split
  · exact .none
  · exact .ite .none
      (.some (lexed.shift (fun written => .tagName word (by rw [written.upcoming])) plain))

/-- A character that joins two names of a tag. -/
theorem isLexed_joinedName (lexed : c.IsLexed) {char : Char} (seen : c.seesChar char = true)
    (known : [char] ∈ tagPunctuators) (other : char ≠ '/') {kind : TokenKind}
    (word : kind.isWord = true) (plain : kind.isLiteral = false) :
    Ensures ((c.shiftChar false).expectMarkupName kind) IsLexed := by
  have joined : (c.shiftChar false).IsLexed :=
    endsTag_shiftChar lexed.lexes (beq_iff_eq.1 seen) known other false
  exact isLexed_expectMarkupName joined word plain

/-- The quoted value of an attribute. -/
theorem scans_markupTextValue {text : List Char} {n : Nat}
    (found : markupTextValueLength text = some n) : Scans .string text n := by
  unfold markupTextValueLength at found
  split at found
  · dsimp only at found
    split at found
    · next closed =>
      simp only [Bool.and_eq_true, decide_eq_true_eq] at closed
      exact .attributeValue closed.1 closed.2 (Option.some.inj found)
    · cases found
  · cases found

/-- A slash in a tag starts no comment, because the end of the tag follows it. -/
theorem endsTag_emptyTag (inside : Bool) (lexed : c.IsLexed) (slash : c.seesChar '/' = true) :
    Ensures ((c.shiftChar false).expectChar '>' inside) (EndsTag inside) := by
  refine .branch (fun angle => ?_) fun _ => .none
  have seen : (c.shift .punctuator 1).upcoming.head? = some '>' := beq_iff_eq.1 angle
  have passed : (c.shiftChar false).IsLexed := by
    refine lexed.shift (fun written => ?_) rfl
    refine .tagPunctuator ?_ (by decide) (written.prefix_of_seen (beq_iff_eq.1 slash)) rfl
    refine written.not_startsComment (lexed.clear written.entered)
      (?_ : (c.shift .punctuator 1).upcoming.head? ≠ some '*')
    rw [seen]
    decide
  exact .some (endsTag_shiftChar passed.lexes seen (by decide) (by decide) inside)

/-- An element has a closing tag, so something follows its children. -/
theorem rest_ne_nil_of_markupChildrenRule (c : Cursor source) :
    Ensures (markupChildrenRule self c) fun _ => c.rest ≠ [] := by
  intro d member none
  rw [markupChildrenRule, none] at member
  cases member

/-! ### Operands and stars -/

/-- The goals that start with an operand or with an operator in front of one. -/
def Goal.startsOperand : Goal → Bool
  | .binary _ _ | .unary | .operand => true
  | _ => false

/-- Nothing that starts with an operand starts with a star, so a slash in front of it does not turn
out to start a comment. -/
def Goal.RefusesStars (rule : Rule source) (goal : Goal) : Prop :=
  goal.startsOperand = true → ∀ c, Ensures (rule c) fun _ => c.upcoming.head? ≠ some '*'

def Rules.RefusesStars (self : Rules source) : Prop :=
  ∀ goal : Goal, goal.RefusesStars (self goal)

theorem sees_of_star (star : c.upcoming.head? = some '*') {text : String} {char : Char}
    {rest : List Char} (chars : text.toList = char :: rest) (other : char ≠ '*') :
    c.sees text = false := by
  by_contra sees
  have seen := Cursor.seen_of_sees (by simpa using sees) chars
  exact other (Option.some.inj (seen.symm.trans star))

theorem word_of_star (star : c.upcoming.head? = some '*') : c.word = [] := by
  obtain ⟨after, same⟩ := List.head?_eq_some_iff.1 star
  have none : wordLength ('*' :: after) = 0 := rfl
  rw [Cursor.word, same, none, List.take_zero]

theorem refusesStars_operandRule (c : Cursor source) :
    Ensures (operandRule self c) fun _ => c.upcoming.head? ≠ some '*' := by
  intro d member star
  obtain ⟨after, same⟩ := List.head?_eq_some_iff.1 star
  have quote : isQuote '*' = false := by decide
  have number : numberLength ('*' :: after) = 0 := rfl
  rw [operandRule, word_of_star star] at member
  simp [Cursor.seesChar, literalRule, Cursor.expectString, stringLength, same, quote, number]
    at member

theorem refusesStars_unaryRule (refuses : self.RefusesStars) (c : Cursor source) :
    Ensures (unaryRule self c) fun _ => c.upcoming.head? ≠ some '*' := by
  refine .branch (fun sign _ _ star => ?_) fun _ => .branch (fun sign _ _ star => ?_) fun _ =>
    .branch (fun word _ _ star => ?_) fun _ => .branch (fun word _ _ star => ?_) fun _ =>
      (((refuses .operand rfl c.flush).bind fun _ other _ _ => other :
        Ensures (primaryRule self c.flush.done.length true c.flush) _)).bind fun _ other _ _ => other
  · have star : c.flush.upcoming.head? = some '*' := star
    rw [sees_of_star star (rfl : "!".toList = ['!']) (by decide),
      sees_of_star star (rfl : "~".toList = ['~']) (by decide),
      sees_of_star star (rfl : "+".toList = ['+']) (by decide),
      sees_of_star star (rfl : "-".toList = ['-']) (by decide)] at sign
    cases sign
  · have star : c.flush.upcoming.head? = some '*' := star
    rw [sees_of_star star (rfl : "++".toList = ['+', '+']) (by decide),
      sees_of_star star (rfl : "--".toList = ['-', '-']) (by decide)] at sign
    cases sign
  · have none : c.flush.word = [] := word_of_star star
    simp [Cursor.seesWord, none] at word
  · have none : c.flush.word = [] := word_of_star star
    simp [Cursor.seesWord, none] at word

theorem refusesStars_ruleOf (refuses : self.RefusesStars) : (ruleOf self).RefusesStars := by
  intro goal starts c
  cases goal with
  | binary level allowIn =>
    exact (refuses .unary rfl c.flush).bind fun _ other _ _ => other
  | unary => exact refusesStars_unaryRule refuses c
  | operand => exact refusesStars_operandRule c
  | _ => cases starts

/-- Whether a rule refuses stars is asked of one cursor at a time. -/
theorem Goal.refusesStars_of_pointwise (goal : Goal) (rule : Rule source)
    (each : ∀ c, ∃ other : Rule source, goal.RefusesStars other ∧ rule c = other c) :
    goal.RefusesStars rule := by
  intro starts c
  obtain ⟨other, refuses, same⟩ := each c
  rw [same]
  exact refuses starts c

theorem refusesStars_read : Rules.RefusesStars (@read source) :=
  read_of_ruleOf Goal.refusesStars_of_pointwise (fun _ _ _ => .none) fun _ => refusesStars_ruleOf

/-! ### Functions and classes -/

/-- What stands between two brackets. -/
theorem isLexed_enclosed (lexed : c.IsLexed) {rule : Rule source} (inner : IsLexical rule)
    {opening closer : String} (first : opening.toList ≠ ['/']) (last : closer.toList ≠ ['/'])
    (form : Form) (start : Nat) :
    Ensures (do
      let c ← c.expect opening
      let c ← rule c
      let c ← c.expect closer
      some (c.close form start)) IsLexed := by
  refine (lexed.expect first).bind fun c lexed => ?_
  refine (inner lexed).bind fun c lexed => ?_
  exact (lexed.expect last).bind fun c lexed => .some (lexed.close _ _)

section
variable (lexical : self.IsLexical)
include lexical

theorem isLexical_primaryRule (start : Nat) (allowCall : Bool) :
    IsLexical (primaryRule self start allowCall) := by
  intro c lexed
  refine (lexical .operand lexed).bind fun c lexed => ?_
  exact .ite (.some lexed) (lexical (.accessTail start allowCall) lexed)

theorem isLexical_blockRule : IsLexical (blockRule self) := fun _ lexed =>
  isLexed_enclosed lexed.flush (lexical .statements) (by decide) (by decide) _ _

theorem isLexical_parametersRule : IsLexical (parametersRule self) := fun _ lexed =>
  isLexed_enclosed lexed.flush (lexical (.elements ")")) (by decide) (by decide) _ _

theorem isLexical_argumentsRule : IsLexical (argumentsRule self) := fun _ lexed =>
  isLexed_enclosed lexed.flush (lexical (.elements ")")) (by decide) (by decide) _ _

theorem isLexical_keyRule : IsLexical (keyRule self) := by
  intro c lexed
  have lexed := lexed.flush
  refine lexed.whenSees (by decide) (fun lexed => ?_) (.branch (fun sign => ?_) fun _ => .ite ?_ ?_)
  · refine (lexical (.assignment true) lexed).bind fun c lexed => ?_
    refine (lexed.expect (by decide)).bind fun c lexed => ?_
    exact .some (lexed.close _ _)
  · exact isLexed_expectPrivateName lexed (Cursor.seen_of_sees sign rfl)
  · exact .some (lexed.shiftWord rfl rfl)
  · exact isLexical_literalRule lexed

theorem isLexical_methodRule (start : Nat) : IsLexical (methodRule self start) := by
  intro c lexed
  refine (isLexical_parametersRule lexical lexed).bind fun c lexed => ?_
  refine (lexical .block lexed).bind fun c lexed => ?_
  exact .some (lexed.close _ _)

theorem isLexical_functionRule : IsLexical (functionRule self) := by
  intro c lexed
  refine ((IsLexed.ite (lexed.flush.shiftWord rfl rfl) lexed.flush).expectWord _).bind
    fun c lexed => ?_
  have lexed : (if c.sees "*" then c.shiftNext else c).IsLexed := lexed.pass (by decide)
  refine (isLexical_parametersRule lexical (.ite (lexed.shiftWord rfl rfl) lexed)).bind
    fun c lexed => ?_
  refine (lexical .block lexed).bind fun c lexed => ?_
  exact .some (lexed.close _ _)

theorem isLexical_memberRule : IsLexical (memberRule self) := by
  intro c lexed
  have lexed := isLexed_passModifiers 3 lexed.flush
  refine .ite ?_ ?_
  · exact (lexical .block lexed).bind fun c lexed => .some (lexed.close _ _)
  · refine (isLexical_keyRule lexical (lexed.pass (by decide))).bind fun c lexed => ?_
    refine .ite (isLexical_methodRule lexical _ lexed) ?_
    refine .joint IsLexed (fun onward => lexed.whenSees (by decide)
      (fun lexed => (lexical (.assignment true) lexed).bind onward)
      (.bind (.some lexed) onward)) fun c lexed => ?_
    exact isLexical_fieldEnd (lexed.close _ _)

theorem isLexical_membersRule : IsLexical (membersRule self) := by
  intro c lexed
  refine .ite (.some lexed) (lexed.whenSees (by decide) (fun lexed => lexical .members lexed) ?_)
  exact (isLexical_memberRule lexical lexed).bind fun c lexed => lexical .members lexed

theorem isLexical_classRule : IsLexical (classRule self) := by
  intro c lexed
  refine (lexed.flush.expectWord _).bind fun c lexed => ?_
  have lexed : (if c.seesIdentifier then c.shiftWord .declaredName else c).IsLexed :=
    .ite (lexed.shiftWord rfl rfl) lexed
  refine .joint IsLexed (fun onward => .ite ?_ (.bind (.some lexed) onward)) fun c lexed => ?_
  · have lexed : (Cursor.shiftWord .keyword _).IsLexed := lexed.shiftWord rfl rfl
    exact (isLexical_primaryRule lexical _ true lexed.flush).bind onward
  · refine (lexed.flush.expect (by decide)).bind fun c lexed => ?_
    refine (lexical .members lexed).bind fun c lexed => ?_
    refine (lexed.expect (by decide)).bind fun c lexed => ?_
    exact .some ((lexed.close _ _).close _ _)

/-! ### Sequences and assignments -/

theorem isLexical_expressionRule (allowIn : Bool) : IsLexical (expressionRule self allowIn) := by
  intro c lexed
  refine (lexical (.assignment allowIn) lexed.flush).bind fun c lexed => ?_
  refine lexed.whenSees (by decide) (fun lexed => ?_) (.some lexed)
  exact (lexical (.sequenceTail allowIn) lexed).bind fun c lexed => .some (lexed.close _ _)

theorem isLexical_sequenceTailRule (allowIn : Bool) :
    IsLexical (sequenceTailRule self allowIn) := by
  intro c lexed
  refine (lexical (.assignment allowIn) lexed).bind fun c lexed => ?_
  exact lexed.whenSees (by decide) (fun lexed => lexical (.sequenceTail allowIn) lexed)
    (.some lexed)

theorem isLexical_arrowRule (start : Nat) (allowIn : Bool) :
    IsLexical (arrowRule self start allowIn) := by
  intro c lexed
  refine (lexed.expect (by decide)).bind fun c lexed => ?_
  refine .joint IsLexed (fun onward =>
    .ite ((lexical .block lexed).bind onward)
      ((lexical (.assignment allowIn) lexed).bind onward)) fun c lexed => ?_
  exact .some (lexed.close _ _)

theorem isLexical_yieldRule (start : Nat) (allowIn : Bool) :
    IsLexical (yieldRule self start allowIn) := by
  intro c lexed
  have bare : (c.shiftWord .keyword).IsLexed := lexed.shiftWord rfl rfl
  have operand {d : Cursor source} (lexed : d.IsLexed) :
      Ensures (do
        let d ← self (.assignment allowIn) d
        some (d.close .yield start)) IsLexed :=
    (lexical (.assignment allowIn) lexed).bind fun d lexed => .some (lexed.close _ _)
  exact bare.whenSees (by decide) operand (.ite (.some (bare.close _ _)) (operand bare))

theorem isLexical_conditionalRule (start : Nat) (allowIn : Bool) :
    IsLexical (conditionalRule self start allowIn) := by
  intro c lexed
  refine (lexed.expect (by decide)).bind fun c lexed => ?_
  refine (lexical (.assignment true) lexed).bind fun c lexed => ?_
  refine (lexed.expect (by decide)).bind fun c lexed => ?_
  refine (lexical (.assignment allowIn) lexed).bind fun c lexed => ?_
  exact .some (lexed.close _ _)

theorem isLexical_assignmentRule (allowIn : Bool) : IsLexical (assignmentRule self allowIn) := by
  intro c lexed
  have lexed := lexed.flush
  refine .ite (isLexical_yieldRule lexical _ allowIn lexed) (.ite ?_ (.ite ?_ ?_))
  · exact isLexical_arrowRule lexical _ allowIn ((lexed.shiftWord rfl rfl).close _ _)
  · have parameter : (c.flush.shiftWord .keyword).IsLexed := lexed.shiftWord rfl rfl
    exact isLexical_arrowRule lexical _ allowIn ((parameter.flush.shiftWord rfl rfl).close _ _)
  · refine (lexical (.binary 0 allowIn) lexed).bind fun c lexed => ?_
    refine .ite (.some lexed) (.ite (isLexical_conditionalRule lexical _ allowIn lexed) ?_)
    split
    · next operator _ =>
      have other : c.next ≠ ['/'] := by
        intro slash
        rw [slash] at operator
        cases operator
      refine .ite ?_ .none
      exact (lexical (.assignment allowIn) (lexed.shiftNext other)).bind fun c lexed =>
        .some (lexed.close _ _)
    · exact .some lexed

/-! ### Binary and unary operators -/

theorem isLexical_binaryRule (level : Nat) (allowIn : Bool) :
    IsLexical (binaryRule self level allowIn) := by
  intro c lexed
  refine (lexical .unary lexed.flush).bind fun c lexed => ?_
  exact .ite (.some lexed) (lexical (.binaryTail _ level allowIn) lexed)

theorem isLexical_binaryTailRule (refuses : self.RefusesStars) (start level : Nat)
    (allowIn : Bool) : IsLexical (binaryTailRule self start level allowIn) := by
  intro c lexed
  unfold binaryTailRule
  split
  · exact .some lexed
  · refine .ite (.some lexed) (.bind_found fun d found => ?_)
    have next := refuses (.binary _ _) rfl _ d found
    have passed : (if c.word.isEmpty then c.shiftNext else c.shiftWord .keyword).IsLexed := by
      split
      · next operator =>
        rw [if_pos operator] at next
        exact lexed.shiftNext_of_next next
      · exact lexed.shiftWord rfl rfl
    have read : d.IsLexed := lexical (.binary _ allowIn) passed d found
    exact lexical (.binaryTail _ level allowIn) (read.close _ _)

theorem isLexical_unaryRule : IsLexical (unaryRule self) := by
  intro c lexed
  have lexed := lexed.flush
  refine .branch (fun sign => ?_) fun _ => .branch (fun sign => ?_) fun _ => .ite ?_ (.ite ?_ ?_)
  · have next : c.flush.next ≠ ['/'] := by
      intro slash
      simp [Cursor.sees, slash] at sign
    exact (lexical .unary (lexed.shiftNext next)).bind fun c lexed => .some (lexed.close _ _)
  · have next : c.flush.next ≠ ['/'] := by
      intro slash
      simp [Cursor.sees, slash] at sign
    exact (lexical .unary (lexed.shiftNext next)).bind fun c lexed => .some (lexed.close _ _)
  · exact (lexical .unary (lexed.shiftWord rfl rfl)).bind fun c lexed => .some (lexed.close _ _)
  · exact (lexical .unary (lexed.shiftWord rfl rfl)).bind fun c lexed => .some (lexed.close _ _)
  · refine (isLexical_primaryRule lexical _ true lexed).bind fun c lexed => .ite (.some lexed) ?_
    refine .branch (fun sign => ?_) fun _ => .some lexed
    have next : c.next ≠ ['/'] := by
      intro slash
      simp [Cursor.sees, slash] at sign
    exact .some ((lexed.shiftNext next).close _ _)

/-! ### Operands -/

theorem isLexical_parenthesisRule : IsLexical (parenthesisRule self) := by
  intro c lexed
  refine (lexed.flush.expect (by decide)).bind fun c lexed => ?_
  refine (lexical (.elements ")") lexed.flush).bind fun c lexed => ?_
  refine .branch (fun sees => .ite ?_ (.ite ?_ .none)) fun _ => .none
  · have next := Cursor.next_ne_slash sees (by decide)
    exact isLexical_arrowRule lexical _ true ((lexed.shiftNext next).close _ _)
  · have next := Cursor.next_ne_slash sees (by decide)
    refine .some (IsLexed.close ?_ _ _)
    split
    · exact lexed.shiftNext next
    · exact (lexed.close _ _).shiftNext next

theorem isLexical_applicationRule (start : Nat) : IsLexical (applicationRule self start) := by
  intro c lexed
  refine (lexed.flush.expect (by decide)).bind fun c lexed => ?_
  refine (lexical (.elements ")") lexed).bind fun c lexed => ?_
  refine (lexed.expect (by decide)).bind fun c lexed => .ite (.ite ?_ .none) ?_
  · exact isLexical_arrowRule lexical _ true (lexed.close _ _)
  · exact .some (lexed.close _ _)

theorem isLexical_constructionRule : IsLexical (constructionRule self) := by
  intro c lexed
  refine (lexed.flush.expectWord _).bind fun c lexed => ?_
  refine .branch (fun point => ?_) fun _ => ?_
  · have next := Cursor.next_ne_slash (Bool.and_eq_true_iff.1 point).1 (by decide)
    exact ((lexed.shiftNext next).expectWord _).bind fun c lexed => .some (lexed.close _ _)
  refine (isLexical_primaryRule lexical _ false lexed.flush).bind fun c lexed => ?_
  refine .joint IsLexed (fun onward =>
    .ite ((isLexical_applicationRule lexical _ lexed).bind onward) (.bind (.some lexed) onward))
    fun c lexed => ?_
  exact .some (lexed.close _ _)

theorem isLexical_wordRule : IsLexical (wordRule self) := by
  intro c lexed
  refine .ite (isLexical_functionRule lexical lexed) (.ite (isLexical_classRule lexical lexed)
    (.ite (isLexical_constructionRule lexical lexed) (.ite (isLexical_importRule lexed)
      (.ite ?_ (.ite .none (.ite (isLexical_functionRule lexical lexed) ?_))))))
  · exact .some (lexed.shiftWord rfl rfl)
  · exact .some (lexed.shiftWord rfl rfl)

theorem isLexical_arrayRule : IsLexical (arrayRule self) := fun _ lexed =>
  isLexed_enclosed lexed.flush (lexical (.elements "]")) (by decide) (by decide) _ _

theorem isLexical_objectRule : IsLexical (objectRule self) := fun _ lexed =>
  isLexed_enclosed lexed.flush (lexical .entries) (by decide) (by decide) _ _

/-- A template starts with a backtick. -/
theorem isLexed_templateRule (lexed : c.IsLexed) (tick : c.upcoming.head? = some '\x60') :
    Ensures (templateRule self c) IsLexed := by
  have seen : c.flush.upcoming.head? = some '\x60' := tick
  have opened : EndsTag true (c.flush.shiftChar true) :=
    endsTag_shiftChar lexed.flush.lexes seen (by decide) (by decide) true
  exact (lexical .templateParts opened).bind fun c lexed => .some (lexed.close _ _)

theorem isLexed_templatePartsRule (text : c.StandsInText) :
    Ensures (templatePartsRule self c) IsLexed := by
  unfold templatePartsRule
  refine .bind_found fun n found => ?_
  have some : c.rest ≠ [] := by
    intro none
    rw [none] at found
    cases found
  obtain ⟨d, same⟩ : ∃ d, d = if n == 0 then c else c.shiftRaw .templateText n := ⟨_, rfl⟩
  have read : Lexes source d.tokens d.rest ∧ d.rest = c.rest.drop n := by
    rw [same]
    split
    · next zero =>
      rw [beq_iff_eq.1 zero, List.drop_zero]
      exact ⟨text.lexes, rfl⟩
    · exact ⟨Cursor.lexes_shiftRaw text.lexes (fun _ => .templateText found) fun _ => text,
        Cursor.rest_shiftRaw text.entered some _ n⟩
  have ends := drop_templateTextLength found
  rw [← read.2] at ends
  rw [← same]
  refine .branch (fun substitution => ?_) fun other => ?_
  · have dollar : ['$', '\x7b'] <+: d.rest := List.isPrefixOf_iff_prefix.1 substitution
    have scanned : Scans .punctuator d.rest 2 := by
      refine .tagPunctuator ?_ (by decide) dollar rfl
      obtain ⟨after, split⟩ := dollar
      rw [← split]
      exact startsComment_cons (by decide) _
    have opened : (d.flush.shift .punctuator 2).IsLexed :=
      Cursor.isLexed_settle (Cursor.lexes_shiftRaw (by rw [Cursor.tokens_flush]; exact read.1)
        (fun _ => scanned) nofun)
    refine (lexical (.expression true) opened).bind fun c lexed => ?_
    refine .branch (fun brace => ?_) fun _ => .none
    have closed : EndsTag true (c.shiftChar true) :=
      endsTag_shiftChar lexed.lexes (Cursor.seen_of_sees brace rfl) (by decide) (by decide) true
    exact lexical .templateParts (closed.close _ _)
  · rcases ends with tick | dollar
    · obtain ⟨after, split⟩ := List.head?_eq_some_iff.1 tick
      have scanned : Scans .punctuator d.rest 1 :=
        scans_tagPunctuator (by decide) (by decide : '\x60' ≠ '/') ⟨after, split.symm⟩
      exact .some (Cursor.isLexed_settle (Cursor.lexes_shiftRaw read.1 (fun _ => scanned) nofun))
    · exact absurd (List.isPrefixOf_iff_prefix.2 dollar) other

theorem isLexical_operandRule : IsLexical (operandRule self) := by
  intro c lexed
  refine .ite (isLexical_wordRule lexical lexed) (.ite (isLexical_parenthesisRule lexical lexed) ?_)
  refine .ite (isLexical_arrayRule lexical lexed) (.ite (isLexical_objectRule lexical lexed) ?_)
  refine .branch (fun tick => isLexed_templateRule lexical lexed (beq_iff_eq.1 tick)) fun _ => ?_
  refine .ite lexed.expectRegex (.ite (lexical (.markupElement false) lexed) ?_)
  refine .branch (fun sign => isLexed_expectPrivateName lexed (beq_iff_eq.1 sign)) fun _ => ?_
  exact isLexical_literalRule lexed

theorem isLexical_callTailRule (start : Nat) : IsLexical (callTailRule self start) := by
  intro c lexed
  refine (isLexical_applicationRule lexical start lexed).bind fun c lexed => ?_
  exact .ite (.some lexed) (lexical (.accessTail start true) (lexed.close _ _))

theorem isLexical_accessTailRule (start : Nat) (allowCall : Bool) :
    IsLexical (accessTailRule self start allowCall) := by
  intro c lexed
  have resume {d : Cursor source} (lexed : d.IsLexed) (form : Form) :
      Ensures (self (.accessTail start allowCall) (d.close form start)) IsLexed :=
    lexical (.accessTail _ allowCall) (lexed.close _ _)
  have subscript {d : Cursor source} (lexed : d.IsLexed) :
      Ensures (do
        let d ← self (.expression true) d
        let d ← d.expect "]"
        self (.accessTail start allowCall) (d.close .subscript start)) IsLexed :=
    (lexical (.expression true) lexed).bind fun d lexed =>
      (lexed.expect (by decide)).bind fun d lexed => resume lexed .subscript
  refine .branch (fun point => ?_) fun _ => lexed.whenSees (by decide) subscript
    (.ite (isLexical_callTailRule lexical start lexed)
      (.branch (fun tick => ?_) fun _ => .ite .none (.some lexed)))
  · have next : c.next ≠ ['/'] := by
      intro slash
      simp [Cursor.sees, slash] at point
    have lexed := lexed.shiftNext next
    refine .branch (fun sign => ?_) fun _ => .ite ?_ (.ite ?_ (.branch (fun bracket => ?_)
      fun _ => .none))
    · exact (isLexed_expectPrivateName lexed (Cursor.seen_of_sees sign rfl)).bind fun c lexed =>
        resume lexed .member
    · exact resume (lexed.shiftWord rfl rfl) .member
    · exact (isLexical_argumentsRule lexical lexed).bind fun c lexed => resume lexed .call
    · have next := Cursor.next_ne_slash (Bool.and_eq_true_iff.1 bracket).2 (by decide)
      exact subscript (lexed.shiftNext next)
  · exact (isLexed_templateRule lexical lexed (beq_iff_eq.1 tick)).bind fun c lexed =>
      resume lexed .call

/-! ### Rows of items and entries -/

theorem isLexical_itemRule : IsLexical (itemRule self) := by
  intro c lexed
  have lexed := lexed.flush
  refine lexed.whenSees (by decide) (fun lexed => ?_) (lexical (.assignment true) lexed)
  exact (lexical (.assignment true) lexed).bind fun c lexed => .some (lexed.close _ _)

theorem isLexical_elementsRule (closer : String) : IsLexical (elementsRule self closer) := by
  intro c lexed
  have further {d : Cursor source} (lexed : d.IsLexed) := lexical (.elements closer) lexed
  refine .ite (.some lexed) (lexed.whenSees (by decide) further ?_)
  refine (isLexical_itemRule lexical lexed).bind fun c lexed => ?_
  exact lexed.whenSees (by decide) further (.ite (.some lexed) .none)

theorem isLexical_pairRule (start : Nat) : IsLexical (pairRule self start) := by
  intro c lexed
  refine (lexed.expect (by decide)).bind fun c lexed => ?_
  refine (lexical (.assignment true) lexed).bind fun c lexed => ?_
  exact .some (lexed.close _ _)

theorem isLexical_wordEntryRule (start : Nat) : IsLexical (wordEntryRule self start) := by
  intro c lexed
  refine .ite ?_ (.ite ?_ (.ite .none ?_))
  · exact isLexical_methodRule lexical start (lexed.shiftWord rfl rfl)
  · exact isLexical_pairRule lexical start (lexed.shiftWord rfl rfl)
  · have shorthand : (c.shiftWord .shorthand).IsLexed := lexed.shiftWord rfl rfl
    refine shorthand.whenSees (by decide) (fun lexed => ?_) (.some shorthand)
    exact (lexical (.assignment true) lexed).bind fun c lexed => .some (lexed.close _ _)

theorem isLexical_entryRule : IsLexical (entryRule self) := by
  intro c lexed
  have lexed := lexed.flush
  have method {d : Cursor source} (lexed : d.IsLexed) :
      Ensures (do let d ← keyRule self d; methodRule self c.flush.done.length d) IsLexed :=
    (isLexical_keyRule lexical lexed).bind fun d lexed => isLexical_methodRule lexical _ lexed
  refine lexed.whenSees (by decide) (fun lexed => ?_) (lexed.whenSees (by decide) method
    (.ite ?_ (.ite ?_ ?_)))
  · exact (lexical (.assignment true) lexed).bind fun c lexed => .some (lexed.close _ _)
  · have lexed : (c.flush.shiftWord .keyword).IsLexed := lexed.shiftWord rfl rfl
    exact method (lexed.pass (by decide))
  · exact isLexical_wordEntryRule lexical _ lexed
  · refine (isLexical_keyRule lexical lexed).bind fun c lexed => ?_
    exact .ite (isLexical_methodRule lexical _ lexed) (isLexical_pairRule lexical _ lexed)

theorem isLexical_entriesRule : IsLexical (entriesRule self) := by
  intro c lexed
  have further {d : Cursor source} (lexed : d.IsLexed) := lexical .entries lexed
  refine .ite (.some lexed) (lexed.whenSees (by decide) further ?_)
  refine (isLexical_entryRule lexical lexed).bind fun c lexed => ?_
  exact lexed.whenSees (by decide) further (.ite (.some lexed) .none)

/-! ### Markup -/

theorem isLexical_markupNameRule : IsLexical (markupNameRule self) := by
  intro c lexed
  refine (isLexed_expectMarkupName lexed.flush rfl rfl).bind fun c lexed => ?_
  exact .branch (fun colon => isLexed_joinedName lexed colon (by decide) (by decide) rfl rfl)
    fun _ => lexical (.markupNameTail _) lexed

theorem isLexical_markupNameTailRule (start : Nat) :
    IsLexical (markupNameTailRule self start) := by
  intro c lexed
  refine .branch (fun point => .ite .none ?_) fun _ => .ite .none (.some lexed)
  refine (isLexed_joinedName lexed point (by decide) (by decide) rfl rfl).bind fun c lexed => ?_
  exact lexical (.markupNameTail start) (lexed.close _ _)

theorem isLexed_markupExpressionRule (inside : Bool) (lexed : c.IsLexed) :
    Ensures (markupExpressionRule self inside c) (EndsTag inside) := by
  refine (endsTag_expectChar lexed.flush.lexes (by decide) (by decide) false).bind
    fun c lexed => ?_
  have lexed : c.IsLexed := lexed
  refine .joint IsLexed (fun onward =>
    .ite (.bind (.some lexed) onward) (lexed.whenSees (by decide)
      (fun lexed => (lexical (.assignment true) lexed).bind onward)
      ((lexical (.expression true) lexed).bind onward))) fun c lexed => ?_
  exact (endsTag_expectChar lexed.lexes (by decide) (by decide) inside).bind fun c read =>
    .some (read.close _ _)

theorem isLexical_markupValueRule : IsLexical (markupValueRule self) := by
  intro c lexed
  refine .ite (isLexed_markupExpressionRule lexical false lexed) ?_
  refine .ite (lexical (.markupElement false) lexed) (.map fun n found => ?_)
  exact lexed.shift (fun written => scans_markupTextValue (written.upcoming ▸ found)) rfl

theorem isLexical_markupAttributesRule : IsLexical (markupAttributesRule self) := by
  intro c lexed
  refine .ite ?_ (.ite (.some lexed) ?_)
  · exact (isLexed_markupExpressionRule lexical false lexed).bind fun c lexed =>
      lexical .markupAttributes lexed
  · refine (isLexed_expectMarkupName lexed.flush rfl rfl).bind fun c lexed => ?_
    refine .joint IsLexed (fun onward => .branch (fun colon => ?_) fun _ =>
      .bind (.some lexed) onward) fun c lexed => ?_
    · exact (isLexed_joinedName lexed colon (by decide) (by decide) rfl rfl).bind onward
    refine .joint IsLexed (fun onward => .branch (fun equals => ?_) fun _ =>
      .bind (.some lexed) onward) fun c lexed => ?_
    · have valued : (c.shiftChar false).IsLexed :=
        endsTag_shiftChar lexed.lexes (beq_iff_eq.1 equals) (by decide) (by decide) false
      exact (isLexical_markupValueRule lexical valued).bind onward
    exact lexical .markupAttributes (lexed.close _ _)

theorem isLexed_markupChildrenRule (text : c.StandsInText) :
    Ensures (markupChildrenRule self c) fun d => d.IsLexed ∧ ['<', '/'] <+: d.rest := by
  have children {d : Cursor source} (text : d.StandsInText) :
      Ensures (self .markupChildren d) fun d => d.IsLexed ∧ ['<', '/'] <+: d.rest :=
    (lexical .markupChildren).2 text
  have opened {front : List Char} (written : startsWith front c.rest = true)
      (bracket : ∀ after, triviaAt (front ++ after) = none) : c.IsLexed := by
    obtain ⟨after, same⟩ := List.isPrefixOf_iff_prefix.1 written
    exact text.isLexed (by rw [← same]; exact bracket after)
  refine .branch (fun tag => ?_) fun _ => .branch (fun tag => ?_) fun _ =>
    .branch (fun brace => ?_) fun _ => .bind_found fun n found => ?_
  · exact .some ⟨opened tag fun _ => rfl, List.isPrefixOf_iff_prefix.1 tag⟩
  · exact (lexical (.markupElement true) (opened tag fun _ => rfl)).bind fun d text => children text
  · exact (isLexed_markupExpressionRule lexical true (opened brace fun _ => rfl)).bind
      fun d text => children text
  · unfold markupTextLength at found
    split at found
    · exact children (text.shiftRaw (.characterReference found) rfl)
    · next m run none =>
      obtain rfl := Option.some.inj found
      have some : c.rest ≠ [] := fun empty => none (by rw [empty]; rfl)
      -- The run ends before the text does, for otherwise no closing tag would follow.
      intro d member
      have goesOn := (lexical .markupChildren).1 _ d member
      rw [Cursor.rest_shiftRaw text.entered some, Ne, List.drop_eq_nil_iff, Nat.not_le] at goesOn
      exact children (text.shiftRaw (.markupText rfl goesOn) rfl) d member

theorem isLexed_closingTagRule (inside : Bool) (lexed : c.IsLexed)
    (tag : ['<', '/'] <+: c.rest) : Ensures (closingTagRule self inside c) (EndsTag inside) := by
  have scanned : Scans .punctuator c.rest 2 := by
    refine .tagPunctuator ?_ (by decide) tag rfl
    obtain ⟨after, split⟩ := tag
    rw [← split]
    exact startsComment_cons (by decide) _
  have lexed : (c.flush.shift .punctuator 2).IsLexed := lexed.flush.shift (fun _ => scanned) rfl
  refine .joint IsLexed (fun onward =>
    .ite (.bind (.some lexed) onward) ((isLexical_markupNameRule lexical lexed).bind onward))
    fun c lexed => ?_
  exact (endsTag_expectChar lexed.lexes (by decide) (by decide) inside).bind fun c read =>
    .some (read.close _ _)

theorem isLexed_markupElementRule (inside : Bool) (lexed : c.IsLexed) :
    Ensures (markupElementRule self inside c) (EndsTag inside) := by
  have closed {d : Cursor source} (text : d.StandsInText) :
      Ensures (do
        let d ← self .markupChildren d
        let d ← closingTagRule self inside d
        some (d.close .markupElement c.flush.done.length)) (EndsTag inside) :=
    ((lexical .markupChildren).2 text).bind fun d read =>
      (isLexed_closingTagRule lexical inside read.1 read.2).bind fun d read =>
        .some (read.close _ _)
  refine (endsTag_expectChar lexed.flush.lexes (by decide) (by decide) false).bind
    fun c lexed => ?_
  have lexed : c.IsLexed := lexed
  refine .branch (fun angle => ?_) fun _ => ?_
  · have opened : EndsTag true (c.shiftChar true) :=
      endsTag_shiftChar lexed.lexes (beq_iff_eq.1 angle) (by decide) (by decide) true
    exact closed (opened.close _ _)
  · refine (isLexical_markupNameRule lexical lexed).bind fun c lexed => ?_
    refine (lexical .markupAttributes lexed).bind fun c lexed =>
      .branch (fun slash => ?_) fun _ => ?_
    · exact (endsTag_emptyTag inside lexed slash).bind fun c read =>
        .some ((read.close _ _).close _ _)
    · exact (endsTag_expectChar lexed.lexes (by decide) (by decide) true).bind fun c read =>
        closed (read.close _ _)

/-! ### Statements -/

theorem isLexical_conditionRule : IsLexical (conditionRule self) := fun _ lexed =>
  isLexed_enclosed lexed.flush (lexical (.expression true)) (by decide) (by decide) _ _

theorem isLexical_bindingRule : IsLexical (bindingRule self) :=
  fun _ lexed => .ite (lexical .operand lexed) lexed.expectIdentifier

theorem isLexical_declaratorsRule (allowIn : Bool) :
    IsLexical (declaratorsRule self allowIn) := by
  intro c lexed
  refine (isLexical_bindingRule lexical lexed.flush).bind fun c lexed => ?_
  refine .joint IsLexed (fun onward => lexed.whenSees (by decide)
    (fun lexed => (lexical (.assignment allowIn) lexed).bind onward)
    (.bind (.some lexed) onward)) fun c lexed => ?_
  exact (lexed.close _ _).whenSees (by decide) (fun lexed => lexical (.declarators allowIn) lexed)
    (.some (lexed.close _ _))

theorem isLexical_declarationRule : IsLexical (declarationRule self) := by
  intro c lexed
  refine (lexical (.declarators true) (lexed.flush.shiftWord rfl rfl)).bind fun c lexed => ?_
  exact (isLexical_semicolon lexed).bind fun c lexed => .some (lexed.close _ _)

theorem isLexical_ifRule : IsLexical (ifRule self) := by
  intro c lexed
  refine (isLexical_conditionRule lexical (lexed.flush.shiftWord rfl rfl)).bind fun c lexed => ?_
  refine (lexical .statement lexed).bind fun c lexed => ?_
  refine .joint IsLexed (fun onward =>
    .ite ((lexical .statement (lexed.shiftWord rfl rfl)).bind onward)
      (.bind (.some lexed) onward)) fun c lexed => ?_
  exact .some (lexed.close _ _)

theorem isLexical_forEachTailRule (start : Nat) : IsLexical (forEachTailRule self start) := by
  intro c lexed
  refine (lexical (.expression true) (lexed.shiftWord rfl rfl)).bind fun c lexed => ?_
  refine (lexed.expect (by decide)).bind fun c lexed => ?_
  exact (lexical .statement lexed).bind fun c lexed => .some (lexed.close _ _)

theorem isLexical_forTailRule (start : Nat) : IsLexical (forTailRule self start) := by
  intro c lexed
  refine (lexed.expect (by decide)).bind fun c lexed => ?_
  refine .joint IsLexed (fun onward =>
    .ite (.bind (.some lexed) onward) ((lexical (.expression true) lexed).bind onward))
    fun c lexed => ?_
  refine (lexed.expect (by decide)).bind fun c lexed => ?_
  refine .joint IsLexed (fun onward =>
    .ite (.bind (.some lexed) onward) ((lexical (.expression true) lexed).bind onward))
    fun c lexed => ?_
  refine (lexed.expect (by decide)).bind fun c lexed => ?_
  exact (lexical .statement lexed).bind fun c lexed => .some (lexed.close _ _)

theorem isLexical_forRule : IsLexical (forRule self) := by
  intro c lexed
  have lexed : (c.flush.shiftWord .keyword).IsLexed := lexed.flush.shiftWord rfl rfl
  refine ((IsLexed.ite (lexed.shiftWord rfl rfl) lexed).expect (by decide)).bind fun c lexed => ?_
  have lexed := lexed.flush
  refine .ite (isLexical_forTailRule lexical _ lexed) (.ite ?_ ?_)
  · refine (lexical (.declarators false) (lexed.shiftWord rfl rfl)).bind fun c lexed => ?_
    exact .ite (isLexical_forEachTailRule lexical _ (lexed.close _ _))
      (isLexical_forTailRule lexical _ (lexed.close _ _))
  · refine (lexical (.expression false) lexed).bind fun c lexed => ?_
    refine .ite (.ite ?_ .none) (isLexical_forTailRule lexical _ lexed)
    exact isLexical_forEachTailRule lexical _ (lexed.close _ _)

theorem isLexical_whileRule : IsLexical (whileRule self) := by
  intro c lexed
  refine (isLexical_conditionRule lexical (lexed.flush.shiftWord rfl rfl)).bind fun c lexed => ?_
  exact (lexical .statement lexed).bind fun c lexed => .some (lexed.close _ _)

theorem isLexical_doRule : IsLexical (doRule self) := by
  intro c lexed
  refine (lexical .statement (lexed.flush.shiftWord rfl rfl)).bind fun c lexed => ?_
  refine (lexed.expectWord _).bind fun c lexed => ?_
  refine (isLexical_conditionRule lexical lexed).bind fun c lexed => ?_
  exact .some ((lexed.pass (by decide)).close _ _)

theorem isLexical_withRule : IsLexical (withRule self) := by
  intro c lexed
  refine (isLexical_conditionRule lexical (lexed.flush.shiftWord rfl rfl)).bind fun c lexed => ?_
  exact (lexical .statement lexed).bind fun c lexed => .some (lexed.close _ _)

theorem isLexical_switchRule : IsLexical (switchRule self) := by
  intro c lexed
  refine (isLexical_conditionRule lexical (lexed.flush.shiftWord rfl rfl)).bind fun c lexed => ?_
  refine (lexed.expect (by decide)).bind fun c lexed => ?_
  refine (lexical .switchCases lexed).bind fun c lexed => ?_
  exact (lexed.expect (by decide)).bind fun c lexed => .some (lexed.close _ _)

theorem isLexical_switchCasesRule : IsLexical (switchCasesRule self) := by
  intro c lexed
  refine .ite (.some lexed) ?_
  have lexed := lexed.flush
  refine .joint IsLexed (fun onward =>
    .ite ((lexical (.expression true) (lexed.shiftWord rfl rfl)).bind onward)
      ((lexed.expectWord _).bind onward)) fun c lexed => ?_
  refine (lexed.expect (by decide)).bind fun c lexed => ?_
  refine (lexical .statements lexed).bind fun c lexed => ?_
  exact lexical .switchCases (lexed.close _ _)

theorem isLexical_catchRule : IsLexical (catchRule self) := by
  intro c lexed
  have lexed : (c.flush.shiftWord .keyword).IsLexed := lexed.flush.shiftWord rfl rfl
  refine .joint IsLexed (fun onward => lexed.flush.whenSees (by decide) (fun lexed => ?_)
    (.bind (.some lexed) onward)) fun c lexed => ?_
  · refine (isLexical_bindingRule lexical lexed).bind fun c lexed => ?_
    refine (lexed.expect (by decide)).bind fun c lexed => ?_
    exact .bind (.some (lexed.close _ _)) onward
  · exact (lexical .block lexed).bind fun c lexed => .some (lexed.close _ _)

theorem isLexical_tryRule : IsLexical (tryRule self) := by
  intro c lexed
  refine (lexical .block (lexed.flush.shiftWord rfl rfl)).bind fun c lexed => ?_
  refine .joint IsLexed (fun onward =>
    .ite ((isLexical_catchRule lexical lexed).bind onward) (.bind (.some lexed) onward))
    fun c lexed => ?_
  refine .joint IsLexed (fun onward =>
    .ite ((lexical .block (lexed.shiftWord rfl rfl)).bind onward) (.bind (.some lexed) onward))
    fun c lexed => ?_
  exact .some (lexed.close _ _)

theorem isLexical_returnRule : IsLexical (returnRule self) := by
  intro c lexed
  have lexed : (c.flush.shiftWord .keyword).IsLexed := lexed.flush.shiftWord rfl rfl
  refine .joint IsLexed (fun onward =>
    .ite (.bind (.some lexed) onward) ((lexical (.expression true) lexed).bind onward))
    fun c lexed => ?_
  exact (isLexical_semicolon lexed).bind fun c lexed => .some (lexed.close _ _)

theorem isLexical_throwRule : IsLexical (throwRule self) := by
  intro c lexed
  refine (lexical (.expression true) (lexed.flush.shiftWord rfl rfl)).bind fun c lexed => ?_
  exact (isLexical_semicolon lexed).bind fun c lexed => .some (lexed.close _ _)

/-! ### Modules -/

theorem isLexical_specifiersRule : IsLexical (specifiersRule self) := by
  intro c lexed
  refine .ite (.some lexed) ((isLexical_moduleName lexed).bind fun c lexed => ?_)
  refine .joint IsLexed (fun onward =>
    .ite ((isLexical_moduleName (lexed.shiftWord rfl rfl)).bind onward)
      (.bind (.some lexed) onward)) fun c lexed => ?_
  exact lexed.whenSees (by decide) (fun lexed => lexical .specifiers lexed)
    (.ite (.some lexed) .none)

theorem isLexical_namedRule : IsLexical (namedRule self) := by
  intro c lexed
  refine (lexed.expect (by decide)).bind fun c lexed => ?_
  exact (lexical .specifiers lexed).bind fun c lexed => lexed.expect (by decide)

theorem isLexical_bundleRule : IsLexical (bundleRule self) := by
  intro c lexed
  refine lexed.whenSees (by decide) (fun lexed => ?_) (isLexical_namedRule lexical lexed)
  exact (lexed.expectWord _).bind fun c lexed => lexed.expectIdentifier

theorem isLexical_importStatementRule : IsLexical (importStatementRule self) := by
  intro c lexed
  have lexed : (c.flush.shiftWord .keyword).IsLexed := lexed.flush.shiftWord rfl rfl
  refine .joint IsLexed (fun onward =>
    .ite (lexed.expectString.bind onward) (.ite ?_ ?_)) fun c lexed => ?_
  · have name : (Cursor.shiftWord .identifier _).IsLexed := lexed.shiftWord rfl rfl
    refine .joint IsLexed (fun named => name.whenSees (by decide)
      (fun lexed => (isLexical_bundleRule lexical lexed).bind named)
      (.bind (.some name) named)) fun c lexed => ?_
    exact (isLexical_sourceRule lexed).bind onward
  · refine (isLexical_bundleRule lexical lexed).bind fun c lexed => ?_
    exact (isLexical_sourceRule lexed).bind onward
  · refine .joint IsLexed (fun onward =>
      .ite ((lexical .operand (lexed.shiftWord rfl rfl)).bind onward)
        (.bind (.some lexed) onward)) fun c lexed => ?_
    exact (isLexical_semicolon lexed).bind fun c lexed => .some (lexed.close _ _)

theorem isLexical_exportStatementRule : IsLexical (exportStatementRule self) := by
  intro c lexed
  have lexed : (c.flush.shiftWord .keyword).IsLexed := lexed.flush.shiftWord rfl rfl
  refine .joint IsLexed (fun onward => lexed.whenSees (by decide) (fun lexed => ?_)
    (.ite ?_ (.ite ?_ (.ite ((isLexical_declarationRule lexical lexed).bind onward)
      (.ite ((isLexical_functionRule lexical lexed).bind onward)
        (.ite ((isLexical_classRule lexical lexed).bind onward) .none)))))) fun c lexed => ?_
  · refine .joint IsLexed (fun named =>
      .ite ((isLexical_moduleName (lexed.shiftWord rfl rfl)).bind named)
        (.bind (.some lexed) named)) fun c lexed => ?_
    refine (isLexical_sourceRule lexed).bind fun c lexed => ?_
    exact (isLexical_semicolon lexed).bind onward
  · refine (isLexical_namedRule lexical lexed).bind fun c lexed => ?_
    refine .joint IsLexed (fun named =>
      .ite ((isLexical_sourceRule lexed).bind named) (.bind (.some lexed) named)) fun c lexed => ?_
    exact (isLexical_semicolon lexed).bind onward
  · have lexed : (Cursor.shiftWord .keyword _).IsLexed := lexed.shiftWord rfl rfl
    refine .ite ((isLexical_functionRule lexical lexed).bind onward) ?_
    refine .ite ((isLexical_classRule lexical lexed).bind onward) ?_
    refine (lexical (.assignment true) lexed).bind fun c lexed => ?_
    exact .ite (.bind (.some lexed) onward) ((isLexical_semicolon lexed).bind onward)
  · exact .some (lexed.close _ _)

theorem isLexical_labeledRule : IsLexical (labeledRule self) := by
  intro c lexed
  refine lexed.flush.expectIdentifier.bind fun c lexed => ?_
  refine (lexed.expect (by decide)).bind fun c lexed => ?_
  exact (lexical .statement lexed).bind fun c lexed => .some (lexed.close _ _)

theorem isLexical_expressionStatementRule : IsLexical (expressionStatementRule self) := by
  intro c lexed
  refine (lexical (.expression true) lexed.flush).bind fun c lexed => ?_
  exact (isLexical_semicolon lexed).bind fun c lexed => .some (lexed.close _ _)

theorem isLexical_statementRule : IsLexical (statementRule self) := by
  intro c lexed
  have expression := isLexical_expressionStatementRule lexical lexed
  refine .ite (.ite (lexical .block lexed)
    (lexed.flush.whenSees (by decide) (fun lexed => .some (lexed.close _ _)) expression)) ?_
  · refine .ite (isLexical_declarationRule lexical lexed) ?_
    refine .ite (isLexical_functionRule lexical lexed) ?_
    refine .ite (isLexical_classRule lexical lexed) ?_
    refine .ite (isLexical_ifRule lexical lexed) (.ite (isLexical_forRule lexical lexed) ?_)
    refine .ite (isLexical_whileRule lexical lexed) (.ite (isLexical_doRule lexical lexed) ?_)
    refine .ite (isLexical_withRule lexical lexed) (.ite (isLexical_switchRule lexical lexed) ?_)
    refine .ite (isLexical_tryRule lexical lexed) (.ite (isLexical_returnRule lexical lexed) ?_)
    refine .ite (isLexical_throwRule lexical lexed) (.ite (isLexical_jumpRule lexed) ?_)
    refine .ite (isLexical_importStatementRule lexical lexed) ?_
    refine .ite (isLexical_exportStatementRule lexical lexed) ?_
    exact .ite (isLexical_labeledRule lexical lexed) expression

theorem isLexical_statementsRule : IsLexical (statementsRule self) := by
  intro c lexed
  refine .ite (.some lexed) ?_
  exact (lexical .statement lexed).bind fun c lexed => lexical .statements lexed

/-! ### The grammar -/

/-- If the rules for the goals inside read tokens, so does the rule for each goal. -/
theorem isLexical_ruleOf (refuses : self.RefusesStars) : (ruleOf self).IsLexical := by
  intro goal
  cases goal with
  | statements => exact isLexical_statementsRule lexical
  | statement => exact isLexical_statementRule lexical
  | block => exact isLexical_blockRule lexical
  | declarators allowIn => exact isLexical_declaratorsRule lexical allowIn
  | switchCases => exact isLexical_switchCasesRule lexical
  | specifiers => exact isLexical_specifiersRule lexical
  | expression allowIn => exact isLexical_expressionRule lexical allowIn
  | sequenceTail allowIn => exact isLexical_sequenceTailRule lexical allowIn
  | assignment allowIn => exact isLexical_assignmentRule lexical allowIn
  | binary level allowIn => exact isLexical_binaryRule lexical level allowIn
  | binaryTail start level allowIn =>
    exact isLexical_binaryTailRule lexical refuses start level allowIn
  | unary => exact isLexical_unaryRule lexical
  | operand => exact isLexical_operandRule lexical
  | accessTail start allowCall => exact isLexical_accessTailRule lexical start allowCall
  | elements closer => exact isLexical_elementsRule lexical closer
  | entries => exact isLexical_entriesRule lexical
  | members => exact isLexical_membersRule lexical
  | templateParts => exact fun _ => isLexed_templatePartsRule lexical
  | markupElement inside => exact fun _ => isLexed_markupElementRule lexical inside
  | markupNameTail start => exact isLexical_markupNameTailRule lexical start
  | markupAttributes => exact isLexical_markupAttributesRule lexical
  | markupChildren =>
    exact ⟨rest_ne_nil_of_markupChildrenRule, fun _ => isLexed_markupChildrenRule lexical⟩

end

/-- Whether a rule reads tokens is asked of one cursor at a time. -/
theorem Goal.isLexical_of_pointwise (goal : Goal) (rule : Rule source)
    (each : ∀ c, ∃ other : Rule source, (goal.IsLexical other ∧ goal.RefusesStars other) ∧
      rule c = other c) : goal.IsLexical rule ∧ goal.RefusesStars rule := by
  constructor
  · cases goal with
    | markupChildren =>
      refine ⟨fun c => ?_, fun c text => ?_⟩
      · obtain ⟨other, holds, same⟩ := each c
        rw [same]
        exact holds.1.1 c
      · obtain ⟨other, holds, same⟩ := each c
        rw [same]
        exact holds.1.2 text
    | _ =>
      intro c lexed
      obtain ⟨other, holds, same⟩ := each c
      rw [same]
      exact holds.1 lexed
  · refine goal.refusesStars_of_pointwise rule fun c => ?_
    obtain ⟨other, holds, same⟩ := each c
    exact ⟨other, holds.2, same⟩

/-- The rules of the grammar read tokens, however deep they may be nested. -/
theorem isLexical_read : Rules.IsLexical (@read source) := by
  refine fun goal => (read_of_ruleOf Goal.isLexical_of_pointwise (fun goal => ⟨?_, ?_⟩)
    (fun self each goal => ?_) goal).1
  · cases goal with
    | markupChildren => exact ⟨fun _ => .none, fun _ _ => .none⟩
    | _ => exact fun _ _ => .none
  · exact fun _ _ => .none
  · exact ⟨isLexical_ruleOf (fun inner => (each inner).1) (fun inner => (each inner).2) goal,
      refusesStars_ruleOf (fun inner => (each inner).2) goal⟩

/-- The tree of a text that follows the grammar holds the tokens of the text. -/
theorem lexes_readProgram {enclosed : Bool} {tree : Tree}
    (read : readProgram enclosed source = some tree) : Lexes source tree.tokens [] := by
  have covered := text_of_readProgram read
  unfold readProgram at read
  split at read
  case h_1 => cases read
  case h_2 c found =>
    split at read
    case isFalse => cases read
    case isTrue =>
      cases read
      have front : (Cursor.start enclosed source).IsLexed := by
        unfold Cursor.start
        exact .ite ⟨.start, fun entered => absurd rfl entered⟩ (Cursor.isLexed_settle .start)
      have final : c.IsLexed := isLexical_read .statements front c found
      have ended : c.rest = [] := by
        have whole := c.whole
        simpa [Cursor.tree, ← covered] using whole
      have tokens : c.tree.tokens = c.tokens := Tree.tokens_node _ _
      rw [tokens, ← ended]
      exact final.lexes

end ComponentCompiler.Script
