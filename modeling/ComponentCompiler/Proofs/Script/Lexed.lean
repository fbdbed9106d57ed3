import ComponentCompiler.Proofs.Script.Stack
import ComponentCompiler.Proofs.Script.Tokens

/-!
# The tokens that a cursor has read

A cursor turns the next characters of its text into a token of some kind and length. Where the
length is the one that the scanner for this kind gives, the trees of the cursor stay the tokens at
the front of the text. Gathering trees into a node, and passing an unwritten parenthesis, changes
none of the tokens.

## Main definitions

* `Cursor.IsLexed` — the trees read so far are the tokens at the front of the text
* `Cursor.StandsInText` — the literal text of a template or an element may start right here
* `Cursor.IsWritten` — what comes next is no unwritten parenthesis

## Main results

* `Cursor.lexes_shiftRaw` — a token that a scanner has found
* `Cursor.isLexed_settle` — blanks and comments are tokens too
* `Cursor.IsLexed.shift`, `Cursor.IsLexed.shiftNext_of_next` — a token with what follows it
-/

namespace ComponentCompiler.Script

variable {source : List Char}

theorem Ensures.map {α β : Type} {result : Option α} {f : α → β} {post : β → Prop}
    (each : ∀ value, result = Option.some value → post (f value)) :
    Ensures (result.map f) post := by
  intro final member
  obtain ⟨value, found, rfl⟩ := Option.map_eq_some_iff.1 member
  exact each value found

/-- The blanks and comments at the front of what follows are tokens of the text. -/
theorem Lexes.splitTrivia {tokens : List Token} {text : List Char}
    (lexes : Lexes source tokens text) (limit : Nat) :
    Lexes source (tokens ++ tokensOf (splitTrivia limit text).1) (splitTrivia limit text).2 := by
  induction limit generalizing tokens text with
  | zero => simpa [Script.splitTrivia] using lexes
  | succ limit ih =>
    unfold Script.splitTrivia
    split
    · simpa using lexes
    · next kind n found =>
      have scanned : Scans kind text n := .trivia found
      have some : 0 < n := pos_of_triviaAt found
      have plain : kind.isLiteral = false := by
        rcases triviaAt_cases found with ⟨rfl, -⟩ | ⟨rfl, -⟩ <;> rfl
      have read := lexes.next scanned some fun literal => by rw [plain] at literal; cases literal
      simpa [Tree.tokens_token (scanned.take_ne_nil some)] using ih read

/-- No blank or comment follows those at the front. -/
theorem triviaAt_splitTrivia {limit : Nat} {text : List Char} (enough : text.length ≤ limit) :
    triviaAt (splitTrivia limit text).2 = none := by
  induction limit generalizing text with
  | zero =>
    obtain rfl : text = [] := List.length_eq_zero_iff.1 (Nat.le_zero.1 enough)
    rfl
  | succ limit ih =>
    unfold splitTrivia
    split
    · next clear => exact clear
    · next kind n found =>
      refine ih ?_
      have some : 0 < n := pos_of_triviaAt found
      rw [List.length_drop]
      omega

namespace Cursor

/-- The tokens of the trees that have been read. -/
def tokens (c : Cursor source) : List Token :=
  tokensOf (c.done.reverse ++ c.trivia)

/-- The trees that have been read are the tokens at the front of the text, and the cursor has read
on past blanks and comments. -/
structure IsLexed (c : Cursor source) : Prop where
  lexes : Lexes source c.tokens c.rest
  clear : c.enclosure ≠ .opening → triviaAt c.rest = none

/-- The trees that have been read are the tokens at the front of the text, and the literal text of a
template or an element may start right here. -/
structure StandsInText (c : Cursor source) : Prop where
  lexes : Lexes source c.tokens c.rest
  entered : c.enclosure ≠ .opening
  opened : ∃ last ∈ c.tokens.getLast?, last.kind.opensLiteral = true

/-- What comes next is no unwritten parenthesis. -/
structure IsWritten (c : Cursor source) : Prop where
  upcoming : c.upcoming = c.rest
  entered : c.enclosure ≠ .opening

variable {c : Cursor source}

@[simp] theorem tokens_flush (c : Cursor source) : c.flush.tokens = c.tokens := by
  simp [tokens, flush]

@[simp] theorem tokens_close (form : Form) (mark : Nat) (c : Cursor source) :
    (c.close form mark).tokens = c.tokens := by
  have row : c.done.reverse = (c.done.drop (c.done.length - mark)).reverse ++
      (c.done.take (c.done.length - mark)).reverse := by
    rw [← List.reverse_append, List.take_append_drop]
  simp [tokens, close, row]

@[simp] theorem tokens_pass (kind : TokenKind) (enclosure : Enclosure) (c : Cursor source) :
    (c.pass kind enclosure).tokens = c.tokens := by
  simp [tokens, pass, Tree.tokens]

/-- A token is passed as it is written, or stands for an unwritten parenthesis. -/
theorem shiftRaw_cases (kind : TokenKind) (n : Nat) (c : Cursor source) :
    (c.IsWritten ∧
        (c.shiftRaw kind n).tokens = c.tokens ++ (Tree.token kind (c.rest.take n)).tokens ∧
        (c.shiftRaw kind n).rest = c.rest.drop n ∧
        (c.shiftRaw kind n).enclosure = c.enclosure) ∨
      (¬ c.IsWritten ∧ (c.upcoming = ['('] ∨ c.upcoming = [')']) ∧
        (c.shiftRaw kind n).tokens = c.tokens ∧ (c.shiftRaw kind n).rest = c.rest ∧
        (c.shiftRaw kind n).enclosure ≠ .opening) := by
  have closing : Enclosure.closing ≠ .opening := by decide
  have absent : Enclosure.absent ≠ .opening := by decide
  obtain ⟨done, trivia, rest, enclosure, whole⟩ := c
  cases enclosure with
  | opening =>
    exact .inr ⟨fun written => written.entered rfl, .inl rfl, tokens_pass _ _ _, rfl, closing⟩
  | closing =>
    cases rest with
    | nil =>
      exact .inr ⟨fun written => (List.cons_ne_nil _ _ written.upcoming), .inr rfl,
        tokens_pass _ _ _, rfl, absent⟩
    | cons first rest => exact .inl ⟨⟨rfl, closing⟩, by simp [tokens, shiftRaw], rfl, rfl⟩
  | absent => exact .inl ⟨⟨rfl, absent⟩, by simp [tokens, shiftRaw], rfl, rfl⟩

theorem rest_shiftRaw (entered : c.enclosure ≠ .opening) (some : c.rest ≠ []) (kind : TokenKind)
    (n : Nat) : (c.shiftRaw kind n).rest = c.rest.drop n := by
  obtain ⟨done, trivia, rest, enclosure, whole⟩ := c
  cases enclosure with
  | opening => exact absurd rfl entered
  | closing =>
    cases rest with
    | nil => exact absurd rfl some
    | cons first rest => rfl
  | absent => rfl

theorem enclosure_shiftRaw (kind : TokenKind) (n : Nat) (c : Cursor source) :
    (c.shiftRaw kind n).enclosure ≠ .opening := by
  rcases shiftRaw_cases kind n c with ⟨written, -, -, same⟩ | ⟨-, -, -, -, entered⟩
  · exact same ▸ written.entered
  · exact entered

theorem upcoming_eq_rest (entered : c.enclosure ≠ .opening) (some : c.rest ≠ []) :
    c.upcoming = c.rest := by
  obtain ⟨done, trivia, rest, enclosure, whole⟩ := c
  cases enclosure with
  | opening => exact absurd rfl entered
  | closing =>
    cases rest with
    | nil => exact absurd rfl some
    | cons first rest => rfl
  | absent => rfl

theorem rest_settle (clear : triviaAt c.rest = none) : c.settle.rest = c.rest := by
  cases rest : c.rest with
  | nil => simp [settle, rest, splitTrivia]
  | cons first others =>
    rw [rest] at clear
    simp [settle, rest, splitTrivia, clear]

/-- The next character, if it is no parenthesis, is written. -/
theorem isWritten_of_seen {char : Char} (seen : c.upcoming.head? = some char)
    (other : char ≠ '(' ∧ char ≠ ')') : c.IsWritten := by
  rcases shiftRaw_cases .punctuator 1 c with ⟨written, -⟩ | ⟨-, passed | passed, -⟩
  · exact written
  · rw [passed] at seen
    exact absurd (Option.some.inj seen).symm other.1
  · rw [passed] at seen
    exact absurd (Option.some.inj seen).symm other.2

theorem IsWritten.prefix_of_seen {char : Char} (written : c.IsWritten)
    (seen : c.upcoming.head? = some char) : [char] <+: c.rest := by
  obtain ⟨after, same⟩ := List.head?_eq_some_iff.1 (written.upcoming ▸ seen)
  exact ⟨after, same.symm⟩

theorem seen_of_sees {text : String} {char : Char} {rest : List Char}
    (sees : c.sees text = true) (chars : text.toList = char :: rest) :
    c.upcoming.head? = some char := by
  have next : punctuatorAt c.upcoming = char :: rest := (beq_iff_eq.1 sees).trans chars
  obtain ⟨after, same⟩ := isPrefix_punctuatorAt c.upcoming
  rw [next] at same
  rw [← same]
  rfl

theorem next_ne_slash {text : String} (sees : c.sees text = true) (other : text.toList ≠ ['/']) :
    c.next ≠ ['/'] := by
  rw [beq_iff_eq.1 sees]
  exact other

/-- A slash starts no comment if no star follows it. -/
theorem IsWritten.not_startsComment (written : c.IsWritten) (clear : triviaAt c.rest = none)
    {kind : TokenKind} (other : (c.shift kind 1).upcoming.head? ≠ some '*') :
    startsComment c.rest = false := by
  by_contra comment
  simp only [Bool.not_eq_false, startsComment, startsLineComment, Bool.or_eq_true] at comment
  rcases comment with line | block
  · obtain ⟨after, same⟩ := List.isPrefixOf_iff_prefix.1 line
    rw [← same, triviaAt_of_comment rfl] at clear
    cases clear
  · obtain ⟨after, same⟩ := List.isPrefixOf_iff_prefix.1 block
    have some : c.rest ≠ [] := by
      rw [← same]
      exact List.cons_ne_nil _ _
    have rest : (c.shiftRaw kind 1).rest = '*' :: after := by
      rw [rest_shiftRaw written.entered some, ← same]
      rfl
    have settled : (c.shift kind 1).rest = '*' :: after := by
      rw [Cursor.shift, rest_settle (by rw [rest]; rfl), rest]
    have entered : (c.shift kind 1).enclosure ≠ .opening := enclosure_shiftRaw kind 1 c
    rw [upcoming_eq_rest entered (by rw [settled]; exact List.cons_ne_nil _ _), settled] at other
    exact other rfl

/-- A token that a scanner has found, without what follows it. -/
theorem lexes_shiftRaw (lexes : Lexes source c.tokens c.rest) {kind : TokenKind} {n : Nat}
    (scanned : c.IsWritten → Scans kind c.rest n)
    (placed : kind.isLiteral = true → c.StandsInText) :
    Lexes source (c.shiftRaw kind n).tokens (c.shiftRaw kind n).rest := by
  rcases shiftRaw_cases kind n c with ⟨written, tokens, rest, -⟩ | ⟨-, -, tokens, rest, -⟩
  · rw [tokens, rest]
    by_cases some : c.rest.take n = []
    · have none : c.rest.drop n = c.rest := by
        rcases List.take_eq_nil_iff.1 some with zero | empty
        · rw [zero, List.drop_zero]
        · rw [empty, List.drop_nil]
      have empty : (Tree.token kind []).tokens = [] := by simp [Tree.tokens]
      rw [some, none, empty, List.append_nil]
      exact lexes
    · have positive : n ≠ 0 := by
        rintro rfl
        exact some List.take_zero
      rw [Tree.tokens_token some]
      exact lexes.next (scanned written) (Nat.pos_of_ne_zero positive)
        fun literal => (placed literal).opened
  · rw [tokens, rest]
    exact lexes

/-- Blanks and comments are tokens of the text too. -/
theorem isLexed_settle (lexes : Lexes source c.tokens c.rest) : c.settle.IsLexed := by
  have tokens : c.settle.tokens = c.tokens ++ tokensOf (splitTrivia c.rest.length c.rest).1 := by
    simp [Cursor.tokens, settle]
  refine ⟨?_, fun _ => triviaAt_splitTrivia (Nat.le_refl _)⟩
  rw [tokens]
  exact lexes.splitTrivia _

namespace StandsInText

/-- Literal text may start right behind a bracket that is passed raw. -/
theorem of_bracket (lexes : Lexes source c.tokens c.rest) (written : c.IsWritten) {n : Nat}
    (scanned : Scans .punctuator c.rest n) (some : 0 < n) :
    (c.shiftRaw .punctuator n).StandsInText := by
  have read := lexes_shiftRaw lexes (fun _ => scanned) nofun
  refine ⟨read, enclosure_shiftRaw _ n c, ⟨.punctuator, c.rest.take n⟩, ?_, rfl⟩
  rcases shiftRaw_cases .punctuator n c with ⟨-, tokens, -⟩ | ⟨passed, -⟩
  · simp [tokens, Tree.tokens_token (scanned.take_ne_nil some)]
  · exact absurd written passed

theorem flush (text : c.StandsInText) : c.flush.StandsInText :=
  ⟨by rw [tokens_flush]; exact text.lexes, text.entered, by rw [tokens_flush]; exact text.opened⟩

theorem close (text : c.StandsInText) (form : Form) (mark : Nat) :
    (c.close form mark).StandsInText :=
  ⟨by rw [tokens_close]; exact text.lexes, text.entered, by rw [tokens_close]; exact text.opened⟩

/-- Literal text may go on behind literal text. -/
theorem shiftRaw (text : c.StandsInText) {kind : TokenKind} {n : Nat}
    (scanned : Scans kind c.rest n) (opens : kind.opensLiteral = true) :
    (c.shiftRaw kind n).StandsInText := by
  have lexes := lexes_shiftRaw text.lexes (fun _ => scanned) fun _ => text
  rcases shiftRaw_cases kind n c with ⟨-, tokens, -, enclosure⟩ | ⟨-, -, tokens, -, entered⟩
  · refine ⟨lexes, enclosure ▸ text.entered, ?_⟩
    rw [tokens]
    by_cases some : c.rest.take n = []
    · simpa [some, Tree.tokens] using text.opened
    · exact ⟨⟨kind, c.rest.take n⟩, by simp [Tree.tokens_token some], opens⟩
  · exact ⟨lexes, entered, tokens ▸ text.opened⟩

/-- Where no blank or comment follows, it makes no difference whether the text is literal. -/
theorem isLexed (text : c.StandsInText) (clear : triviaAt c.rest = none) : c.IsLexed :=
  ⟨text.lexes, fun _ => clear⟩

end StandsInText

namespace IsLexed

theorem flush (lexed : c.IsLexed) : c.flush.IsLexed :=
  ⟨by rw [tokens_flush]; exact lexed.lexes, lexed.clear⟩

theorem close (lexed : c.IsLexed) (form : Form) (mark : Nat) : (c.close form mark).IsLexed :=
  ⟨by rw [tokens_close]; exact lexed.lexes, lexed.clear⟩

theorem ite {condition : Prop} [Decidable condition] {other : Cursor source}
    (yes : c.IsLexed) (no : other.IsLexed) : (if condition then c else other).IsLexed := by
  split
  · exact yes
  · exact no

/-- A token that a scanner has found, with the blanks and comments behind it. -/
theorem shift (lexed : c.IsLexed) {kind : TokenKind} {n : Nat}
    (scanned : c.IsWritten → Scans kind c.rest n) (plain : kind.isLiteral = false) :
    (c.shift kind n).IsLexed :=
  isLexed_settle (lexes_shiftRaw lexed.lexes scanned
    fun literal => by rw [plain] at literal; cases literal)

/-- An operator other than a slash starts no comment. -/
theorem shiftNext (lexed : c.IsLexed) (other : c.next ≠ ['/']) : c.shiftNext.IsLexed := by
  refine lexed.shift (fun written => .punctuator ?_ (by rw [← written.upcoming]; rfl)) rfl
  by_contra comment
  rw [Bool.not_eq_false, ← written.upcoming] at comment
  exact other (punctuatorAt_of_startsComment comment)

/-- An operator in front of something other than a star starts no comment. -/
theorem shiftNext_of_next (lexed : c.IsLexed) (next : c.shiftNext.upcoming.head? ≠ some '*') :
    c.shiftNext.IsLexed := by
  by_cases slash : c.next = ['/']
  · rw [Cursor.shiftNext, slash] at next
    exact lexed.shift (fun written => .punctuator
      (written.not_startsComment (lexed.clear written.entered) next)
      (by rw [← written.upcoming]; rfl)) rfl
  · exact lexed.shiftNext slash

theorem shiftWord (lexed : c.IsLexed) {kind : TokenKind} (word : kind.isWord = true)
    (plain : kind.isLiteral = false) : (c.shiftWord kind).IsLexed := by
  refine lexed.shift (fun written => .word word ?_) plain
  simp only [Cursor.word, written.upcoming, List.length_take]
  exact (Nat.min_eq_left (wordLength_le _)).symm

/-- Where the operator comes next, it can be passed. -/
theorem whenSees (lexed : c.IsLexed) {text : String} (other : text.toList ≠ ['/']) {α : Type}
    {yes no : Option α} {post : α → Prop} (onward : c.shiftNext.IsLexed → Ensures yes post)
    (otherwise : Ensures no post) : Ensures (if c.sees text then yes else no) post := by
  split
  · next sees => exact onward (lexed.shiftNext (next_ne_slash sees other))
  · exact otherwise

theorem pass (lexed : c.IsLexed) {text : String} (other : text.toList ≠ ['/']) :
    (if c.sees text then c.shiftNext else c).IsLexed := by
  split
  · next sees => exact lexed.shiftNext (next_ne_slash sees other)
  · exact lexed

theorem expect (lexed : c.IsLexed) {text : String} (other : text.toList ≠ ['/']) :
    Ensures (c.expect text) IsLexed :=
  lexed.whenSees other .some .none

theorem expectWord (lexed : c.IsLexed) (text : String) : Ensures (c.expectWord text) IsLexed :=
  .ite (.some (lexed.shiftWord rfl rfl)) .none

theorem expectIdentifier (lexed : c.IsLexed) : Ensures c.expectIdentifier IsLexed :=
  .ite (.some (lexed.shiftWord rfl rfl)) .none

theorem expectString (lexed : c.IsLexed) : Ensures c.expectString IsLexed :=
  .map fun _ found => lexed.shift (fun written => .string (written.upcoming ▸ found)) rfl

theorem expectRegex (lexed : c.IsLexed) : Ensures c.expectRegex IsLexed :=
  .map fun _ found => lexed.shift (fun written => .regex (written.upcoming ▸ found)) rfl

end IsLexed

end Cursor

end ComponentCompiler.Script
