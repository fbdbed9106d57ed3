import ComponentCompiler.Proofs.Script.Literals

/-!
# The tokens of a text

A text is a row of tokens. Each of them is as long as its kind admits at its place, with all that
follows in view, so a text can be taken for a certain row of tokens in front of one continuation and
not in front of another. The kinds are given: which of them are welcome at a place, and whether a
slash divides or opens a regular expression there, is up to the grammar.

A closer right behind a text is a token of its own, and the tokens of the text stay as they are, if
the last of them is no line comment. If it is one, the closer is a part of it.

## Main definitions

* `Tree.tokens` — the tokens of a tree
* `Scans` — a token of some kind and length stands at the front of a text
* `Lexes` — the tokens at the front of a text
* `endsInLineComment` — whether the last of some tokens is a line comment

## Main results

* `Lexes.append` — a closer behind a text leaves its tokens as they are
* `Lexes.closer_iff` — when the closer is a token of its own
* `Lexes.swallowed` — what becomes of it otherwise
-/

namespace ComponentCompiler.Script

variable {text : List Char} {d : Char} {n : Nat}

/-! ### Tokens -/

/-- A token of a text: what it stands for, and its characters. -/
structure Token where
  kind : TokenKind
  text : List Char
deriving DecidableEq, Repr

mutual

/-- The tokens of a tree, blanks and comments included. Unwritten parentheses are no tokens. -/
def Tree.tokens : Tree → List Token
  | .token kind text => if text.isEmpty then [] else [⟨kind, text⟩]
  | .node _ children => tokensOf children

/-- The tokens of a row of trees. -/
def tokensOf : List Tree → List Token
  | [] => []
  | tree :: rest => tree.tokens ++ tokensOf rest

end

@[simp] theorem Tree.tokens_node (form : Form) (children : List Tree) :
    (Tree.node form children).tokens = tokensOf children := by
  rw [Tree.tokens]

@[simp] theorem tokensOf_nil : tokensOf [] = [] := by
  rw [tokensOf]

@[simp] theorem tokensOf_cons (tree : Tree) (rest : List Tree) :
    tokensOf (tree :: rest) = tree.tokens ++ tokensOf rest := by
  rw [tokensOf]

@[simp] theorem tokensOf_append (front back : List Tree) :
    tokensOf (front ++ back) = tokensOf front ++ tokensOf back := by
  induction front with
  | nil => simp
  | cons tree rest ih => simp [ih]

theorem Tree.tokens_token {kind : TokenKind} {text : List Char} (nonempty : text ≠ []) :
    (Tree.token kind text).tokens = [⟨kind, text⟩] := by
  rw [Tree.tokens, if_neg (by simpa using nonempty)]

/-- The kinds of tokens that are written as words. -/
def TokenKind.isWord (kind : TokenKind) : Bool :=
  [.identifier, .declaredName, .propertyName, .shorthand, .keyword].contains kind

/-- The kinds of tokens that a further character of an identifier would continue. -/
def TokenKind.isName (kind : TokenKind) : Bool :=
  kind.isWord || kind == .privateName

/-- The kinds of tokens that are literal text, in which blanks and operators mean nothing. -/
def TokenKind.isLiteral (kind : TokenKind) : Bool :=
  kind == .templateText || kind == .markupText

/-- The kinds of tokens that literal text may follow: the bracket that opens it, and other literal
text. -/
def TokenKind.opensLiteral (kind : TokenKind) : Bool :=
  kind == .punctuator || kind == .markupText

theorem TokenKind.not_isName_of_opensLiteral {kind : TokenKind} (opens : kind.opensLiteral = true) :
    kind.isName ≠ true := by
  cases kind <;> first | exact Bool.false_ne_true | cases opens

/-- The brackets and separators of tags and templates, which stand alone there whatever follows. -/
def tagPunctuators : List (List Char) :=
  [['\x7b'], ['\x7d'], ['<'], ['>'], ['/'], [':'], ['.'], ['='], ['\x60'], ['$', '\x7b'],
    ['<', '/']]

/-- A token of the given kind and length stands at the front of the text. The tokens of a language
are as long as they can be; which kinds are welcome at a place is up to its grammar. -/
inductive Scans : TokenKind → List Char → Nat → Prop
  | trivia {kind : TokenKind} {text : List Char} {n : Nat}
      (found : triviaAt text = some (kind, n)) : Scans kind text n
  | word {kind : TokenKind} {text : List Char} {n : Nat} (word : kind.isWord = true)
      (length : wordLength text = n) : Scans kind text n
  | tagName {kind : TokenKind} {text : List Char} {n : Nat} (word : kind.isWord = true)
      (length : markupNameLength text = n) : Scans kind text n
  | privateName {text : List Char} {n : Nat} (named : wordLength text ≠ 0)
      (length : wordLength text + 1 = n) : Scans .privateName ('#' :: text) n
  | number {text : List Char} {n : Nat} (length : numberLength text = n) : Scans .number text n
  | string {text : List Char} {n : Nat} (found : stringLength text = some n) :
      Scans .string text n
  | attributeValue {quote : Char} {text : List Char} {n : Nat} (quoted : isQuote quote = true)
      (closed : runLength (· != quote) text < text.length)
      (length : runLength (· != quote) text + 2 = n) : Scans .string (quote :: text) n
  | templateText {text : List Char} {n : Nat} (found : templateTextLength 0 text = some n) :
      Scans .templateText text n
  | regex {text : List Char} {n : Nat} (found : regexLength text = some n) : Scans .regex text n
  | characterReference {text : List Char} {n : Nat}
      (found : characterReferenceLength text = some n) : Scans .markupText text n
  | markupText {text : List Char} {n : Nat}
      (length : runLength (fun c => !("<\x7b>\x7d&".toList.contains c)) text = n)
      (closed : n < text.length) : Scans .markupText text n
  | punctuator {text : List Char} {n : Nat} (clear : startsComment text = false)
      (length : (punctuatorAt text).length = n) : Scans .punctuator text n
  | tagPunctuator {front text : List Char} {n : Nat} (clear : startsComment text = false)
      (known : front ∈ tagPunctuators) (written : front <+: text) (length : front.length = n) :
      Scans .punctuator text n

theorem triviaAt_cases {kind : TokenKind} (found : triviaAt text = some (kind, n)) :
    (kind = .blank ∧ runLength isBlank text = n ∧ n ≠ 0) ∨
      (kind = .comment ∧ runLength isBlank text = 0 ∧ commentLength text = some n) := by
  unfold triviaAt at found
  split at found
  · next none =>
    obtain ⟨m, comment, same⟩ := Option.map_eq_some_iff.1 found
    cases same
    exact .inr ⟨rfl, none, comment⟩
  · next blanks =>
    cases found
    exact .inl ⟨rfl, rfl, blanks⟩

theorem pos_of_triviaAt {kind : TokenKind} {text : List Char} {n : Nat}
    (found : triviaAt text = some (kind, n)) : 0 < n := by
  rcases triviaAt_cases found with ⟨-, -, blanks⟩ | ⟨-, -, comment⟩
  · exact Nat.pos_of_ne_zero blanks
  · exact Nat.lt_of_lt_of_le Nat.two_pos (two_le_commentLength comment)

namespace Scans

variable {kind : TokenKind}

/-- A token takes no more than there is. -/
theorem le (scanned : Scans kind text n) : n ≤ text.length := by
  cases scanned with
  | trivia found =>
    rcases triviaAt_cases found with ⟨-, rfl, -⟩ | ⟨-, -, comment⟩
    · exact runLength_le _ _
    · exact commentLength_le comment
  | word _ length => exact length ▸ wordLength_le text
  | tagName _ length => exact length ▸ isStable_markupNameLength.le text
  | @privateName after _ _ length =>
    exact length ▸ Nat.succ_le_succ (wordLength_le after)
  | number length => exact length ▸ isStable_numberLength.le text
  | string found => exact isStableOption_stringLength.le found
  | attributeValue _ closed length =>
    rw [List.length_cons]
    omega
  | templateText found => exact (templateTextLength_lt found).le
  | regex found => exact isStableOption_regexLength.le found
  | characterReference found => exact isStableOption_characterReferenceLength.le found
  | markupText _ closed => exact closed.le
  | punctuator _ length => exact length ▸ (isPrefix_punctuatorAt text).length_le
  | tagPunctuator _ _ written length => exact length ▸ written.length_le

theorem take_ne_nil (scanned : Scans kind text n) (some : 0 < n) : text.take n ≠ [] := by
  intro none
  rcases List.take_eq_nil_iff.1 none with rfl | rfl
  · exact absurd some (Nat.lt_irrefl 0)
  · exact absurd scanned.le (Nat.not_le.2 some)

theorem commentLength_eq (scanned : Scans .comment text n) : commentLength text = some n := by
  cases scanned with
  | trivia found =>
    rcases triviaAt_cases found with ⟨other, -⟩ | ⟨-, -, comment⟩
    · cases other
    · exact comment
  | word word => cases word
  | tagName word => cases word

/-- A token is not changed by a closer that is added behind the text, except for a line comment
that reaches to its end. -/
theorem append (scanned : Scans kind text n) (some : 0 < n)
    (apart : kind.isName = true → ¬ IsCutEscape (text.drop n))
    (closed : kind = .comment → startsLineComment text = true → n < text.length)
    (closer : isCloser d = true) (back : List Char) : Scans kind (text ++ d :: back) n := by
  have stops : isBlank d = false := rejects_closer isBlank rfl rfl rfl closer
  cases scanned with
  | trivia found =>
    apply Scans.trivia
    rcases triviaAt_cases found with ⟨rfl, rfl, blanks⟩ | ⟨rfl, none, comment⟩
    · unfold triviaAt
      rw [runLength_append_cons _ _ _ stops]
      split
      · next none => exact absurd none blanks
      · rfl
    · unfold triviaAt
      rw [runLength_append_cons _ _ _ stops, none,
        commentLength_append comment (closed rfl) closer]
      rfl
  | word word length =>
    subst length
    have named : kind.isName = true := by simp [TokenKind.isName, word]
    exact .word word (wordLength_append (Nat.pos_iff_ne_zero.1 some) (apart named) closer)
  | tagName word length =>
    exact .tagName word (by rw [isStable_markupNameLength.closed text back closer, length])
  | @privateName after _ named length =>
    subst length
    rw [List.cons_append]
    have same : wordLength (after ++ d :: back) = wordLength after :=
      wordLength_append named (apart rfl) closer
    exact .privateName (by rwa [same]) (by rw [same])
  | number length => exact .number (by rw [isStable_numberLength.closed text back closer, length])
  | string found => exact .string (isStableOption_stringLength.closed back found closer)
  | attributeValue quoted inside length =>
    have same := runLength_append inside (d :: back)
    rw [List.cons_append]
    refine .attributeValue quoted ?_ ?_
    · rw [same, List.length_append]
      omega
    · rw [same, length]
  | templateText found => exact .templateText (templateTextLength_append found closer)
  | regex found => exact .regex (isStableOption_regexLength.closed back found closer)
  | characterReference found =>
    exact .characterReference (isStableOption_characterReferenceLength.closed back found closer)
  | markupText length inside =>
    subst length
    refine .markupText (runLength_append inside _) ?_
    rw [List.length_append]
    omega
  | punctuator clear length =>
    have nonempty : text ≠ [] := by
      rintro rfl
      subst length
      exact absurd some (Nat.lt_irrefl 0)
    exact .punctuator (by rw [startsComment_append_cons text back closer, clear])
      (by rw [punctuatorAt_append nonempty closer, length])
  | tagPunctuator clear known written length =>
    exact .tagPunctuator (by rw [startsComment_append_cons text back closer, clear]) known
      (written.trans (List.prefix_append _ _)) length

/-- What starts with a backslash is a word that starts with an escape, or literal text. -/
theorem of_backslash (scanned : Scans kind text n) (some : 0 < n)
    (backslash : text.head? = Option.some '\\') :
    kind.isLiteral = true ∨ unicodeEscapeLength text ≠ 0 := by
  obtain ⟨after, rfl⟩ := List.head?_eq_some_iff.1 backslash
  have start : isIdentifierStart '\\' = false := by decide
  cases scanned with
  | trivia found =>
    have blank : isBlank '\\' = false := by decide
    rcases triviaAt_cases found with ⟨-, rfl, blanks⟩ | ⟨-, -, comment⟩
    · simp [runLength, blank] at blanks
    · simp [commentLength] at comment
  | word _ length =>
    refine .inr fun none => ?_
    simp only [wordLength, start, none] at length
    exact absurd some (by simp [← length])
  | tagName _ length =>
    simp only [markupNameLength, start] at length
    exact absurd some (by simp [← length])
  | number length =>
    have digit : isDigit '\\' = false := by decide
    have none : numberLength ('\\' :: after) = 0 := by simp [numberLength, digit]
    rw [none] at length
    exact absurd some (by simp [← length])
  | string found => simp [stringLength, isQuote] at found
  | attributeValue quoted => simp [isQuote] at quoted
  | templateText => exact .inl rfl
  | regex found => simp [regexLength] at found
  | characterReference => exact .inl rfl
  | markupText => exact .inl rfl
  | punctuator _ length =>
    have none : punctuatorAt ('\\' :: after) = [] := rfl
    rw [none] at length
    exact absurd some (by simp [← length])
  | @tagPunctuator front _ _ _ known written length =>
    have other : ∀ front ∈ tagPunctuators, front ≠ [] ∧ front.head? ≠ Option.some '\\' := by
      simp [tagPunctuators]
    obtain ⟨nonempty, first⟩ := other front known
    obtain ⟨c, rest, rfl⟩ := List.exists_cons_of_ne_nil nonempty
    exact absurd (congrArg Option.some (List.cons_prefix_cons.1 written).1) first

end Scans

/-- The tokens at the front of a text, and the text that follows them. Each token is as long as its
kind can be at its place, with all that follows in view. Literal text stands right behind the
bracket that opens it, or behind other literal text. -/
inductive Lexes (source : List Char) : List Token → List Char → Prop
  | start : Lexes source [] source
  | next {tokens : List Token} {kind : TokenKind} {text : List Char} {n : Nat}
      (before : Lexes source tokens text) (scanned : Scans kind text n) (some : 0 < n)
      (placed : kind.isLiteral = true → ∃ last ∈ tokens.getLast?, last.kind.opensLiteral = true) :
      Lexes source (tokens ++ [⟨kind, text.take n⟩]) (text.drop n)

/-- Whether a token is a comment up to the end of its line. -/
def Token.isLineComment (token : Token) : Bool :=
  token.kind == .comment && startsLineComment token.text

/-- Whether a row of tokens ends in a comment that reaches up to the end of its line. -/
def endsInLineComment (tokens : List Token) : Bool :=
  tokens.getLast?.any Token.isLineComment

namespace Lexes

variable {source : List Char} {tokens : List Token}

/-- The token that was read last, and the text where it stands. -/
theorem last {token : Token} (lexes : Lexes source (tokens ++ [token]) text) :
    ∃ front n, Lexes source tokens front ∧ Scans token.kind front n ∧ 0 < n ∧
      token.text = front.take n ∧ text = front.drop n := by
  generalize whole : tokens ++ [token] = row at lexes
  cases lexes with
  | start => simp at whole
  | next before scanned some placed =>
    obtain ⟨rfl, same⟩ := List.append_inj' whole rfl
    cases same
    exact ⟨_, _, before, scanned, some, rfl, rfl⟩

/-- A closer behind a text leaves the tokens at its front as they are, unless a line comment reaches
to the end of the text. -/
theorem append (lexes : Lexes source tokens text)
    (apart : (∃ last ∈ tokens.getLast?, last.kind.isName = true) → ¬ IsCutEscape text)
    (closed : endsInLineComment tokens = true → text ≠ []) (closer : isCloser d = true)
    (back : List Char) : Lexes (source ++ d :: back) tokens (text ++ d :: back) := by
  induction lexes with
  | start => exact .start
  | @next tokens kind text n before scanned some placed ih =>
    have nonempty : text ≠ [] := by
      rintro rfl
      exact absurd scanned.le (Nat.not_le.2 some)
    -- A token that starts with a backslash shows that the escape there is whole.
    have front : (∃ last ∈ tokens.getLast?, last.kind.isName = true) → ¬ IsCutEscape text := by
      rintro ⟨last, member, named⟩ cut
      rcases scanned.of_backslash some cut.backslash with literal | whole
      · obtain ⟨other, same, opens⟩ := placed literal
        obtain rfl := Option.some.inj (member.symm.trans same)
        exact TokenKind.not_isName_of_opensLiteral opens named
      · exact whole cut.unfinished
    have ends : kind = .comment → startsLineComment text = true →
        endsInLineComment (tokens ++ [⟨kind, text.take n⟩]) = true := by
      rintro rfl slashes
      have marks : startsLineComment (text.take n) = startsLineComment text :=
        startsLineComment_take (two_le_commentLength scanned.commentLength_eq)
      simp [endsInLineComment, Token.isLineComment, marks, slashes]
    have stays := scanned.append some (fun named => apart ⟨⟨kind, text.take n⟩, by simp, named⟩)
      (fun comment slashes => by simpa using closed (ends comment slashes)) closer back
    have read := Lexes.next (ih front fun _ => nonempty) stays some placed
    rwa [List.take_append_of_le_length scanned.le, List.drop_append_of_le_length scanned.le] at read

/-- The line comment that a text ends in, in front of what is added to the text. -/
theorem lineComment (lexes : Lexes source tokens [])
    (ends : endsInLineComment tokens = true) :
    ∃ before comment, tokens = before ++ [⟨.comment, comment⟩] ∧
      startsLineComment comment = true ∧ commentLength comment = some comment.length ∧
      Lexes source before comment := by
  simp only [endsInLineComment, Option.any_eq_true] at ends
  obtain ⟨⟨kind, comment⟩, last, line⟩ := ends
  obtain ⟨before, rfl⟩ := List.getLast?_eq_some_iff.1 last
  simp only [Token.isLineComment, Bool.and_eq_true, beq_iff_eq] at line
  obtain ⟨rfl, slashes⟩ := line
  obtain ⟨text, n, read, scanned, -, same, reaches⟩ := lexes.last
  have all : n = text.length := le_antisymm scanned.le (List.drop_eq_nil_iff.1 reaches.symm)
  rw [all, List.take_length] at same
  dsimp only at same
  subst same
  refine ⟨before, comment, rfl, slashes, ?_, read⟩
  rw [← all]
  exact scanned.commentLength_eq

/-- A closer right behind a text is a token of its own if the text does not end in a line comment,
and only then. -/
theorem closer_iff (lexes : Lexes source tokens []) (closer : isCloser d = true)
    (back : List Char) :
    Lexes (source ++ d :: back) (tokens ++ [⟨.punctuator, [d]⟩]) back ↔
      endsInLineComment tokens = false := by
  constructor
  · intro apart
    by_contra ends
    obtain ⟨before, comment, rfl, slashes, full, -⟩ := lexes.lineComment (by simpa using ends)
    obtain ⟨text, n, read, -, -, first, rest⟩ := apart.last
    have text_eq : text = d :: back := by
      rw [← List.take_append_drop n text, ← first, ← rest]
      rfl
    subst text_eq
    obtain ⟨whole, m, -, scanned, -, front, behind⟩ := read.last
    have whole_eq : whole = comment ++ d :: back := by
      rw [← List.take_append_drop m whole, ← front, ← behind]
    subst whole_eq
    dsimp only at front
    have length := congrArg List.length front
    rw [List.length_take, List.length_append, List.length_cons] at length
    have goesOn := commentLength_append_of_full full slashes (d :: back)
    rw [scanned.commentLength_eq,
      runLength_cons_of_pos (not_isLineEnd_of_isCloser closer)] at goesOn
    have := Option.some.inj goesOn
    omega
  · intro ends
    have before := lexes.append (fun _ cut => by cases cut.backslash)
      (fun line => by rw [ends] at line; cases line) closer back
    have clear : startsComment ([] ++ d :: back) = false :=
      (startsComment_append_cons [] back closer).trans rfl
    exact before.next (.punctuator clear (by rw [List.nil_append, punctuatorAt_closer closer]; rfl))
      Nat.one_pos nofun

/-- A closer right behind a line comment, and the rest of its line, belong to the comment. -/
theorem swallowed (lexes : Lexes source tokens []) (ends : endsInLineComment tokens = true)
    (closer : isCloser d = true) (back : List Char) :
    ∃ before comment, tokens = before ++ [⟨.comment, comment⟩] ∧
      Lexes (source ++ d :: back)
        (before ++ [⟨.comment, comment ++ d :: back.takeWhile (fun c => !isLineEnd c)⟩])
        (back.dropWhile fun c => !isLineEnd c) := by
  obtain ⟨before, comment, rfl, slashes, full, read⟩ := lexes.lineComment ends
  refine ⟨before, comment, rfl, ?_⟩
  obtain ⟨rest, rfl⟩ := List.isPrefixOf_iff_prefix.1 slashes
  have front := read.append (fun _ cut => by cases cut.backslash) (fun _ => List.cons_ne_nil _ _)
    closer back
  have goesOn := commentLength_append_of_full full slashes (d :: back)
  rw [runLength_cons_of_pos (not_isLineEnd_of_isCloser closer)] at goesOn
  have scanned : Scans .comment (['/', '/'] ++ rest ++ d :: back) _ :=
    .trivia (triviaAt_of_comment goesOn)
  have next := front.next scanned (Nat.add_pos_right _ (Nat.succ_pos _)) nofun
  rwa [List.take_length_add_append, List.drop_length_add_append, List.take_succ_cons,
    List.drop_succ_cons, take_runLength, drop_runLength] at next

end Lexes

end ComponentCompiler.Script
