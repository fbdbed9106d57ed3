import ComponentCompiler.Proofs.Script.TokenEnds
import ComponentCompiler.Script.Reference

/-!
# Texts without their containers

Replacing a reference by its member leaves out the container and the dot in front of it. The two
texts fall into the same blanks, words and other tokens up to that place and from the member on, so
whatever looks at the front of one of them, and past single tokens of it, sees the same in the other
or sees the container in place of its member. This file relates the two texts token by token and
says what can be seen.

A member may stand in the place of an operand if it is no word with a meaning of its own there, and
if what follows it can follow an operand: no arrow, and on the same line no word but an operator.
In the name of a tag any member will do. Where the texts hold literal text they are equal, and
nothing is asked of what is read as blanks there.

## Main definitions

* `Place` — what may stand at the front of a text
* `isFragile` — the names that cannot stand for themselves
* `FollowsOperand` — what may stand behind an operand
* `Shortened` — a text and the one without some of its containers

## Main results

* `Shortened.startsWith_eq`, `Shortened.punctuatorAt_eq` — the texts start alike where no word does
* `Shortened.fronts` — a word at the front is the same, or a container in front of its member
* `Shortened.splitTrivia`, `Shortened.unsettle` — blanks and comments are the same
* `Shortened.append_word`, `Shortened.append_punctuator` — tokens in front of the two texts
-/

namespace ComponentCompiler.Script

variable {old new token text : List Char} {n : Nat}

/-! ### Blanks and comments at the front -/

/-- Whether a word can start with a character. -/
def opensWord (c : Char) : Bool :=
  isIdentifierStart c || c == '\\'

/-- Whether a character can start a token that is no word. -/
def opensSolid (c : Char) : Bool :=
  !opensWord c && !isBlank c

theorem not_isBlank_of_opensWord {c : Char} (opens : opensWord c = true) : isBlank c = false := by
  simp only [opensWord, Bool.or_eq_true, beq_iff_eq] at opens
  rcases opens with start | rfl
  · simp only [isIdentifierStart, Bool.and_eq_true, Bool.not_eq_true'] at start
    exact start.2
  · rfl

theorem not_isLineEnd_of_not_isBlank {c : Char} (plain : isBlank c = false) :
    isLineEnd c = false := by
  by_contra ends
  simp only [isLineEnd, Bool.not_eq_false, Bool.or_eq_true, beq_iff_eq] at ends
  rcases ends with ((rfl | rfl) | separator) | separator
  · cases plain
  · cases plain
  · simp [isBlank, separator] at plain
  · simp [isBlank, separator] at plain

theorem opensWord_of_wordLength (some : wordLength text ≠ 0) :
    ∃ c rest, text = c :: rest ∧ opensWord c = true := by
  cases text with
  | nil => exact absurd rfl some
  | cons c rest =>
    refine ⟨c, rest, rfl, ?_⟩
    rw [Ne, wordLength_eq_zero_iff, not_and_or] at some
    rw [opensWord, Bool.or_eq_true, beq_iff_eq]
    refine some.imp (by simp) fun escape => ?_
    by_contra other
    exact escape (unicodeEscapeLength_cons other rest)

theorem wordLength_of_not_opensWord {c : Char} (other : opensWord c = false) (rest : List Char) :
    wordLength (c :: rest) = 0 := by
  by_contra some
  obtain ⟨d, after, same, opens⟩ := opensWord_of_wordLength some
  rw [← (List.cons.inj same).1, other] at opens
  cases opens

theorem triviaAt_eq_none {c : Char} {rest : List Char} (plain : isBlank c = false)
    (clear : startsComment (c :: rest) = false) : triviaAt (c :: rest) = none := by
  have run : runLength isBlank (c :: rest) = 0 := if_neg (by simp [plain])
  have comment : commentLength (c :: rest) = none := by
    by_contra some
    obtain ⟨n, found⟩ := Option.ne_none_iff_exists'.1 some
    unfold commentLength at found
    split at found
    · next same => rw [same] at clear; cases clear
    · next same => rw [same] at clear; cases clear
    · cases found
  simp [triviaAt, run, comment]

theorem triviaAt_of_opensWord {c : Char} {rest : List Char} (opens : opensWord c = true) :
    triviaAt (c :: rest) = none := by
  refine triviaAt_eq_none (not_isBlank_of_opensWord opens) (startsComment_cons ?_ rest)
  rintro rfl
  cases opens

theorem triviaAt_of_wordLength (some : wordLength text ≠ 0) : triviaAt text = none := by
  obtain ⟨c, rest, rfl, opens⟩ := opensWord_of_wordLength some
  exact triviaAt_of_opensWord opens

theorem splitTrivia_of_none (clear : triviaAt text = none) (limit : Nat) :
    splitTrivia limit text = ([], text) := by
  cases limit with
  | zero => rfl
  | succ limit => simp [splitTrivia, clear]

/-- Blanks and comments are split off alike under every sufficient limit. -/
theorem splitTrivia_of_le {limit other : Nat} (enough : text.length ≤ limit)
    (more : text.length ≤ other) : splitTrivia limit text = splitTrivia other text := by
  induction limit generalizing text other with
  | zero =>
    obtain rfl : text = [] := List.length_eq_zero_iff.1 (Nat.le_zero.1 enough)
    exact (splitTrivia_of_none rfl other).symm
  | succ limit ih =>
    cases other with
    | zero =>
      obtain rfl : text = [] := List.length_eq_zero_iff.1 (Nat.le_zero.1 more)
      exact splitTrivia_of_none rfl _
    | succ other =>
      unfold splitTrivia
      split
      · rfl
      · next kind n found =>
        have positive := pos_of_triviaAt found
        have shorter : (text.drop n).length ≤ limit ∧ (text.drop n).length ≤ other := by
          rw [List.length_drop]
          omega
        rw [ih shorter.1 shorter.2]


theorem splitTrivia_of_found {kind : TokenKind} (nonempty : token ≠ [])
    (found : triviaAt (token ++ text) = some (kind, token.length)) :
    splitTrivia (token ++ text).length (token ++ text) =
      (.token kind token :: (splitTrivia text.length text).1, skipTrivia text) := by
  obtain ⟨limit, length⟩ := Nat.exists_eq_add_one_of_ne_zero
    (fun none => nonempty (List.length_eq_zero_iff.1 none) : token.length ≠ 0)
  rw [List.length_append, length, Nat.add_right_comm, splitTrivia, found]
  simp only [List.take_left, List.drop_left]
  rw [splitTrivia_of_le (Nat.le_add_left _ _) (Nat.le_refl _)]
  rfl

theorem skipTrivia_of_none (clear : triviaAt text = none) : skipTrivia text = text := by
  rw [skipTrivia, splitTrivia_of_none clear]

/-! ### The relation -/

/-- What may stand at the front of a text: a name that is no operand, anything that an expression or
statement can go on with, the name of a tag, or literal text. -/
inductive Place where
  | name | operand | tag | literal
deriving DecidableEq

/-- Whether a name cannot stand for itself everywhere: reserved words, and words that mean something
else at the front of an expression or statement. -/
def isFragile (name : List Char) : Bool :=
  isReserved name || ["await", "yield", "let", "from"].any fun word => name == word.toList

/-- Whether a name is the name of a container. -/
def isContainerName (name : List Char) : Bool :=
  (Container.ofName? name).isSome

/-- Whether a line ends in the blanks and comments at the front of a text. -/
def startsInNewLine (text : List Char) : Bool :=
  (splitTrivia text.length text).1.any fun tree => tree.text.any isLineEnd

/-- What stands behind an operand: no arrow, and on the same line no word but an operator. -/
structure FollowsOperand (text : List Char) : Prop where
  arrow : startsWith ['=', '>'] (skipTrivia text) = false
  word : startsInNewLine text = false → wordAfter (skipTrivia text) = [] ∨
    wordAfter (skipTrivia text) = "in".toList ∨ wordAfter (skipTrivia text) = "instanceof".toList ∨
    wordAfter (skipTrivia text) = "of".toList ∧
      startsWith ['=', '>'] (skipTrivia ((skipTrivia text).drop 2)) = false

/-- The new text is the old one without the containers in front of some members. Both fall into the
same tokens otherwise: blanks and comments, words, and whatever starts with another character. Where
a container is left out, its member is a word that may stand in its place. -/
inductive Shortened : Place → List Char → List Char → Prop
  | nil {place : Place} : Shortened place [] []
  | trivia {place : Place} {kind : TokenKind} {token old new : List Char} (nonempty : token ≠ [])
      (before : triviaAt (token ++ old) = some (kind, token.length))
      (after : triviaAt (token ++ new) = some (kind, token.length))
      (rest : Shortened place old new) : Shortened place (token ++ old) (token ++ new)
  | word {place : Place} {token old new : List Char} (nonempty : token ≠ [])
      (before : wordLength (token ++ old) = token.length)
      (after : wordLength (token ++ new) = token.length)
      (rest : Shortened .operand old new) : Shortened place (token ++ old) (token ++ new)
  | solid {place next : Place} {c : Char} {token old new : List Char} (opens : opensSolid c = true)
      (clear : startsComment (c :: (token ++ old)) = false)
      -- What follows a parenthesis or a star may be looked at before it is passed.
      (alone : c = ')' ∨ c = '*' → token = [] ∧ next = .operand)
      (rest : Shortened next old new) : Shortened place (c :: (token ++ old)) (c :: (token ++ new))
  | literal {token old new : List Char} (rest : Shortened .literal old new) :
      Shortened .literal (token ++ old) (token ++ new)
  | bare {place : Place} {container name old new : List Char} (here : place ≠ .name)
      (known : isContainerName container = true) (nonempty : name ≠ [])
      (after : wordLength (name ++ new) = name.length)
      (safe : place ≠ .tag → isFragile name = false ∧ FollowsOperand new) :
      Shortened place (container ++ '.' :: old) (name ++ new)

theorem isContainerName_iff {name : List Char} :
    isContainerName name = true ↔ name = "state".toList ∨ name = "props".toList := by
  unfold isContainerName Container.ofName?
  split
  · next same => simp [same]
  · next other =>
    split
    · next same => simp [same]
    · next neither => simpa using ⟨other, neither⟩

theorem cons_of_isContainerName {name : List Char} (known : isContainerName name = true) :
    ∃ c rest, name = c :: rest ∧ opensWord c = true := by
  rcases isContainerName_iff.1 known with rfl | rfl
  · exact ⟨'s', _, rfl, rfl⟩
  · exact ⟨'p', _, rfl, rfl⟩

/-- The name of a container is a word of its own in front of a dot. -/
theorem wordLength_container {name : List Char} (known : isContainerName name = true)
    (rest : List Char) : wordLength (name ++ '.' :: rest) = name.length := by
  rcases isContainerName_iff.1 known with rfl | rfl
  · have whole : wordLength ("state".toList ++ []) = "state".toList.length := by decide
    exact wordLength_replace (by decide) whole rfl
  · have whole : wordLength ("props".toList ++ []) = "props".toList.length := by decide
    exact wordLength_replace (by decide) whole rfl

namespace Shortened

variable {place : Place}

theorem of_name (short : Shortened .name old new) (place : Place) : Shortened place old new := by
  generalize same : Place.name = other at short
  induction short with
  | nil => exact .nil
  | trivia nonempty before after _ ih => exact .trivia nonempty before after (ih same)
  | word nonempty before after rest => exact .word nonempty before after rest
  | solid opens clear alone rest => exact .solid opens clear alone rest
  | literal => cases same
  | bare here => exact absurd same.symm here

theorem to_literal (short : Shortened .operand old new) : Shortened .literal old new := by
  generalize same : Place.operand = other at short
  induction short with
  | nil => exact .nil
  | trivia nonempty before after _ ih => exact .trivia nonempty before after (ih same)
  | word nonempty before after rest => exact .word nonempty before after rest
  | solid opens clear alone rest => exact .solid opens clear alone rest
  | literal => cases same
  | bare here known nonempty after safe =>
    exact .bare (by decide) known nonempty after fun _ => safe (same ▸ by decide)

/-! ### What the two texts start with -/

theorem isPrefixOf_append (common : ∀ front : List Char, (∀ c ∈ front, opensWord c = false) →
      (front.isPrefixOf old = front.isPrefixOf new)) (token : List Char) :
    ∀ front : List Char, (∀ c ∈ front, opensWord c = false) →
      (front.isPrefixOf (token ++ old) = front.isPrefixOf (token ++ new)) := by
  induction token with
  | nil => exact common
  | cons c token ih =>
    intro front plain
    cases front with
    | nil => rfl
    | cons first front =>
      rw [List.cons_append, List.cons_append, List.isPrefixOf, List.isPrefixOf,
        ih front fun d member => plain d (List.mem_cons_of_mem _ member)]

/-- Where no word starts, the texts start alike. -/
theorem startsWith_eq (short : Shortened place old new) {front : List Char}
    (plain : front.all (fun c => !opensWord c) = true) :
    startsWith front old = startsWith front new := by
  suffices each : ∀ front : List Char, (∀ c ∈ front, opensWord c = false) →
      (front.isPrefixOf old = front.isPrefixOf new) from each front (by simpa using plain)
  clear plain front
  induction short with
  | nil => exact fun _ _ => rfl
  | trivia _ _ _ _ ih => exact isPrefixOf_append ih _
  | word _ _ _ _ ih => exact isPrefixOf_append ih _
  | @solid _ _ c token _ _ _ _ _ _ ih => exact isPrefixOf_append ih (c :: token)
  | literal _ ih => exact isPrefixOf_append ih _
  | @bare _ container name old new _ known nonempty after _ =>
    intro front plain
    cases front with
    | nil => rfl
    | cons first front =>
      have other := plain first List.mem_cons_self
      have differs {c : Char} (rest : List Char) (opens : opensWord c = true) :
          (first :: front).isPrefixOf (c :: rest) = false := by
        rw [List.isPrefixOf, Bool.and_eq_false_iff]
        refine .inl ?_
        rw [beq_eq_false_iff_ne]
        rintro rfl
        rw [opens] at other
        cases other
      obtain ⟨d, rest, same, opens⟩ := opensWord_of_wordLength
        (by rw [after]; exact fun none => nonempty (List.length_eq_zero_iff.1 none) :
          wordLength (name ++ new) ≠ 0)
      obtain ⟨e, others, written, starts⟩ := cons_of_isContainerName known
      rw [same, written, List.cons_append, differs _ opens, differs _ starts]

theorem nil_iff (short : Shortened place old new) : old = [] ↔ new = [] := by
  induction short with
  | nil => exact Iff.rfl
  | trivia nonempty => simp [nonempty]
  | word nonempty => simp [nonempty]
  | solid => simp
  | literal _ ih => simp [ih]
  | bare _ _ nonempty => simp [nonempty]

/-- The front of the two texts: no word, the same word, or a container in front of its member. -/
inductive Fronts (place : Place) : List Char → List Char → Prop
  | none {old new : List Char} (before : wordLength old = 0) (after : wordLength new = 0)
      (same : new.head? = old.head?) (plain : old.head? ≠ some '\\') : Fronts place old new
  | word {token old new : List Char} (nonempty : token ≠ [])
      (before : wordLength (token ++ old) = token.length)
      (after : wordLength (token ++ new) = token.length)
      (rest : Shortened .operand old new) : Fronts place (token ++ old) (token ++ new)
  | bare {container name old new : List Char} (here : place ≠ .name)
      (known : isContainerName container = true) (nonempty : name ≠ [])
      (after : wordLength (name ++ new) = name.length)
      (safe : place ≠ .tag → isFragile name = false ∧ FollowsOperand new) :
      Fronts place (container ++ '.' :: old) (name ++ new)

theorem fronts (short : Shortened place old new) (plain : place ≠ .literal) :
    Fronts place old new := by
  cases short with
  | nil => exact .none rfl rfl rfl nofun
  | @trivia _ kind token old new nonempty before after rest =>
    obtain ⟨c, token, rfl⟩ := List.exists_cons_of_ne_nil nonempty
    have other : opensWord c = false := by
      by_contra opens
      rw [Bool.not_eq_false] at opens
      rw [List.cons_append, triviaAt_of_opensWord opens] at before
      cases before
    refine .none (wordLength_of_not_opensWord other _) (wordLength_of_not_opensWord other _) rfl ?_
    rintro ⟨⟩
    cases other
  | word nonempty before after rest => exact .word nonempty before after rest
  | @solid _ _ c token old new opens clear alone rest =>
    have other : opensWord c = false := by
      simp only [opensSolid, Bool.and_eq_true, Bool.not_eq_true'] at opens
      exact opens.1
    refine .none (wordLength_of_not_opensWord other _) (wordLength_of_not_opensWord other _) rfl ?_
    rintro ⟨⟩
    cases other
  | literal => exact absurd rfl plain
  | bare here known nonempty after safe => exact .bare here known nonempty after safe

theorem startsComment_eq (short : Shortened place old new) :
    startsComment new = startsComment old := by
  have single : startsWith ['/', '/'] old = startsWith ['/', '/'] new :=
    short.startsWith_eq (by decide)
  have star : startsWith ['/', '*'] old = startsWith ['/', '*'] new :=
    short.startsWith_eq (by decide)
  rw [startsComment, startsComment, startsLineComment, startsLineComment, single, star]

theorem triviaAt_none (short : Shortened place old new) (plain : place ≠ .literal)
    (clear : triviaAt old = none) : triviaAt new = none := by
  have nonzero {token : List Char} (nonempty : token ≠ []) : token.length ≠ 0 :=
    fun none => nonempty (List.length_eq_zero_iff.1 none)
  have comments := short.startsComment_eq
  cases short with
  | nil => rfl
  | trivia _ before =>
    rw [before] at clear
    cases clear
  | word nonempty _ after => exact triviaAt_of_wordLength (after ▸ nonzero nonempty)
  | solid opens start =>
    simp only [opensSolid, Bool.and_eq_true, Bool.not_eq_true'] at opens
    exact triviaAt_eq_none opens.2 (comments.trans start)
  | literal => exact absurd rfl plain
  | bare _ _ nonempty after => exact triviaAt_of_wordLength (after ▸ nonzero nonempty)

/-- Blanks and comments at the front are the same, and so is what follows them. -/
theorem splitTrivia (short : Shortened place old new) (plain : place ≠ .literal) :
    (Script.splitTrivia new.length new).1 = (Script.splitTrivia old.length old).1 ∧
      Shortened place (skipTrivia old) (skipTrivia new) ∧ triviaAt (skipTrivia old) = none := by
  have clear {place : Place} {old new : List Char} (short : Shortened place old new)
      (plain : place ≠ .literal) (before : triviaAt old = none) :
      (Script.splitTrivia new.length new).1 = (Script.splitTrivia old.length old).1 ∧
        Shortened place (skipTrivia old) (skipTrivia new) ∧ triviaAt (skipTrivia old) = none := by
    have after := short.triviaAt_none plain before
    rw [skipTrivia_of_none before, skipTrivia_of_none after, splitTrivia_of_none before,
      splitTrivia_of_none after]
    exact ⟨rfl, short, before⟩
  induction short with
  | nil => exact clear .nil plain rfl
  | trivia nonempty before after rest ih =>
    simp only [skipTrivia, splitTrivia_of_found nonempty before,
      splitTrivia_of_found nonempty after]
    obtain ⟨same, further⟩ := ih plain
    exact ⟨by rw [same], further⟩
  | @word _ token old new nonempty before after rest =>
    refine clear (.word nonempty before after rest) plain (triviaAt_of_wordLength ?_)
    rw [before]
    exact fun none => nonempty (List.length_eq_zero_iff.1 none)
  | solid opens start alone rest =>
    have blank := opens
    simp only [opensSolid, Bool.and_eq_true, Bool.not_eq_true'] at blank
    exact clear (.solid opens start alone rest) plain (triviaAt_eq_none blank.2 start)
  | literal => exact absurd rfl plain
  | bare here known nonempty after safe =>
    refine clear (.bare here known nonempty after safe) plain ?_
    obtain ⟨c, rest, rfl, opens⟩ := cons_of_isContainerName known
    exact triviaAt_of_opensWord opens

/-- What cannot tell the characters of words apart sees no difference at the front. -/
theorem head?_any_eq (short : Shortened place old new) (plain : place ≠ .literal)
    {test : Char → Bool} (answer : Bool) (words : ∀ c, opensWord c = true → test c = answer) :
    new.head?.any test = old.head?.any test := by
  cases short.fronts plain with
  | none _ _ same => rw [same]
  | @word token old new nonempty =>
    obtain ⟨c, token, rfl⟩ := List.exists_cons_of_ne_nil nonempty
    rfl
  | @bare container name old new _ known nonempty after =>
    obtain ⟨c, rest, rfl, opens⟩ := cons_of_isContainerName known
    obtain ⟨d, others, same, starts⟩ := opensWord_of_wordLength
      (after ▸ fun none => nonempty (List.length_eq_zero_iff.1 none))
    simp [same, words c opens, words d starts]

/-- A character that opens no word stands at the front of both texts or of neither. -/
theorem head?_eq_iff (short : Shortened place old new) {c : Char} (other : opensWord c = false) :
    new.head? = some c ↔ old.head? = some c := by
  have starts (text : List Char) : startsWith [c] text = true ↔ text.head? = some c := by
    cases text with
    | nil => simp [startsWith, List.isPrefixOf]
    | cons first rest =>
      simp only [startsWith, List.isPrefixOf, List.head?_cons, Bool.and_true, beq_iff_eq,
        Option.some.injEq]
      exact eq_comm
  rw [← starts, ← starts, short.startsWith_eq (by simpa using other)]

/-- A text is shortened behind the blanks and comments at its front. -/
theorem unsettle {text bare : List Char} (short : Shortened place (skipTrivia text) bare)
    (plain : place ≠ .literal) :
    Shortened place text (textOf (Script.splitTrivia text.length text).1 ++ bare) := by
  induction length : text.length using Nat.strong_induction_on generalizing text with
  | _ m ih =>
    subst length
    cases found : triviaAt text with
    | none =>
      rw [skipTrivia_of_none found] at short
      rw [splitTrivia_of_none found]
      exact short
    | some trivia =>
      obtain ⟨kind, n⟩ := trivia
      have positive := pos_of_triviaAt found
      have inside : n ≤ text.length := (Scans.trivia found).le
      obtain ⟨token, rest, rfl, rfl⟩ : ∃ token rest, text = token ++ rest ∧ token.length = n :=
        ⟨text.take n, text.drop n, (List.take_append_drop n text).symm, by simp [inside]⟩
      have nonempty : token ≠ [] := List.ne_nil_of_length_pos positive
      rw [splitTrivia_of_found nonempty found]
      rw [skipTrivia, splitTrivia_of_found nonempty found] at short
      have rest := ih rest.length (by rw [List.length_append]; omega) short rfl
      rw [textOf_cons, Tree.text_token, List.append_assoc]
      refine .trivia nonempty found (triviaAt_replace nonempty found ?_ ?_) rest
      · exact rest.head?_any_eq plain false fun c => not_isBlank_of_opensWord
      · refine rest.head?_any_eq plain true fun c opens => ?_
        rw [not_isLineEnd_of_not_isBlank (not_isBlank_of_opensWord opens)]
        rfl

/-- The blanks and comments at the front of the shortened text. -/
theorem splitTrivia_unsettle {text bare : List Char} (short : Shortened place (skipTrivia text) bare)
    (plain : place ≠ .literal) :
    Script.splitTrivia (textOf (Script.splitTrivia text.length text).1 ++ bare).length
        (textOf (Script.splitTrivia text.length text).1 ++ bare) =
      ((Script.splitTrivia text.length text).1, bare) := by
  obtain ⟨same, -⟩ := (short.unsettle plain).splitTrivia plain
  have whole := textOf_splitTrivia (textOf (Script.splitTrivia text.length text).1 ++ bare).length
    (textOf (Script.splitTrivia text.length text).1 ++ bare)
  rw [same] at whole
  exact Prod.ext same (List.append_cancel_left whole)

/-! ### Tokens in front of the two texts -/

theorem wordTail_eq_zero (short : Shortened .operand old new) (ends : wordTail 0 old = 0) :
    wordTail 0 new = 0 := by
  have some {text : List Char} (none : wordTail 0 text = 0) : wordLength text = 0 := by
    by_contra some
    exact some ((wordTail_of_wordLength some).trans none)
  cases short.fronts (by decide) with
  | none before after same plain =>
    rw [wordTail_eq_zero_iff] at ends ⊢
    rw [same]
    exact ⟨ends.1, unicodeEscapeLength_eq_zero (same ▸ plain)⟩
  | word nonempty before =>
    rw [some ends] at before
    exact absurd (List.length_eq_zero_iff.1 before.symm) nonempty
  | bare _ known =>
    have none := some ends
    rw [wordLength_container known] at none
    obtain ⟨c, rest, rfl, -⟩ := cons_of_isContainerName known
    cases none

theorem wordLength_append (rest : Shortened .operand old new) (nonempty : token ≠ [])
    (before : wordLength (token ++ old) = token.length) :
    wordLength (token ++ new) = token.length :=
  wordLength_replace nonempty before (rest.wordTail_eq_zero (wordTail_behind nonempty before))

theorem append_word (rest : Shortened .operand old new) (nonempty : token ≠ [])
    (before : wordLength (token ++ old) = token.length) (place : Place) :
    Shortened place (token ++ old) (token ++ new) :=
  .word nonempty before (rest.wordLength_append nonempty before) rest

end Shortened

/-! ### Operators -/

theorem not_opensWord_of_isDigit {c : Char} (digit : isDigit c = true) : opensWord c = false := by
  have other : c ≠ '\\' := by
    rintro rfl
    cases digit
  simp [opensWord, isIdentifierStart, digit, other]

/-- Whether a question mark stands before a decimal fraction. -/
theorem startsWith_fraction_iff (c : Char) (rest : List Char) :
    (c = '?' ∧ startsWith ['.'] rest = true ∧ (rest.drop 1).head?.any isDigit = true) ↔
      ∃ digit, isDigit digit = true ∧ startsWith ['?', '.', digit] (c :: rest) = true := by
  rcases rest with _ | ⟨second, _ | ⟨third, rest⟩⟩
  · simp [startsWith]
  · simp [startsWith]
  · simp only [startsWith, List.isPrefixOf, Bool.and_true, Bool.and_eq_true, beq_iff_eq,
      List.drop_succ_cons, List.drop_zero, List.head?_cons, Option.any_some]
    constructor
    · rintro ⟨rfl, rfl, digit⟩
      exact ⟨third, digit, rfl, rfl, rfl⟩
    · rintro ⟨digit, decimal, rfl, rfl, rfl⟩
      exact ⟨rfl, rfl, decimal⟩

/-- A question mark before a decimal fraction stands alone; everywhere else the longest operator
counts. -/
theorem punctuatorAt_cons (c : Char) (rest : List Char) [Decidable (∃ digit, isDigit digit = true ∧
      startsWith ['?', '.', digit] (c :: rest) = true)] :
    punctuatorAt (c :: rest) =
      if ∃ digit, isDigit digit = true ∧ startsWith ['?', '.', digit] (c :: rest) = true then ['?']
      else match (longPunctuators c).find? (startsWith · (c :: rest)) with
        | some long => long
        | none => if isPunctuation c && !isQuote c && c.toNat != 0x60 && c != '\\' then [c]
          else [] := by
  simp only [← startsWith_fraction_iff]
  by_cases conditional : c = '?' ∧ startsWith ['.'] rest = true
  · obtain ⟨rfl, point⟩ := conditional
    obtain ⟨after, rfl⟩ := List.isPrefixOf_iff_prefix.1 point
    cases after with
    | nil => rfl
    | cons third after =>
      by_cases digit : isDigit third = true
      · simp [punctuatorAt, digit, startsWith, List.isPrefixOf]
      · simp [punctuatorAt, digit, startsWith, List.isPrefixOf, longPunctuators]
  · rw [if_neg fun alone => conditional ⟨alone.1, alone.2.1⟩]
    unfold punctuatorAt
    split
    · next same => cases same
    · next same =>
      obtain ⟨rfl, rfl⟩ := List.cons.inj same
      exact absurd ⟨rfl, rfl⟩ conditional
    · next same =>
      obtain ⟨rfl, rfl⟩ := List.cons.inj same
      rfl

theorem plain_of_mem_longPunctuators {c : Char} {long : List Char}
    (operator : long ∈ longPunctuators c) : long.all (fun c => !opensWord c) = true := by
  have each : ∀ long ∈ longPunctuators c, long.all (fun c => !opensWord c) = true := by
    unfold longPunctuators
    split <;> decide
  exact each long operator

theorem longPunctuators_of_opensWord {c : Char} (opens : opensWord c = true) :
    longPunctuators c = [] := by
  unfold longPunctuators
  split
  all_goals first | rfl | cases opens

theorem punctuatorAt_of_opensWord {c : Char} (opens : opensWord c = true) (rest : List Char) :
    punctuatorAt (c :: rest) = [] := by
  classical
  have plain : (isPunctuation c && !isQuote c && c.toNat != 0x60 && c != '\\') = false := by
    simp only [opensWord, isIdentifierStart, Bool.or_eq_true, Bool.and_eq_true, Bool.not_eq_true',
      beq_iff_eq] at opens
    rcases opens with start | rfl
    · simp [start.1.2]
    · rfl
  rw [punctuatorAt_cons, longPunctuators_of_opensWord opens, if_neg]
  · simp [plain]
  · rintro ⟨digit, -, question⟩
    obtain ⟨after, same⟩ := List.isPrefixOf_iff_prefix.1 question
    rw [← (List.cons.inj same).1] at opens
    cases opens

/-- The operator that comes next is the same in both texts. -/
theorem Shortened.punctuatorAt_eq {place : Place} (short : Shortened place old new) :
    punctuatorAt new = punctuatorAt old := by
  classical
  cases old with
  | nil =>
    obtain rfl := short.nil_iff.1 rfl
    rfl
  | cons c rest =>
    by_cases opens : opensWord c = true
    · rw [punctuatorAt_of_opensWord opens]
      cases new with
      | nil => rfl
      | cons d after =>
        refine punctuatorAt_of_opensWord ?_ after
        by_contra other
        have same : c = d :=
          Option.some.inj ((short.head?_eq_iff (by simpa using other)).1 rfl)
        exact other (same ▸ opens)
    · obtain ⟨after, rfl⟩ := List.head?_eq_some_iff.1
        ((short.head?_eq_iff (by simpa using opens)).2 rfl)
      have longs : (longPunctuators c).find? (startsWith · (c :: after)) =
          (longPunctuators c).find? (startsWith · (c :: rest)) :=
        List.find?_congr fun long member =>
          (short.startsWith_eq (plain_of_mem_longPunctuators member)).symm
      have fraction (digit : Char) (decimal : isDigit digit = true) :
          startsWith ['?', '.', digit] (c :: after) = startsWith ['?', '.', digit] (c :: rest) := by
        refine (short.startsWith_eq ?_).symm
        simp [not_opensWord_of_isDigit decimal]
        decide
      rw [punctuatorAt_cons, punctuatorAt_cons, longs]
      congr 1
      simp only [eq_iff_iff]
      exact exists_congr fun digit => and_congr_right fun decimal => by rw [fraction digit decimal]

/-- An operator consists of characters that start no word, and a slash can only be its first. -/
theorem marks_punctuatorAt (text : List Char) :
    (∀ c ∈ punctuatorAt text, opensSolid c = true) ∧ ∀ c ∈ (punctuatorAt text).tail, c ≠ '/' := by
  have longs (c : Char) : ∀ long ∈ longPunctuators c,
      long.all opensSolid = true ∧ long.tail.all (· != '/') = true := by
    unfold longPunctuators
    split <;> decide
  have single {c : Char}
      (mark : (isPunctuation c && !isQuote c && c.toNat != 0x60 && c != '\\') = true) :
      opensSolid c = true := by
    simp only [Bool.and_eq_true, bne_iff_ne] at mark
    have blank : isBlank c = false := by
      have punctuation := mark.1.1.1
      simp only [isPunctuation, isBlank, Bool.or_eq_true, Bool.and_eq_true, decide_eq_true_eq,
        beq_iff_eq, Bool.or_eq_false_iff, Bool.and_eq_false_iff, decide_eq_false_iff_not,
        beq_eq_false_iff_ne] at punctuation ⊢
      omega
    simp [opensSolid, opensWord, isIdentifierStart, mark.1.1.1, mark.2, blank]
  classical
  cases text with
  | nil => exact ⟨List.forall_mem_nil _, List.forall_mem_nil _⟩
  | cons c rest =>
    rw [punctuatorAt_cons]
    split
    · exact ⟨fun c member => List.mem_singleton.1 member ▸ rfl, List.forall_mem_nil _⟩
    · split
      · next long found =>
        have marks := longs c long (List.mem_of_find?_eq_some found)
        exact ⟨List.all_eq_true.1 marks.1, by simpa using marks.2⟩
      · split
        · next mark => exact ⟨by simpa using single mark, List.forall_mem_nil _⟩
        · exact ⟨List.forall_mem_nil _, List.forall_mem_nil _⟩

namespace Shortened

variable {place : Place}

/-! ### Looking further ahead -/

theorem wordAfter_of_bare {container old : List Char} (known : isContainerName container = true) :
    wordAfter (container ++ '.' :: old) = container := by
  rw [wordAfter, wordLength_container known, List.take_left]

theorem wordAfter_whole {token rest : List Char} (whole : wordLength (token ++ rest) = token.length) :
    wordAfter (token ++ rest) = token := by
  rw [wordAfter, whole, List.take_left]

theorem not_isFragile_container {container : List Char}
    (known : isContainerName container = true) : isFragile container = false := by
  rcases isContainerName_iff.1 known with rfl | rfl
  · decide
  · decide

/-- Where an operand may start, a word that cannot stand for itself is in both texts or in none. -/
theorem wordAfter_eq_iff (short : Shortened .operand old new) {word : List Char}
    (special : word = [] ∨ isFragile word = true) :
    wordAfter new = word ↔ wordAfter old = word := by
  cases short.fronts (by decide) with
  | none before after => rw [wordAfter, wordAfter, before, after, List.take_zero, List.take_zero]
  | word _ before after => rw [wordAfter_whole before, wordAfter_whole after]
  | bare _ known nonempty after safe =>
    rw [wordAfter_of_bare known, wordAfter_whole after]
    have named := (safe (by decide)).1
    have contained := not_isFragile_container known
    obtain ⟨c, rest, rfl, -⟩ := cons_of_isContainerName known
    refine iff_of_false ?_ ?_
    · rintro rfl
      simp [nonempty, named] at special
    · rintro rfl
      simp [contained] at special

theorem isReserved_wordAfter (short : Shortened .operand old new) :
    isReserved (wordAfter new) = isReserved (wordAfter old) := by
  cases short.fronts (by decide) with
  | none before after => rw [wordAfter, wordAfter, before, after, List.take_zero, List.take_zero]
  | word _ before after => rw [wordAfter_whole before, wordAfter_whole after]
  | bare _ known _ after safe =>
    have named := (safe (by decide)).1
    have contained := not_isFragile_container known
    simp only [isFragile, Bool.or_eq_false_iff] at named contained
    rw [wordAfter_of_bare known, wordAfter_whole after, named.1, contained.1]

/-- What follows a parenthesis or a star. -/
theorem behind {c : Char} (short : Shortened place (c :: old) new) (plain : place ≠ .literal)
    (alone : c = ')' ∨ c = '*') : ∃ after, new = c :: after ∧ Shortened .operand old after := by
  have clear : triviaAt (c :: old) = none := by
    rcases alone with rfl | rfl
    · exact triviaAt_eq_none rfl (startsComment_cons (by decide) old)
    · exact triviaAt_eq_none rfl (startsComment_cons (by decide) old)
  have other : wordLength (c :: old) = 0 := by
    rcases alone with rfl | rfl
    · exact wordLength_of_not_opensWord rfl old
    · exact wordLength_of_not_opensWord rfl old
  generalize whole : c :: old = text at short
  cases short with
  | nil => cases whole
  | trivia nonempty before =>
    rw [← whole, clear] at before
    cases before
  | word nonempty before =>
    rw [← whole, other] at before
    exact absurd (List.length_eq_zero_iff.1 before.symm) nonempty
  | solid opens start single rest =>
    obtain ⟨rfl, rfl⟩ := List.cons.inj whole
    obtain ⟨rfl, rfl⟩ := single alone
    exact ⟨_, rfl, rest⟩
  | literal => exact absurd rfl plain
  | bare here known =>
    rw [whole, wordLength_container known] at other
    obtain ⟨c, rest, rfl, -⟩ := cons_of_isContainerName known
    cases other

theorem followsOperand (short : Shortened .operand old new) (follows : FollowsOperand old) :
    FollowsOperand new := by
  have arrow {old new : List Char} (short : Shortened .operand old new) :
      startsWith ['=', '>'] new = startsWith ['=', '>'] old :=
    (short.startsWith_eq (by decide)).symm
  obtain ⟨gap, further, -⟩ := short.splitTrivia (by decide)
  refine ⟨(arrow further).trans follows.arrow, fun sameLine => ?_⟩
  have options := follows.word (by rw [startsInNewLine, ← gap]; exact sameLine)
  revert options
  generalize skipTrivia old = oldText at further
  generalize skipTrivia new = newText at further
  intro options
  cases further.fronts (by decide) with
  | none before after =>
    left
    rw [wordAfter, after, List.take_zero]
  | @word token old new nonempty before after rest =>
    rw [wordAfter_whole after]
    rw [wordAfter_whole before] at options
    refine options.imp_right (Or.imp_right (Or.imp_right fun ⟨named, noArrow⟩ => ⟨named, ?_⟩))
    have length : token.length = 2 := congrArg List.length named
    rw [← length, List.drop_left] at noArrow ⊢
    rw [arrow (rest.splitTrivia (by decide)).2.1, noArrow]
  | bare here known =>
    rw [wordAfter_of_bare known] at options
    exfalso
    rcases isContainerName_iff.1 known with rfl | rfl
    · rcases options with same | same | same | ⟨same, -⟩
      all_goals exact absurd same (by decide)
    · rcases options with same | same | same | ⟨same, -⟩
      all_goals exact absurd same (by decide)

/-! ### Tokens that are no words -/

/-- An operator in front of the two texts, character by character. -/
theorem append_marks {marks old new : List Char} (rest : Shortened .operand old new)
    (nonempty : marks ≠ []) (solid : ∀ c ∈ marks, opensSolid c = true)
    (clear : startsComment (marks ++ old) = false) (plain : ∀ c ∈ marks.tail, c ≠ '/')
    (place : Place) : Shortened place (marks ++ old) (marks ++ new) := by
  induction marks generalizing place with
  | nil => exact absurd rfl nonempty
  | cons c marks ih =>
    have further : Shortened .operand (marks ++ old) (marks ++ new) := by
      cases marks with
      | nil => exact rest
      | cons d marks =>
        refine ih (List.cons_ne_nil _ _) (fun x member => solid x (List.mem_cons_of_mem _ member))
          (startsComment_cons (plain d List.mem_cons_self) _)
          (fun x member => plain x (List.mem_cons_of_mem _ member)) .operand
    have single : Shortened place (c :: ([] ++ (marks ++ old))) (c :: ([] ++ (marks ++ new))) :=
      .solid (solid c List.mem_cons_self) clear (fun _ => ⟨rfl, rfl⟩) further
    exact single

theorem append_punctuator {text bare : List Char} (some : punctuatorAt text ≠ [])
    (clear : startsComment text = false)
    (rest : Shortened .operand (text.drop (punctuatorAt text).length) bare) (place : Place) :
    Shortened place text (punctuatorAt text ++ bare) := by
  obtain ⟨after, same⟩ := isPrefix_punctuatorAt text
  have marks := marks_punctuatorAt text
  generalize punctuatorAt text = marks at *
  subst same
  rw [List.drop_left] at rest
  exact rest.append_marks some marks.1 clear marks.2 place

/-- A token that starts with a character other than a parenthesis, a star and the characters of
words. -/
theorem append_solid {next : Place} {c : Char} {token old new : List Char}
    (rest : Shortened next old new) (opens : opensSolid c = true)
    (clear : startsComment (c :: (token ++ old)) = false) (other : c ≠ ')' ∧ c ≠ '*')
    (place : Place) : Shortened place (c :: (token ++ old)) (c :: (token ++ new)) := by
  refine .solid opens clear (fun alone => ?_) rest
  rcases alone with same | same
  · exact absurd same other.1
  · exact absurd same other.2

/-- A character that is a token of its own. -/
theorem cons_solid {next : Place} {c : Char} (rest : Shortened next old new)
    (opens : opensSolid c = true) (clear : startsComment (c :: old) = false)
    (other : c ≠ ')' ∧ c ≠ '*') (place : Place) : Shortened place (c :: old) (c :: new) := by
  have alone : startsComment (c :: ([] ++ old)) = false := clear
  have whole := rest.append_solid opens alone other place
  exact whole

end Shortened

end ComponentCompiler.Script
