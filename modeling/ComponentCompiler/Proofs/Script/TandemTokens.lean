import Mathlib.Data.List.TakeWhile
import ComponentCompiler.Proofs.Script.StringValue
import ComponentCompiler.Proofs.Script.TandemWords

/-!
# Literals, tags and templates in two texts

The scanners of strings, regular expressions, numbers and literal text find tokens of the same
length in a text and in its shortened form. Some of them look at the character behind the token: a
number ends where no name goes on, and a regular expression where no flag does. There the rules
refuse texts in which a container could make a difference.

## Main results

* `Tracks.scanned` — a token that a scanner finds
* `tracks_literalRule` — strings and numbers
* `Tracks.expectMarkupName`, `Tracks.expectCharInside` — names and marks in tags
* `Tracks.templateText`, `Tracks.markupText` — literal text
-/

namespace ComponentCompiler.Script

variable {source target : List Char} {s : Setting} {place onto middle : Place}

/-! ### Literals -/

theorem Shortened.append_quoted {token old new : List Char} {quote : Char}
    (rest : Shortened onto old new) (quoted : isQuote quote = true) (place : Place) :
    Shortened place (quote :: (token ++ old)) (quote :: (token ++ new)) := by
  rcases isQuote_iff.1 quoted with rfl | rfl
  · exact rest.append_solid rfl (startsComment_cons (by decide) _) (by decide) place
  · exact rest.append_solid rfl (startsComment_cons (by decide) _) (by decide) place

theorem quote_of_stringLength {text : List Char} {n : Nat} (found : stringLength text = some n) :
    ∃ quote rest, text = quote :: rest ∧ isQuote quote = true ∧ 0 < n := by
  unfold stringLength at found
  split at found
  · next quote rest =>
    split at found
    · next quoted =>
      obtain ⟨m, -, rfl⟩ := Option.map_eq_some_iff.1 found
      exact ⟨quote, rest, rfl, quoted, Nat.succ_pos m⟩
    · cases found
  · cases found

theorem quote_of_markupTextValueLength {text : List Char} {n : Nat}
    (found : markupTextValueLength text = some n) :
    ∃ quote rest, text = quote :: rest ∧ isQuote quote = true ∧ 0 < n := by
  unfold markupTextValueLength at found
  split at found
  · next quote rest =>
    dsimp only at found
    split at found
    · next closed =>
      rw [Bool.and_eq_true] at closed
      exact ⟨quote, rest, rfl, closed.1, Option.some.inj found ▸ Nat.succ_pos _⟩
    · cases found
  · cases found

/-- A regular expression ends in front of a character that is no flag. -/
theorem regexLength_stops {token old : List Char}
    (found : regexLength (token ++ old) = some token.length) : old.head?.any isFlag = false := by
  obtain ⟨rest, same, star, slash⟩ := eq_slash_of_regexLength found
  rw [same, regexLength_slash star slash] at found
  obtain ⟨body, inner, length⟩ := Option.map_eq_some_iff.1 found
  cases token with
  | nil => simp at length
  | cons c token =>
    rw [List.cons_append] at same
    obtain ⟨rfl, rfl⟩ := List.cons.inj same
    rw [List.length_cons] at length
    have short : body ≤ token.length := by omega
    rw [List.drop_append_of_le_length short] at length
    have whole : runLength isFlag (token.drop body ++ old) = (token.drop body).length := by
      rw [List.length_drop]
      omega
    exact runLength_behind whole

theorem Shortened.not_isFlag {old new : List Char} (short : Shortened .operand old new)
    (stops : old.head?.any isFlag = false) : new.head?.any isFlag = false := by
  cases short.fronts (by decide) with
  | none _ _ same => rwa [same]
  | @word token _ _ nonempty =>
    obtain ⟨c, token, rfl⟩ := List.exists_cons_of_ne_nil nonempty
    exact stops
  | bare _ known =>
    rcases isContainerName_iff.1 known with rfl | rfl
    · cases stops
    · cases stops

namespace Tracks

variable {c : Cursor source} {d : Cursor target}

/-- A token that a scanner finds. -/
theorem scanned {kind : TokenKind} {scan : List Char → Option Nat} (sound : c.IsSound place)
    (plain : onto ≠ .literal)
    (found : ∀ n, scan c.upcoming = some n → c.IsWritten ∧ 0 < n ∧ n ≤ c.upcoming.length)
    (step : ∀ token rest bare, scan (token ++ rest) = some token.length → Shortened onto rest bare →
      Shortened place (token ++ rest) (token ++ bare) ∧
        scan (token ++ bare) = some token.length) :
    Tracks s place onto c ((scan c.upcoming).map fun n => c.shift kind n) d
      ((scan d.upcoming).map fun n => d.shift kind n) := by
  cases length : scan c.upcoming with
  | none => exact none
  | some n =>
    obtain ⟨written, positive, inside⟩ := found n length
    rw [written.upcoming] at length inside
    have split := (List.take_append_drop n c.rest).symm
    have taken : n = (c.rest.take n).length := (List.length_take_of_le inside).symm
    have nonempty : c.rest.take n ≠ [] := List.ne_nil_of_length_pos (taken ▸ positive)
    refine token sound plain written.entered split nonempty taken fun bare short => ?_
    obtain ⟨before, again⟩ := step _ _ bare (by rw [← split, ← taken]; exact length) short
    refine ⟨before, fun newSplit newWritten => ?_⟩
    rw [newWritten.upcoming, newSplit, again]
    rfl

/-- A scanner that wants a certain character first. -/
theorem found_of_head {kind : TokenKind} {scan : List Char → Option Nat}
    (scans : ∀ {text n}, scan text = some n → Scans kind text n)
    (first : ∀ {text n}, scan text = some n →
      ∃ char rest, text = char :: rest ∧ (char ≠ '(' ∧ char ≠ ')') ∧ 0 < n)
    (n : Nat) (found : scan c.upcoming = some n) :
    c.IsWritten ∧ 0 < n ∧ n ≤ c.upcoming.length := by
  obtain ⟨char, rest, same, other, positive⟩ := first found
  exact ⟨Cursor.isWritten_of_seen (by rw [same]; rfl) other, positive, (scans found).le⟩

theorem not_parenthesis_of_isQuote {quote : Char} (quoted : isQuote quote = true) :
    quote ≠ '(' ∧ quote ≠ ')' := by
  rcases isQuote_iff.1 quoted with rfl | rfl <;> decide

theorem expectString (sound : c.IsSound place) :
    Tracks s place .operand c c.expectString d d.expectString := by
  refine scanned sound (by decide) (found_of_head .string fun found => ?_) fun token rest bare found short => ?_
  · obtain ⟨quote, rest, same, quoted, positive⟩ := quote_of_stringLength found
    exact ⟨quote, rest, same, not_parenthesis_of_isQuote quoted, positive⟩
  · refine ⟨?_, stringLength_replace found bare⟩
    obtain ⟨quote, after, same, quoted, positive⟩ := quote_of_stringLength found
    cases token with
    | nil => cases positive
    | cons first token =>
      obtain ⟨rfl, rfl⟩ := List.cons.inj same
      exact short.append_quoted quoted place

/-- The quoted value of an attribute. -/
theorem attributeValue (sound : c.IsSound place) :
    Tracks s place .operand c ((markupTextValueLength c.upcoming).map fun n => c.shift .string n) d
      ((markupTextValueLength d.upcoming).map fun n => d.shift .string n) := by
  refine scanned sound (by decide) (found_of_head scans_markupTextValue fun found => ?_)
    fun token rest bare found short => ?_
  · obtain ⟨quote, rest, same, quoted, positive⟩ := quote_of_markupTextValueLength found
    exact ⟨quote, rest, same, not_parenthesis_of_isQuote quoted, positive⟩
  · refine ⟨?_, markupTextValueLength_replace found bare⟩
    obtain ⟨quote, after, same, quoted, positive⟩ := quote_of_markupTextValueLength found
    cases token with
    | nil => cases positive
    | cons first token =>
      obtain ⟨rfl, rfl⟩ := List.cons.inj same
      exact short.append_quoted quoted place

theorem expectRegex (sound : c.IsSound place) :
    Tracks s place .operand c c.expectRegex d d.expectRegex := by
  have first {text : List Char} {n : Nat} (found : regexLength text = some n) :
      ∃ rest, text = '/' :: rest ∧ startsComment text = false ∧ 0 < n := by
    obtain ⟨rest, rfl, star, slash⟩ := eq_slash_of_regexLength found
    refine ⟨rest, rfl, ?_, ?_⟩
    · cases rest with
      | nil => rfl
      | cons second rest =>
        simp only [List.head?_cons, ne_eq, Option.some.injEq] at star slash
        simp [startsComment, startsLineComment, startsWith, List.isPrefixOf, Ne.symm star,
          Ne.symm slash]
    · rw [regexLength_slash star slash] at found
      obtain ⟨body, -, rfl⟩ := Option.map_eq_some_iff.1 found
      omega
  refine scanned sound (by decide) (found_of_head .regex fun found => ?_) fun token rest bare found short => ?_
  · obtain ⟨rest, same, -, positive⟩ := first found
    exact ⟨_, rest, same, by decide, positive⟩
  · refine ⟨?_, regexLength_replace found (short.not_isFlag (regexLength_stops found))⟩
    obtain ⟨after, same, clear, positive⟩ := first found
    cases token with
    | nil => cases positive
    | cons slash token =>
      obtain ⟨rfl, rfl⟩ := List.cons.inj same
      exact short.append_solid rfl clear (by decide) place

/-- A name after the number sign that comes next. -/
theorem expectPrivateName (sound : c.IsSound place) (sign : c.upcoming.head? = some '#') :
    Tracks s place .operand c c.expectPrivateName d d.expectPrivateName := by
  have written := Cursor.isWritten_of_seen sign (by decide)
  obtain ⟨after, same⟩ := List.head?_eq_some_iff.1 sign
  have left : c.rest = '#' :: after := written.upcoming ▸ same
  unfold Cursor.expectPrivateName
  rw [same, List.drop_succ_cons, List.drop_zero]
  split
  · exact none
  · next n named =>
    have inside := wordLength_le after
    have split := (List.take_append_drop (wordLength after) after).symm
    have taken : (after.take (wordLength after)).length = wordLength after :=
      List.length_take_of_le inside
    have nonempty : after.take (wordLength after) ≠ [] :=
      List.ne_nil_of_length_pos (by rw [taken]; exact Nat.pos_of_ne_zero named)
    have whole : c.rest = '#' :: after.take (wordLength after) ++ after.drop (wordLength after) := by
      rw [left, List.cons_append, ← split]
    refine token sound (by decide) written.entered whole (List.cons_ne_nil _ _)
      (by rw [List.length_cons, taken]) fun bare short => ⟨?_, fun newSplit newWritten => ?_⟩
    · exact short.append_solid rfl (startsComment_cons (by decide) _) (by decide) place
    · have again := short.wordLength_append nonempty (by rw [← split, taken])
      rw [newWritten.upcoming, newSplit, List.cons_append, List.drop_succ_cons, List.drop_zero,
        again, List.length_cons]
      split
      · next none => exact absurd none (by rw [taken]; exact named)
      · rfl

end Tracks

/-! ### Numbers -/

theorem head_of_numberLength {text : List Char} (some : numberLength text ≠ 0) :
    ∃ c rest, text = c :: rest ∧ (isDigit c = true ∨ c = '.') := by
  cases text with
  | nil => exact absurd rfl some
  | cons c rest =>
    refine ⟨c, rest, rfl, ?_⟩
    by_contra other
    rw [not_or, Bool.not_eq_true] at other
    refine some ?_
    unfold numberLength
    split
    · next same =>
      rw [(List.cons.inj same).1] at other
      cases other.1
    · next same => exact absurd (List.cons.inj same).1 other.2
    · next same =>
      rw [← (List.cons.inj same).1, if_neg (by simp [other.1])]
    · rfl

theorem not_isBlank_of_isDigit {c : Char} (digit : isDigit c = true) : isBlank c = false := by
  simp only [isDigit, isBlank, Bool.and_eq_true, decide_eq_true_eq, Bool.or_eq_false_iff,
    Bool.and_eq_false_iff, decide_eq_false_iff_not, beq_eq_false_iff_ne] at digit ⊢
  omega

theorem opensSolid_of_isDigit {c : Char} (digit : isDigit c = true) : opensSolid c = true := by
  rw [opensSolid, not_opensWord_of_isDigit digit, not_isBlank_of_isDigit digit]
  rfl

theorem ne_of_isDigit {c : Char} (digit : isDigit c = true) (other : Char)
    (plain : isDigit other = false) : c ≠ other := by
  rintro rfl
  rw [plain] at digit
  cases digit

/-- A digit or point starts a token that is no word, and no comment. -/
theorem solid_of_numberLength {text : List Char} (some : numberLength text ≠ 0) :
    ∃ c rest, text = c :: rest ∧ opensSolid c = true ∧ c ≠ '/' ∧ (c ≠ '(' ∧ c ≠ ')' ∧ c ≠ '*') ∧
      isQuote c = false := by
  obtain ⟨c, rest, rfl, digit | rfl⟩ := head_of_numberLength some
  · have other := ne_of_isDigit digit
    refine ⟨c, rest, rfl, opensSolid_of_isDigit digit, other _ rfl,
      ⟨other _ rfl, other _ rfl, other _ rfl⟩, ?_⟩
    by_contra quoted
    rcases isQuote_iff.1 (by simpa using quoted) with rfl | rfl
    · cases digit
    · cases digit
  · exact ⟨'.', rest, rfl, rfl, by decide, by decide, by decide⟩

theorem Cursor.settled_of_none {c : Cursor source} (clear : triviaAt c.rest = none) :
    c.settle.trivia = c.trivia ∧ c.settle.rest = c.rest := by
  refine ⟨?_, rest_settle clear⟩
  change c.trivia ++ _ = _
  rw [splitTrivia_of_none clear, List.append_nil]

/-- The texts start with the same character, unless a container stands in front of its member. -/
theorem Shortened.head?_eq_or {old new : List Char} (short : Shortened .operand old new) :
    new.head? = old.head? ∨ old.head? = some 's' ∨ old.head? = some 'p' := by
  cases short.fronts (by decide) with
  | none _ _ same => exact .inl same
  | @word token _ _ nonempty =>
    obtain ⟨c, token, rfl⟩ := List.exists_cons_of_ne_nil nonempty
    exact .inl rfl
  | bare _ known =>
    refine .inr ?_
    rcases isContainerName_iff.1 known with rfl | rfl
    · exact .inl rfl
    · exact .inr rfl

/-- What makes a number end where it does. -/
structure EndsNumber (rest : List Char) : Prop where
  ends : rest.head?.any continuesNumber = false
  same : ∀ bare, Shortened .operand rest bare → bare.head? = rest.head?

/-- Whether an operator that is a word comes next. -/
theorem head_of_operatorWord {c : Cursor source}
    (operator : c.seesWord "in" = true ∨ c.seesWord "instanceof" = true) :
    ∃ after, c.upcoming = 'i' :: after := by
  have word : ∃ after, c.word = 'i' :: after := by
    rcases operator with sees | sees
    · exact ⟨_, beq_iff_eq.1 sees⟩
    · exact ⟨_, beq_iff_eq.1 sees⟩
  obtain ⟨after, named⟩ := word
  have front : c.word <+: c.upcoming := List.take_prefix _ _
  obtain ⟨more, whole⟩ := front
  exact ⟨after ++ more, by rw [← whole, named]; rfl⟩

theorem isIdentifierPart_of_opensWord {c : Char} (opens : opensWord c = true) (other : c ≠ '\\') :
    isIdentifierPart c = true := by
  simp only [opensWord, Bool.or_eq_true, beq_iff_eq] at opens
  rw [isIdentifierPart, opens.resolve_right other]
  rfl

theorem endsNumber_of_not_isJoined {c : Cursor source} (entered : c.enclosure ≠ .opening)
    (bare : c.trivia = []) (apart : c.settle.isJoined = false) : EndsNumber c.rest := by
  cases rest : c.rest with
  | nil => exact ⟨rfl, fun bare short => by rw [short.nil_iff.1 rfl]⟩
  | cons first after =>
    cases found : triviaAt c.rest with
    | some trivia =>
      rw [rest] at found
      have plain : opensWord first = false := by
        by_contra opens
        rw [Bool.not_eq_false] at opens
        rw [triviaAt_of_opensWord opens] at found
        cases found
      have digit : isDigit first = false := by
        by_contra digit
        rw [Bool.not_eq_false] at digit
        rw [triviaAt_eq_none (not_isBlank_of_isDigit digit)
          (startsComment_cons (ne_of_isDigit digit _ rfl) _)] at found
        cases found
      refine ⟨?_, fun bare short => (short.head?_eq_iff plain).2 rfl⟩
      simp only [opensWord, Bool.or_eq_false_iff] at plain
      simp [continuesNumber, isIdentifierPart, plain.1, digit]
    | none =>
      obtain ⟨trivia, left⟩ := Cursor.settled_of_none found
      have upcoming : c.settle.upcoming = first :: after := by
        have some : c.settle.rest ≠ [] := by
          rw [left, rest]
          exact List.cons_ne_nil _ _
        exact (Cursor.upcoming_eq_rest (c := c.settle) entered some).trans (left.trans rest)
      have cases : isIdentifierPart first = false ∨ first = 'i' := by
        by_cases operator : c.settle.seesWord "in" = true ∨ c.settle.seesWord "instanceof" = true
        · obtain ⟨more, same⟩ := head_of_operatorWord operator
          rw [upcoming] at same
          exact .inr (List.cons.inj same).1
        · rw [not_or, Bool.not_eq_true, Bool.not_eq_true] at operator
          refine .inl ?_
          simpa [Cursor.isJoined, trivia, bare, upcoming, operator.1, operator.2] using apart
      refine ⟨?_, fun bare short => ?_⟩
      · rcases cases with part | rfl
        · simp [continuesNumber, part]
        · rfl
      · rcases short.head?_eq_or with same | same | same
        · exact same
        · rcases cases with part | rfl
          · obtain rfl := Option.some.inj same
            cases part
          · cases same
        · rcases cases with part | rfl
          · obtain rfl := Option.some.inj same
            cases part
          · cases same

theorem Cursor.isJoined_of_head {c : Cursor source} {char : Char} {after : List Char}
    (bare : c.trivia = []) (front : c.upcoming = char :: after)
    (part : isIdentifierPart char = true) (other : char ≠ 'i') : c.isJoined = true := by
  have no {text : String} (operator : text = "in" ∨ text = "instanceof") :
      c.seesWord text = false := by
    by_contra sees
    rw [Bool.not_eq_false] at sees
    obtain ⟨more, same⟩ : ∃ after, c.upcoming = 'i' :: after := by
      rcases operator with rfl | rfl
      · exact head_of_operatorWord (.inl sees)
      · exact head_of_operatorWord (.inr sees)
    exact other (List.cons.inj (front.symm.trans same)).1
  simp [Cursor.isJoined, bare, front, part, no (.inl rfl), no (.inr rfl)]

theorem Faces.not_isJoined {c : Cursor source} {d : Cursor target} (faces : Faces s .operand c d)
    (apart : c.isJoined = false) : d.isJoined = false := by
  by_cases bare : c.trivia = []
  · have joined {char : Char} (same : c.upcoming.head? = some char)
        (part : isIdentifierPart char = true) (other : char ≠ 'i') : False := by
      obtain ⟨after, front⟩ := List.head?_eq_some_iff.1 same
      rw [Cursor.isJoined_of_head bare front part other] at apart
      cases apart
    rcases faces.upcoming.head?_eq_or with same | same | same
    · rw [Cursor.isJoined, faces.trivia, faces.seesWord (by decide), faces.seesWord (by decide),
        same]
      exact apart
    · exact (joined same rfl (by decide)).elim
    · exact (joined same rfl (by decide)).elim
  · simp [Cursor.isJoined, faces.trivia, bare]

/-- A string or a number. -/
theorem tracks_literalRule {c : Cursor source} {d : Cursor target} (sound : c.IsSound place) :
    Tracks s place .operand c (literalRule c) d (literalRule d) := by
  by_cases none : numberLength c.upcoming = 0
  · have rule : literalRule c = c.expectString := by simp [literalRule, none]
    rw [rule]
    refine (Tracks.expectString sound).mono fun f found => ?_
    obtain ⟨n, length, -⟩ := Option.map_eq_some_iff.1 found
    obtain ⟨quote, rest, same, quoted, -⟩ := quote_of_stringLength length
    have newNone : numberLength d.upcoming = 0 := by
      by_contra some
      obtain ⟨first, after, front, -, -, -, plain⟩ := solid_of_numberLength some
      rw [same] at front
      rw [← (List.cons.inj front).1, quoted] at plain
      cases plain
    simpa [literalRule, newNone] using found
  · obtain ⟨first, after, same, solid, slash, other, -⟩ := solid_of_numberLength none
    have written := Cursor.isWritten_of_seen (by rw [same]; rfl) ⟨other.1, other.2.1⟩
    generalize length : numberLength c.upcoming = n at none
    rw [written.upcoming] at length same
    have inside : n ≤ c.rest.length := length ▸ isStable_numberLength.le c.rest
    have split := (List.take_append_drop n c.rest).symm
    have taken : n = (c.rest.take n).length := (List.length_take_of_le inside).symm
    have nonempty : c.rest.take n ≠ [] :=
      List.ne_nil_of_length_pos (taken ▸ Nat.pos_of_ne_zero none)
    have rule : literalRule c = if (c.shift .number n).isJoined then Option.none
        else some (c.shift .number n) := by
      rw [literalRule, written.upcoming, length, if_neg (by simpa using none)]
    cases apart : (c.shift .number n).isJoined with
    | true =>
      rw [rule, apart]
      exact Tracks.none
    | false =>
      obtain ⟨-, left, -⟩ := Cursor.shiftRaw_of_written written.entered
        (by rw [same]; exact List.cons_ne_nil _ _) .number n
      have ends : EndsNumber (c.shiftRaw .number n).rest :=
        endsNumber_of_not_isJoined (Cursor.enclosure_shiftRaw _ _ _)
          (Cursor.trivia_shiftRaw _ _ _) apart
      rw [left] at ends
      have passed : Tracks s place .operand c (some (c.shift .number n)) d
          (if numberLength d.upcoming = 0 then Option.none
            else some (d.shift .number (numberLength d.upcoming))) := by
        refine .token sound (by decide) written.entered split nonempty taken fun bare short => ⟨?_, ?_⟩
        · obtain ⟨m, rfl⟩ := Nat.exists_eq_add_one_of_ne_zero none
          rw [same, List.take_succ_cons, List.drop_succ_cons]
          rw [same, List.drop_succ_cons] at short
          exact short.append_solid solid (startsComment_cons slash _) other.2 place
        · intro newSplit newWritten
          have again := numberLength_replace nonempty (by rw [← split, ← taken]; exact length)
            (ends.same bare short) ends.ends
          rw [newWritten.upcoming, newSplit, again, if_neg]
          exact fun empty => nonempty (List.length_eq_zero_iff.1 empty)
      have joined (e : Cursor source) (f : Cursor target) (sound : e.IsSound .operand) :
          Tracks s .operand .operand e (if e.isJoined then Option.none else some e) f
            (if f.isJoined then Option.none else some f) := by
        cases joins : e.isJoined with
        | true => exact Tracks.none
        | false =>
          refine (Tracks.here sound).congr fun _ _ faces => ?_
          rw [faces.not_isJoined joins]
          rfl
      have whole := passed.bind joined
      rw [Option.bind_eq_bind, Option.bind_some, ← rule] at whole
      refine whole.mono fun f found => ?_
      obtain ⟨f', passes, checked⟩ := Option.bind_eq_some_iff.1 found
      split at passes
      · cases passes
      · next some =>
        obtain rfl := Option.some.inj passes
        rw [literalRule, if_neg (by simpa using some)]
        exact checked

/-! ### Tags and templates -/

/-- Whether a character is one of the marks in tags and templates that can start no comment. -/
def isTagMark (char : Char) : Bool :=
  ['<', '>', ':', '=', '.', '\x7b', '\x7d', '\x60'].contains char

theorem isTagMark_cases {char : Char} (mark : isTagMark char = true) :
    opensSolid char = true ∧ (char ≠ '(' ∧ char ≠ ')' ∧ char ≠ '*') ∧ char ≠ '/' := by
  simp only [isTagMark, List.contains_eq_mem, List.mem_cons, List.not_mem_nil, or_false,
    decide_eq_true_eq] at mark
  rcases mark with rfl | rfl | rfl | rfl | rfl | rfl | rfl | rfl <;> decide

/-- What may stand behind a tag or an expression in braces: literal text, if it stands among the
children of an element. -/
def behindTag (inside : Bool) : Place :=
  if inside then .literal else .operand

theorem Cursor.not_startsComment_of_head {c : Cursor source} {char : Char}
    (seen : c.upcoming.head? = some char) (other : char ≠ '/') (written : c.IsWritten) :
    startsComment c.rest = false := by
  obtain ⟨after, same⟩ := List.head?_eq_some_iff.1 (written.upcoming ▸ seen)
  rw [same]
  exact startsComment_cons other after

namespace Tracks

variable {c : Cursor source} {d : Cursor target}
  {result other : Option (Cursor source)} {newResult newOther : Option (Cursor target)}

theorem shiftChar {char : Char} (sound : c.IsSound place) (mark : isTagMark char = true)
    (seen : c.upcoming.head? = some char) (plain : onto ≠ .literal) :
    Tracks s place onto c (some (c.shiftChar false)) d (some (d.shiftChar false)) := by
  obtain ⟨solid, other, slash⟩ := isTagMark_cases mark
  exact character sound plain seen solid other (Cursor.not_startsComment_of_head seen slash)

theorem shiftCharRaw {char : Char} (sound : c.IsSound place) (mark : isTagMark char = true)
    (seen : c.upcoming.head? = some char) :
    Tracks s place .literal c (some (c.shiftChar true)) d (some (d.shiftChar true)) := by
  obtain ⟨solid, other, slash⟩ := isTagMark_cases mark
  exact characterRaw sound seen solid other (Cursor.not_startsComment_of_head seen slash)

/-- A mark in a tag, and what follows it. -/
theorem whenChar {char : Char} (between : Place) (sound : c.IsSound place)
    (mark : isTagMark char = true) (plain : between ≠ .literal)
    (onward : (c.shiftChar false).IsSound between →
      Tracks s between onto (c.shiftChar false) result (d.shiftChar false) newResult)
    (otherwise : Tracks s place onto c other d newOther) :
    Tracks s place onto c (if c.seesChar char = true then result else other) d
      (if d.seesChar char = true then newResult else newOther) := by
  have solid := (isTagMark_cases mark).1
  rw [opensSolid, Bool.and_eq_true, Bool.not_eq_true'] at solid
  refine ite (fun faces => faces.seesChar solid.1) (fun sees => ?_) fun _ => otherwise
  exact (shiftChar sound mark (beq_iff_eq.1 sees) plain).through onward

theorem expectChar {char : Char} (sound : c.IsSound place) (mark : isTagMark char = true)
    (plain : onto ≠ .literal) :
    Tracks s place onto c (c.expectChar char false) d (d.expectChar char false) :=
  whenChar onto sound mark plain here none

theorem expectCharRaw {char : Char} (sound : c.IsSound place) (mark : isTagMark char = true) :
    Tracks s place .literal c (c.expectChar char true) d (d.expectChar char true) := by
  have solid := (isTagMark_cases mark).1
  rw [opensSolid, Bool.and_eq_true, Bool.not_eq_true'] at solid
  exact ite (fun faces => faces.seesChar solid.1)
    (fun sees => shiftCharRaw sound mark (beq_iff_eq.1 sees)) fun _ => none

theorem expectCharInside {char : Char} (inside : Bool) (sound : c.IsSound place)
    (mark : isTagMark char = true) :
    Tracks s place (behindTag inside) c (c.expectChar char inside) d (d.expectChar char inside) := by
  cases inside with
  | true => exact expectCharRaw sound mark
  | false => exact expectChar sound mark (by decide)

end Tracks

/-! ### Names in tags -/

theorem isMarkupNamePart_of_isIdentifierPart {c : Char} (part : isIdentifierPart c = true) :
    isMarkupNamePart c = true := by
  simp [isMarkupNamePart, part]

/-- The name at the front of a tag is a word, and may go on after a hyphen. -/
theorem Shortened.markupName {token old new : List Char} (rest : Shortened .operand old new)
    (nonempty : token ≠ []) (whole : markupNameLength (token ++ old) = token.length)
    (within : wordLength (token ++ old) ≤ token.length) (place : Place) :
    Shortened place (token ++ old) (token ++ new) ∧
      markupNameLength (token ++ new) = token.length ∧
      wordLength (token ++ new) = wordLength (token ++ old) := by
  obtain ⟨first, others, rfl⟩ := List.exists_cons_of_ne_nil nonempty
  have named := whole
  rw [List.cons_append, markupNameLength_cons] at named
  split at named
  case isFalse => cases named
  case isTrue starts =>
    rw [← List.cons_append] at named
    rw [Bool.and_eq_true] at starts
    have stops : new.head?.any isMarkupNamePart = false := by
      have behind := runLength_behind named
      rcases rest.head?_eq_or with same | same | same
      · rw [same]
        exact behind
      · rw [same] at behind
        cases behind
      · rw [same] at behind
        cases behind
    have some : wordLength (first :: others ++ old) ≠ 0 := by
      rw [Ne, wordLength_eq_zero_iff]
      simp [starts.1]
    have each : ∀ c ∈ first :: others, isMarkupNamePart c = true := by
      have passes := take_runLength isMarkupNamePart (first :: others ++ old)
      rw [named, List.take_left] at passes
      intro c member
      exact (List.mem_takeWhile_imp (passes ▸ member))
    refine and_left_comm.1 ⟨markupNameLength_replace nonempty whole stops, ?_⟩
    -- The word at the front, and what follows it up to the end of the name.
    generalize first :: others = token at *
    generalize length : wordLength (token ++ old) = n at *
    obtain ⟨word, more, rfl, rfl⟩ : ∃ word more, token = word ++ more ∧ word.length = n :=
      ⟨token.take n, token.drop n, (List.take_append_drop n token).symm,
        List.length_take_of_le within⟩
    have written : word ≠ [] := fun empty => some (by rw [empty]; rfl)
    rw [List.append_assoc] at length ⊢
    rw [List.append_assoc]
    have further : Shortened .operand (more ++ old) (more ++ new) := by
      cases more with
      | nil => exact rest
      | cons c more =>
        have ends := (wordTail_eq_zero_iff.1 (wordTail_behind written length)).1
        have part := each c (List.mem_append_right _ List.mem_cons_self)
        simp only [List.cons_append, List.head?_cons, Option.any_some] at ends
        simp only [isMarkupNamePart, ends, Bool.false_or, beq_iff_eq] at part
        subst part
        exact rest.append_solid rfl (startsComment_cons (by decide) _) (by decide) .operand
    exact ⟨further.append_word written length place, further.wordLength_append written length⟩

theorem Cursor.expectMarkupName_eq (kind : TokenKind) (c : Cursor source) :
    c.expectMarkupName kind = if markupNameLength c.upcoming = 0 ∨
        markupNameLength c.upcoming < wordLength c.upcoming then Option.none
      else some (c.shift kind (markupNameLength c.upcoming)) := by
  cases length : markupNameLength c.upcoming <;> simp [expectMarkupName, length]

theorem Cursor.isWritten_of_markupName {c : Cursor source} (named : markupNameLength c.upcoming ≠ 0) :
    c.IsWritten := by
  cases same : c.upcoming with
  | nil =>
    rw [same] at named
    exact absurd rfl named
  | cons first others =>
    refine Cursor.isWritten_of_seen (by rw [same]; rfl) ⟨?_, ?_⟩
    · rintro rfl
      rw [same] at named
      exact named rfl
    · rintro rfl
      rw [same] at named
      exact named rfl

namespace Tracks

variable {c : Cursor source} {d : Cursor target}

/-- The name at the front of a tag. -/
theorem markupName {kind : TokenKind} {newResult : Option (Cursor target)} (sound : c.IsSound place)
    (named : markupNameLength c.upcoming ≠ 0)
    (within : wordLength c.upcoming ≤ markupNameLength c.upcoming)
    (same : markupNameLength d.upcoming = markupNameLength c.upcoming →
      wordLength d.upcoming = wordLength c.upcoming →
      newResult = some (d.shift kind (markupNameLength c.upcoming))) :
    Tracks s place .operand c (some (c.shift kind (markupNameLength c.upcoming))) d newResult := by
  have written := Cursor.isWritten_of_markupName named
  rw [written.upcoming] at *
  have inside := isStable_markupNameLength.le c.rest
  generalize length : markupNameLength c.rest = n at *
  have split := (List.take_append_drop n c.rest).symm
  have taken : n = (c.rest.take n).length := (List.length_take_of_le inside).symm
  have nonempty : c.rest.take n ≠ [] := List.ne_nil_of_length_pos (taken ▸ Nat.pos_of_ne_zero named)
  refine token sound (by decide) written.entered split nonempty taken fun bare short => ?_
  have whole : markupNameLength (c.rest.take n ++ c.rest.drop n) = (c.rest.take n).length := by
    rw [← split, ← taken, length]
  have most : wordLength (c.rest.take n ++ c.rest.drop n) ≤ (c.rest.take n).length := by
    rw [← split, ← taken]
    exact within
  obtain ⟨before, again, word⟩ := short.markupName nonempty whole most place
  refine ⟨before, fun newSplit newWritten => ?_⟩
  rw [← taken]
  refine same ?_ ?_
  · rw [newWritten.upcoming, newSplit, again, ← taken]
  · rw [newWritten.upcoming, newSplit, word, ← split]

theorem expectMarkupName {kind : TokenKind} (sound : c.IsSound place) :
    Tracks s place .operand c (c.expectMarkupName kind) d (d.expectMarkupName kind) := by
  rw [Cursor.expectMarkupName_eq]
  split
  · exact none
  · next fine =>
    rw [not_or, Nat.not_lt] at fine
    refine markupName sound fine.1 fine.2 fun same word => ?_
    rw [Cursor.expectMarkupName_eq, same, word, if_neg (not_or.2 ⟨fine.1, Nat.not_lt.2 fine.2⟩)]

/-- A name in a tag that has no hyphens. -/
theorem expectPlainName {kind : TokenKind} (sound : c.IsSound place) :
    Tracks s place .operand c (if wordLength c.upcoming < markupNameLength c.upcoming then
        Option.none else c.expectMarkupName kind) d
      (if wordLength d.upcoming < markupNameLength d.upcoming then Option.none
        else d.expectMarkupName kind) := by
  rw [Cursor.expectMarkupName_eq]
  split
  · exact none
  · next plain =>
    split
    · exact none
    · next fine =>
      rw [not_or, Nat.not_lt] at fine
      refine markupName sound fine.1 fine.2 fun same word => ?_
      rw [Cursor.expectMarkupName_eq, same, word, if_neg plain,
        if_neg (not_or.2 ⟨fine.1, Nat.not_lt.2 fine.2⟩)]

end Tracks

/-! ### Literal text -/

/-- A substitution stands in both texts. The dollar sign could be a word. -/
theorem Shortened.substitution {old new : List Char}
    (short : Shortened .literal ('$' :: '\x7b' :: old) new) :
    ∃ after, new = '$' :: '\x7b' :: after := by
  generalize whole : '$' :: '\x7b' :: old = text at short
  generalize at_ : Place.literal = place at short
  induction short with
  | nil => cases whole
  | trivia nonempty before =>
    rw [← whole, triviaAt_of_opensWord rfl] at before
    cases before
  | @word _ token behind new nonempty before after rest =>
    have single : wordLength ('$' :: '\x7b' :: old) = 1 := rfl
    rw [← whole, single] at before
    obtain ⟨c, rfl⟩ := List.length_eq_one_iff.1 before.symm
    obtain ⟨rfl, rfl⟩ := List.cons.inj whole
    obtain ⟨further, rfl⟩ := List.head?_eq_some_iff.1 ((rest.head?_eq_iff rfl).2 rfl)
    exact ⟨further, rfl⟩
  | solid opens =>
    rw [← (List.cons.inj whole).1] at opens
    cases opens
  | @literal token behind new rest ih =>
    match token, whole with
    | [], whole => exact ih whole rfl
    | [_], whole =>
      obtain ⟨rfl, rfl⟩ := List.cons.inj whole
      obtain ⟨after, rfl⟩ := List.head?_eq_some_iff.1 ((rest.head?_eq_iff rfl).2 rfl)
      exact ⟨after, rfl⟩
    | first :: second :: token, whole =>
      obtain ⟨same, others⟩ := List.cons.inj whole
      exact ⟨token ++ new, by rw [same, (List.cons.inj others).1]; rfl⟩
  | bare _ known =>
    rcases isContainerName_iff.1 known with rfl | rfl
    · cases whole
    · cases whole

/-- What ends the literal text of a template. -/
def EndsTemplateText (text : List Char) : Prop :=
  text.head? = some '\x60' ∨ ['$', '\x7b'] <+: text

theorem EndsTemplateText.shortened {old new : List Char} (ends : EndsTemplateText old)
    (short : Shortened .literal old new) :
    new.head? = old.head? ∧ startsWith ['$', '\x7b'] new = startsWith ['$', '\x7b'] old ∧
      templateTextLength 0 new = some 0 := by
  rcases ends with tick | ⟨after, rfl⟩
  · have same := (short.head?_eq_iff rfl).2 tick
    obtain ⟨after, rfl⟩ := List.head?_eq_some_iff.1 tick
    obtain ⟨newAfter, rfl⟩ := List.head?_eq_some_iff.1 same
    exact ⟨rfl, rfl, rfl⟩
  · obtain ⟨newAfter, rfl⟩ := short.substitution
    exact ⟨rfl, rfl, rfl⟩

theorem Cursor.IsSound.name_of_clear {c : Cursor source} (sound : c.IsSound place)
    (clear : triviaAt c.rest = none) : c.IsSound .name :=
  ⟨sound.separated, fun _ _ => clear, nofun⟩

/-- The text between two tags ends in front of the same character. -/
theorem Shortened.endsMarkupText {old new : List Char} (short : Shortened .literal old new)
    (ends : old.head?.any (fun c => !Script.endsMarkupText c) = false) :
    new.head?.any (fun c => !Script.endsMarkupText c) = false := by
  cases old with
  | nil =>
    rw [short.nil_iff.1 rfl]
    rfl
  | cons first after =>
    have stop : Script.endsMarkupText first = true := by simpa using ends
    have solid : opensWord first = false := by
      have each : ['<', '\x7b', '>', '\x7d', '&'].all (fun c => !opensWord c) = true := by decide
      simpa using List.all_eq_true.1 each first (List.contains_iff_mem.1 stop)
    rw [(short.head?_eq_iff solid).2 rfl]
    exact ends

namespace Tracks

variable {c : Cursor source} {d : Cursor target}

theorem text_of_literal (sound : c.IsSound .literal) (faces : Faces s .literal c d) :
    Shortened .literal c.rest d.rest := by
  have text := faces.text
  rwa [Cursor.front_of_ne (sound.entered rfl)] at text

/-- Passes the literal text of a template. -/
def passText (n : Nat) (c : Cursor source) : Cursor source :=
  if n == 0 then c else c.shiftRaw .templateText n

/-- The literal text of a template, which may be empty. -/
theorem templateText {n : Nat} (sound : c.IsSound .literal)
    (found : templateTextLength 0 c.rest = some n) :
    Tracks s .literal .literal c (some (passText n c)) d
      ((templateTextLength 0 d.rest).map (passText · d)) := by
  have ends : EndsTemplateText (c.rest.drop n) := drop_templateTextLength found
  by_cases zero : n = 0
  · subst zero
    refine (here sound).congr fun _ _ faces => ?_
    rw [(ends.shortened (text_of_literal sound faces)).2.2]
    rfl
  · have inside := (templateTextLength_lt found).le
    have split := (List.take_append_drop n c.rest).symm
    have taken : n = (c.rest.take n).length := (List.length_take_of_le inside).symm
    have nonempty : c.rest.take n ≠ [] := List.ne_nil_of_length_pos (taken ▸ Nat.pos_of_ne_zero zero)
    rw [passText, if_neg (by simpa using zero)]
    refine tokenRaw sound (sound.entered rfl) split nonempty taken fun bare short =>
      ⟨short.literal, fun newSplit newWritten => ?_⟩
    obtain ⟨same, -, stops⟩ := ends.shortened short
    have again := templateTextLength_replace (Nat.zero_le _)
      (by rw [← split, ← taken]; exact found) same stops
    rw [newSplit, again, Option.map_some, passText, ← taken, if_neg (by simpa using zero)]

/-- The bracket that opens a substitution. -/
theorem openSubstitution (sound : c.IsSound .literal) (dollar : ['$', '\x7b'] <+: c.rest) :
    Tracks s .literal .operand c (some (c.shift .punctuator 2)) d (some (d.shift .punctuator 2)) := by
  obtain ⟨after, split⟩ := dollar
  exact token sound (by decide) (sound.entered rfl) split.symm (List.cons_ne_nil _ _) rfl
    fun bare short => ⟨short.to_literal.literal, fun _ _ => rfl⟩

/-- The brackets in front of a closing tag. -/
theorem openClosingTag (sound : c.IsSound .literal) (tag : ['<', '/'] <+: c.rest) :
    Tracks s .literal .tag c (some (c.shift .punctuator 2)) d (some (d.shift .punctuator 2)) := by
  obtain ⟨after, split⟩ := tag
  refine token sound (by decide) (sound.entered rfl) split.symm (List.cons_ne_nil _ _) rfl
    fun bare short => ⟨?_, fun _ _ => rfl⟩
  have slash : Shortened .literal ('<' :: (['/'] ++ after)) ('<' :: (['/'] ++ bare)) :=
    short.append_solid rfl (startsComment_cons (by decide) _) (by decide) _
  exact slash

/-- The literal text between two tags. -/
theorem markupText {n : Nat} (sound : c.IsSound .literal) (found : markupTextLength c.rest = some n) :
    Tracks s .literal .literal c (some (c.shiftRaw .markupText n)) d
      ((markupTextLength d.rest).map fun n => d.shiftRaw .markupText n) := by
  have positive : 0 < n := by
    by_cases run : runLength (fun c => !endsMarkupText c) c.rest = 0
    · rw [markupTextLength_of_none run] at found
      exact Nat.lt_trans Nat.two_pos (two_lt_characterReferenceLength found)
    · rw [markupTextLength_of_run run] at found
      exact Option.some.inj found ▸ Nat.pos_of_ne_zero run
  have inside : n ≤ c.rest.length := by
    by_cases run : runLength (fun c => !endsMarkupText c) c.rest = 0
    · rw [markupTextLength_of_none run] at found
      exact isStableOption_characterReferenceLength.le found
    · rw [markupTextLength_of_run run] at found
      exact Option.some.inj found ▸ runLength_le _ _
  have split := (List.take_append_drop n c.rest).symm
  have taken : n = (c.rest.take n).length := (List.length_take_of_le inside).symm
  have nonempty : c.rest.take n ≠ [] := List.ne_nil_of_length_pos (taken ▸ positive)
  refine tokenRaw sound (sound.entered rfl) split nonempty taken fun bare short =>
    ⟨short.literal, fun newSplit newWritten => ?_⟩
  have whole : markupTextLength (c.rest.take n ++ c.rest.drop n) = some (c.rest.take n).length := by
    rw [← split, ← taken, found]
  have again : markupTextLength (c.rest.take n ++ bare) = some (c.rest.take n).length := by
    refine markupTextLength_replace whole fun run => ?_
    exact short.endsMarkupText (runLength_behind run)
  rw [newSplit, again]
  rfl

end Tracks

end ComponentCompiler.Script
