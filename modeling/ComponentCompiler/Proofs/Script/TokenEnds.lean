import ComponentCompiler.Proofs.Script.Tokens

/-!
# Where a token ends

A scanner that has found a token at the front of a text has looked at the token and at little more.
Strings, escapes, quoted values and character references end with a character of their own, so
whatever follows them may be replaced. Words, numbers and runs of characters end where a character
cannot continue them, so what follows may be replaced by a text that does not continue them either.

The results have one form: a scanner that takes exactly the token from `token ++ old` takes exactly
the token from `token ++ new`.

## Main definitions

* `isMarkupNamePart`, `continuesNumber`, `isFlag`, `endsMarkupText` — the characters that a token
  might go on with, or that end it

## Main results

* `wordLength_replace`, `markupNameLength_replace`, `numberLength_replace` — names and numbers
* `stringLength_replace`, `templateTextLength_replace`, `regexLength_replace` — other literals
* `markupTextValueLength_replace`, `markupTextLength_replace` — the texts of markup
* `triviaAt_replace` — blanks and comments
-/

namespace ComponentCompiler.Script

variable {token old new : List Char} {n : Nat}

/-! ### Runs and words -/

theorem runLength_replace {test : Char → Bool} (whole : runLength test (token ++ old) = token.length)
    (stops : new.head?.any test = false) : runLength test (token ++ new) = token.length := by
  induction token with
  | nil =>
    cases new with
    | nil => rfl
    | cons c rest => exact if_neg (by simpa using stops)
  | cons c token ih =>
    rw [List.cons_append, runLength] at whole ⊢
    split at whole
    · next passes => rw [if_pos passes, ih (by simpa using whole), List.length_cons]
    · cases whole

/-- The first `n` characters of a run of at least `n`, in front of any text. -/
theorem le_runLength_take {test : Char → Bool} {text : List Char} (long : n ≤ runLength test text)
    (more : List Char) : n ≤ runLength test (text.take n ++ more) := by
  induction text generalizing n with
  | nil => exact long.trans (Nat.zero_le _)
  | cons c rest ih =>
    cases n with
    | zero => exact Nat.zero_le _
    | succ n =>
      rw [runLength] at long
      rw [List.take_succ_cons, List.cons_append, runLength]
      split at long
      · next passes =>
        rw [if_pos passes]
        exact Nat.succ_le_succ (ih (Nat.le_of_succ_le_succ long))
      · cases long

/-- A run with the character behind it, in front of any text. -/
theorem runLength_take_succ {test : Char → Bool} {text : List Char} {c : Char}
    (behind : (text.drop (runLength test text)).head? = some c) (more : List Char) :
    ∃ run, text.take (runLength test text + 1) = run ++ [c] ∧ run.length = runLength test text ∧
      runLength test (run ++ c :: more) = run.length := by
  obtain ⟨after, same⟩ := List.head?_eq_some_iff.1 behind
  have short := runLength_le test text
  refine ⟨text.take (runLength test text), ?_, by simp [short], ?_⟩
  · rw [List.take_add, same]
    rfl
  · have whole : runLength test (text.take (runLength test text) ++ c :: after) =
        (text.take (runLength test text)).length := by
      rw [← same, List.take_append_drop, List.length_take, Nat.min_eq_left short]
    refine runLength_replace whole ?_
    have stops : test c = false := by
      have last := List.head?_dropWhile_not test text
      rw [← drop_runLength, same] at last
      simpa using last
    simpa using stops

/-- An escape ends with its last character. -/
theorem unicodeEscapeLength_take {text : List Char} (found : unicodeEscapeLength text = n)
    (some : n ≠ 0) (more : List Char) : unicodeEscapeLength (text.take n ++ more) = n := by
  unfold unicodeEscapeLength at found
  split at found
  · next rest =>
    dsimp only at found
    split at found
    · next closed =>
      subst found
      simp only [Bool.and_eq_true, bne_iff_ne, beq_iff_eq] at closed
      obtain ⟨run, taken, length, digits⟩ := runLength_take_succ closed.2 more
      rw [show runLength isHexDigit rest + 4 = runLength isHexDigit rest + 1 + 3 from rfl]
      simp only [List.take_succ_cons, taken, List.cons_append, List.append_assoc, List.nil_append]
      simp [unicodeEscapeLength, digits, length, closed.1]
    · exact absurd found.symm some
  · next rest other =>
    split at found
    · next four =>
      subst found
      have long := le_runLength_take four more
      simp only [List.take_succ_cons, List.cons_append]
      rw [unicodeEscapeLength, if_pos long]
      intro after same
      rw [same] at long
      cases long
    · exact absurd found.symm some
  · exact absurd found.symm some

theorem le_wordTail {passed : Nat} {text : List Char} (inside : passed ≤ text.length) :
    passed ≤ wordTail passed text := by
  induction text generalizing passed with
  | nil => exact inside.trans (Nat.zero_le _)
  | cons c rest ih =>
    cases passed with
    | zero => exact Nat.zero_le _
    | succ passed =>
      rw [wordTail]
      exact Nat.succ_le_succ (ih (Nat.le_of_succ_le_succ inside))

theorem unicodeEscapeLength_cons {c : Char} (other : c ≠ '\\') (rest : List Char) :
    unicodeEscapeLength (c :: rest) = 0 :=
  unicodeEscapeLength_eq_zero fun same => other (Option.some.inj same)

/-- A word that starts with an escape does not end in it. -/
theorem unicodeEscapeLength_le_wordTail (text : List Char) :
    unicodeEscapeLength text ≤ wordTail 0 text := by
  cases text with
  | nil => exact Nat.le_refl _
  | cons c rest =>
    by_cases backslash : c = '\\'
    · subst backslash
      have short := unicodeEscapeLength_le ('\\' :: rest)
      rw [wordTail, if_neg (by decide)]
      split
      · next none => exact none.le
      · next m escape =>
        rw [escape] at short ⊢
        exact Nat.succ_le_succ (le_wordTail (Nat.le_of_succ_le_succ short))
    · rw [unicodeEscapeLength_cons backslash]
      exact Nat.zero_le _

theorem unicodeEscapeLength_replace (found : unicodeEscapeLength (token ++ old) = n) (some : n ≠ 0)
    (inside : n ≤ token.length) : unicodeEscapeLength (token ++ new) = n := by
  have taken := unicodeEscapeLength_take found some (token.drop n ++ new)
  rwa [List.take_append_of_le_length inside, ← List.append_assoc, List.take_append_drop] at taken

/-- Where the characters of a word end, none goes on, and in front of anything else with which no
word goes on they end too. -/
theorem wordTail_ends {passed : Nat} (inside : passed ≤ token.length)
    (whole : wordTail passed (token ++ old) = token.length) :
    wordTail 0 old = 0 ∧
      ∀ new, wordTail 0 new = 0 → wordTail passed (token ++ new) = token.length := by
  induction token generalizing passed with
  | nil =>
    obtain rfl : passed = 0 := Nat.le_zero.1 inside
    exact ⟨whole, fun _ stops => stops⟩
  | cons c token ih =>
    cases passed with
    | succ passed =>
      obtain ⟨ends, kept⟩ := ih (Nat.le_of_succ_le_succ inside) (Nat.succ.inj whole)
      exact ⟨ends, fun new stops => congrArg (· + 1) (kept new stops)⟩
    | zero =>
      have long := unicodeEscapeLength_le_wordTail (c :: token ++ old)
      rw [whole] at long
      rw [List.cons_append, wordTail] at whole
      split at whole
      · next part =>
        obtain ⟨ends, kept⟩ := ih (Nat.zero_le _) (Nat.succ.inj whole)
        refine ⟨ends, fun new stops => ?_⟩
        rw [List.cons_append, wordTail, if_pos part, kept new stops, List.length_cons]
      · next other =>
        split at whole
        · cases whole
        · next m escape =>
          rw [List.cons_append, escape] at long
          obtain ⟨ends, kept⟩ := ih (Nat.le_of_succ_le_succ long) (Nat.succ.inj whole)
          refine ⟨ends, fun new stops => ?_⟩
          have same : unicodeEscapeLength (c :: token ++ new) = m + 1 :=
            unicodeEscapeLength_replace escape (Nat.succ_ne_zero _) long
          rw [List.cons_append] at same
          rw [List.cons_append, wordTail, if_neg other]
          simp only [same]
          rw [kept new stops, List.length_cons]

theorem wordTail_eq_zero_iff {text : List Char} :
    wordTail 0 text = 0 ↔
      text.head?.any isIdentifierPart = false ∧ unicodeEscapeLength text = 0 := by
  cases text with
  | nil => simp [wordTail, unicodeEscapeLength]
  | cons c rest =>
    rw [wordTail]
    split
    · next part => simp [part]
    · next other =>
      split
      · next none => simp [other, none]
      · next m escape => simp [escape]

theorem wordLength_eq_zero_iff {text : List Char} :
    wordLength text = 0 ↔
      text.head?.any isIdentifierStart = false ∧ unicodeEscapeLength text = 0 := by
  cases text with
  | nil => simp [wordLength, unicodeEscapeLength]
  | cons c rest =>
    constructor
    · intro none
      by_contra starts
      have start : (isIdentifierStart c || unicodeEscapeLength (c :: rest) != 0) = true := by
        simp only [List.head?_cons, Option.any_some, not_and_or, Bool.not_eq_false] at starts
        simpa using starts
      rw [wordLength, if_pos start, wordTail_eq_zero_iff] at none
      rw [none.2] at start
      have start : isIdentifierStart c = true := by simpa using start
      simp [isIdentifierPart, start] at none
    · rintro ⟨other, none⟩
      have other : isIdentifierStart c = false := by simpa using other
      simp [wordLength, other, none]

section
variable (some : token ≠ []) (whole : wordLength (token ++ old) = token.length)
include some whole

theorem wordTail_of_whole : wordTail 0 (token ++ old) = token.length := by
  rw [← wordTail_of_wordLength, whole]
  rw [whole]
  exact fun none => some (List.length_eq_zero_iff.1 none)

/-- No word goes on where a word ends. -/
theorem wordTail_behind : wordTail 0 old = 0 :=
  (wordTail_ends (Nat.zero_le _) (wordTail_of_whole some whole)).1

theorem wordLength_replace (stops : wordTail 0 new = 0) :
    wordLength (token ++ new) = token.length := by
  have tail := wordTail_of_whole some whole
  have long := unicodeEscapeLength_le_wordTail (token ++ old)
  have kept := (wordTail_ends (Nat.zero_le _) tail).2 new stops
  rw [wordTail_of_wordLength, kept]
  have nonzero : wordLength (token ++ old) ≠ 0 := by
    rw [whole]
    exact fun none => some (List.length_eq_zero_iff.1 none)
  obtain ⟨c, rest, rfl⟩ := List.exists_cons_of_ne_nil some
  rw [Ne, wordLength_eq_zero_iff, not_and_or] at nonzero ⊢
  refine nonzero.imp id fun escape none => ?_
  rw [unicodeEscapeLength_replace rfl escape (tail ▸ long)] at none
  exact escape none

end

/-- The characters of names in tags. -/
def isMarkupNamePart (c : Char) : Bool :=
  isIdentifierPart c || c == '-'

theorem markupNameLength_cons (c : Char) (rest : List Char) :
    markupNameLength (c :: rest) =
      if isIdentifierStart c &&
          !isReserved ((c :: rest).take (runLength isMarkupNamePart (c :: rest))) then
        runLength isMarkupNamePart (c :: rest) else 0 := rfl

theorem markupNameLength_replace (some : token ≠ [])
    (whole : markupNameLength (token ++ old) = token.length)
    (stops : new.head?.any isMarkupNamePart = false) :
    markupNameLength (token ++ new) = token.length := by
  obtain ⟨c, rest, rfl⟩ := List.exists_cons_of_ne_nil some
  rw [List.cons_append, markupNameLength_cons, ← List.cons_append] at whole ⊢
  split at whole
  · next named =>
    have run := runLength_replace whole stops
    rw [whole, List.take_left] at named
    rw [run, List.take_left, if_pos named]
  · cases whole

/-! ### Numbers -/

/-- Whether a number might go on with a character. An operator that starts with `i` may stand right
behind a number. -/
def continuesNumber (c : Char) : Bool :=
  isIdentifierPart c && c != 'i'

theorem continuesNumber_of_isHexDigit {c : Char} (hex : isHexDigit c = true) :
    continuesNumber c = true := by
  simp only [isHexDigit, isDigit, Bool.or_eq_true, Bool.and_eq_true, decide_eq_true_eq] at hex
  have other : c ≠ 'i' := by
    rintro rfl
    revert hex
    decide
  simp only [continuesNumber, isIdentifierPart, isIdentifierStart, isDigit, isPunctuation, isBlank,
    Bool.and_eq_true, Bool.or_eq_true, Bool.not_eq_true', decide_eq_true_eq, bne_iff_ne, ne_eq,
    Bool.or_eq_false_iff, Bool.and_eq_false_iff, decide_eq_false_iff_not, beq_eq_false_iff_ne]
  refine ⟨?_, other⟩
  omega

section
variable {d : Char} {old new : List Char} (apart : continuesNumber d = false)
include apart

theorem ne_of_continuesNumber {c : Char} (continues : continuesNumber c = true) : d ≠ c := by
  rintro rfl
  rw [apart] at continues
  cases continues

theorem not_isDigit_of_continuesNumber : isDigit d = false := by
  by_contra digit
  have digit : isDigit d = true := by simpa using digit
  have other : d ≠ 'i' := by
    rintro rfl
    cases digit
  simp [continuesNumber, isIdentifierPart, digit, other] at apart

theorem digitsLength_apart (token : List Char) :
    digitsLength isDigit (token ++ d :: old) = digitsLength isDigit token :=
  digitsLength_append_cons rfl (not_isDigit_of_continuesNumber apart)
    (ne_of_continuesNumber apart rfl)

theorem exponentLength_apart :
    exponentLength (d :: old) = 0 := by
  rw [exponentLength_cons, if_neg]
  simp [ne_of_continuesNumber apart (c := 'e') rfl, ne_of_continuesNumber apart (c := 'E') rfl]

theorem exponentLength_replace (whole : exponentLength (token ++ d :: old) = token.length) :
    exponentLength (token ++ d :: new) = token.length := by
  cases token with
  | nil => exact exponentLength_apart apart
  | cons c token =>
    rw [List.cons_append, exponentLength_cons] at whole ⊢
    cases token with
    | nil =>
      exfalso
      split at whole
      · next exponent =>
        rw [List.nil_append] at whole exponent
        simp only [List.length_cons, List.length_nil] at whole
        exact exponent.2 (by omega)
      · cases whole
    | cons first token =>
      have sign (more : List Char) :
          signLength (first :: token ++ more) = signLength (first :: token) := by
        by_cases plus : first = '+'
        · simp [signLength, plus]
        · by_cases minus : first = '-'
          · simp [signLength, minus]
          · simp [signLength, plus, minus]
      have short := isStable_signLength.le (first :: token)
      rw [sign, List.drop_append_of_le_length short, digitsLength_apart apart] at whole ⊢
      exact whole

theorem fractionLength_replace (whole : fractionLength (token ++ d :: old) = token.length) :
    fractionLength (token ++ d :: new) = token.length := by
  have big : d ≠ 'n' := ne_of_continuesNumber apart rfl
  cases token with
  | nil =>
    have point : d ≠ '.' := by
      rintro rfl
      simp [fractionLength] at whole
    simp [fractionLength, big, point, exponentLength_apart apart]
  | cons c token =>
    simp only [fractionLength, List.cons_append, List.head?_cons, List.drop_succ_cons,
      List.drop_zero, digitsLength_apart apart,
      List.drop_append_of_le_length (digitsLength_le isDigit token)] at whole ⊢
    split at whole
    · next marked => rw [if_pos marked, whole]
    · next unmarked =>
      rw [if_neg unmarked]
      split at whole
      · next point =>
        have short := digitsLength_le isDigit token
        have exponent : exponentLength (token.drop (digitsLength isDigit token) ++ d :: old) =
            (token.drop (digitsLength isDigit token)).length := by
          rw [List.length_drop]
          rw [List.length_cons] at whole
          omega
        rw [if_pos point, exponentLength_replace apart exponent, ← whole, exponent]
      · next plain =>
        rw [if_neg plain]
        rw [← List.cons_append] at whole ⊢
        exact exponentLength_replace apart whole

theorem decimalLength_replace (whole : decimalLength (token ++ d :: old) = token.length) :
    decimalLength (token ++ d :: new) = token.length := by
  have short := digitsLength_le isDigit token
  rw [decimalLength_eq, digitsLength_apart apart, List.drop_append_of_le_length short] at whole ⊢
  have fraction : fractionLength (token.drop (digitsLength isDigit token) ++ d :: old) =
      (token.drop (digitsLength isDigit token)).length := by
    rw [List.length_drop]
    omega
  rw [fractionLength_replace apart fraction, ← whole, fraction]

theorem markedDigits_apart {test : Char → Bool} (underscore : test '_' = false)
    (stops : test d = false) (token : List Char) :
    markedDigits test (token ++ d :: old) = markedDigits test token :=
  markedDigits_append_cons underscore stops (ne_of_continuesNumber apart rfl)
    (digitsLength_le test token) (ne_of_continuesNumber apart rfl)

theorem numberLength_replace_cons (some : token ≠ [])
    (whole : numberLength (token ++ d :: old) = token.length) :
    numberLength (token ++ d :: new) = token.length := by
  have digits {test : Char → Bool} (hex : ∀ c, test c = true → isHexDigit c = true)
      (underscore : test '_' = false) (token : List Char) (back : List Char) :
      markedDigits test (token ++ d :: back) = markedDigits test token := by
    refine markedDigits_apart apart underscore ?_ token
    by_contra passes
    have continues := continuesNumber_of_isHexDigit (hex d (by simpa using passes))
    exact ne_of_continuesNumber apart continues rfl
  obtain ⟨c, token, rfl⟩ := List.exists_cons_of_ne_nil some
  by_cases point : c = '.'
  · subst point
    simp only [List.cons_append, numberLength_point, digitsLength_apart apart,
      List.drop_append_of_le_length (digitsLength_le isDigit token)] at whole ⊢
    split at whole
    · cases whole
    · next digits =>
      have short := digitsLength_le isDigit token
      have exponent : exponentLength (token.drop (digitsLength isDigit token) ++ d :: old) =
          (token.drop (digitsLength isDigit token)).length := by
        rw [List.length_drop]
        rw [List.length_cons] at whole
        omega
      rw [if_neg digits, exponentLength_replace apart exponent, ← whole, exponent]
  · by_cases zero : c = '0'
    · subst zero
      cases token with
      | nil =>
        have other {x : Char} (continues : continuesNumber x = true) : d ≠ x :=
          ne_of_continuesNumber apart continues
        have unmarked (back : List Char) :
            numberLength ('0' :: d :: back) = decimalLength ('0' :: d :: back) := by
          simp [numberLength, other (x := 'x') rfl, other (x := 'X') rfl, other (x := 'o') rfl,
            other (x := 'O') rfl, other (x := 'b') rfl, other (x := 'B') rfl]
        have whole : decimalLength (['0'] ++ d :: old) = ['0'].length :=
          (unmarked old).symm.trans whole
        exact (unmarked new).trans (decimalLength_replace apart whole)
      | cons mark token =>
        have octal : ∀ c, isOctalDigit c = true → isHexDigit c = true := by
          intro c digit
          simp only [isOctalDigit, isHexDigit, isDigit, Bool.and_eq_true, Bool.or_eq_true,
            decide_eq_true_eq] at digit ⊢
          omega
        have binary : ∀ c, (c == '0' || c == '1') = true → isHexDigit c = true := by
          intro c digit
          simp only [Bool.or_eq_true, beq_iff_eq] at digit
          rcases digit with rfl | rfl <;> rfl
        simp only [List.cons_append, numberLength, digits (fun _ => id) rfl, digits octal rfl,
          digits binary rfl] at whole ⊢
        split at whole
        · next marked => rw [if_pos marked, whole]
        · next unmarked =>
          rw [if_neg unmarked]
          split at whole
          · next marked => rw [if_pos marked, whole]
          · next unmarked =>
            rw [if_neg unmarked]
            split at whole
            · next marked => rw [if_pos marked, whole]
            · next unmarked =>
              rw [← List.cons_append, ← List.cons_append] at whole ⊢
              rw [if_neg unmarked]
              exact decimalLength_replace apart whole
    · have decimal (back : List Char) : numberLength (c :: token ++ d :: back) =
          if isDigit c then decimalLength (c :: token ++ d :: back) else 0 := by
        rw [List.cons_append, numberLength]
        · exact fun mark rest same => absurd same zero
        · exact point
      rw [decimal] at whole ⊢
      split at whole
      · next digit => rw [if_pos digit, decimalLength_replace apart whole]
      · cases whole

end

theorem numberLength_replace (some : token ≠ [])
    (whole : numberLength (token ++ old) = token.length) (same : new.head? = old.head?)
    (ends : old.head?.any continuesNumber = false) :
    numberLength (token ++ new) = token.length := by
  cases old with
  | nil =>
    obtain rfl : new = [] := by simpa using same
    exact whole
  | cons d old =>
    obtain ⟨after, rfl⟩ := List.head?_eq_some_iff.1 same
    exact numberLength_replace_cons (by simpa using ends) some whole

/-! ### Strings, templates and regular expressions -/

/-- Of a run that is counted up to a bound only, one character behind the count matters. -/
theorem min_runLength_replace {test : Char → Bool} {bound : Nat}
    (inside : min bound (runLength test (token ++ old)) ≤ token.length)
    (near : min bound (runLength test (token ++ old)) < token.length ∨ new.head? = old.head?) :
    min bound (runLength test (token ++ new)) = min bound (runLength test (token ++ old)) := by
  induction token generalizing bound with
  | nil =>
    have same : new.head? = old.head? := near.resolve_left (Nat.not_lt_zero _)
    cases bound with
    | zero => simp
    | succ bound =>
      cases old with
      | nil =>
        obtain rfl : new = [] := by simpa using same
        rfl
      | cons d old =>
        obtain ⟨after, rfl⟩ := List.head?_eq_some_iff.1 same
        by_cases passes : test d = true
        · simp [runLength, passes] at inside
        · simp [runLength, passes]
  | cons c token ih =>
    by_cases passes : test c = true
    · cases bound with
      | zero => simp
      | succ bound =>
        simp only [List.cons_append, runLength, passes, if_true, Nat.add_min_add_right,
          List.length_cons, Nat.add_le_add_iff_right, Nat.add_lt_add_iff_right] at inside near ⊢
        rw [ih inside near]
    · simp [runLength, passes]

theorem escapeBodyLength_hex (rest : List Char) :
    escapeBodyLength ('x' :: rest) =
      if 2 ≤ min 2 (runLength isHexDigit rest) then some 3 else none := by
  rcases rest with _ | ⟨a, _ | ⟨b, rest⟩⟩
  · rfl
  · by_cases first : isHexDigit a = true
    · simp [escapeBodyLength, runLength, first]
    · simp [escapeBodyLength, runLength, first]
  · by_cases first : isHexDigit a = true
    · by_cases second : isHexDigit b = true
      · simp [escapeBodyLength, runLength, first, second]
      · simp [escapeBodyLength, runLength, first, second]
    · simp [escapeBodyLength, runLength, first]

theorem escapeBodyLength_unicode (rest : List Char) :
    escapeBodyLength ('u' :: rest) =
      if unicodeEscapeLength ('\\' :: 'u' :: rest) = 0 then none
      else some (unicodeEscapeLength ('\\' :: 'u' :: rest) - 1) := by
  rw [escapeBodyLength]
  split
  · next none => rw [if_pos none]
  · next m escape => simp [escape]

theorem escapeBodyLength_plain {c : Char} (hex : c ≠ 'x') (unicode : c ≠ 'u') (rest : List Char) :
    escapeBodyLength (c :: rest) =
      if c = '\r' ∧ rest.head? = some '\n' then some 2
      else if isOctalDigit c then some (min 2 (runLength isOctalDigit rest) + 1) else some 1 := by
  by_cases line : c = '\r' ∧ rest.head? = some '\n'
  · obtain ⟨rfl, feed⟩ := line
    obtain ⟨after, rfl⟩ := List.head?_eq_some_iff.1 feed
    rfl
  · rw [if_neg line, escapeBodyLength]
    · rw [← Nat.add_min_add_right]
    · exact fun _ _ _ same _ => hex same
    · exact hex
    · exact unicode
    · rintro after carriage rfl
      exact line ⟨carriage, rfl⟩

/-- An escape has at least one character behind its backslash. -/
theorem pos_of_escapeBodyLength {text : List Char} (found : escapeBodyLength text = some n) :
    0 < n := by
  cases text with
  | nil => cases found
  | cons c rest =>
    by_cases hex : c = 'x'
    · subst hex
      rw [escapeBodyLength_hex] at found
      split at found
      · cases found
        decide
      · cases found
    · by_cases unicode : c = 'u'
      · subst unicode
        rw [escapeBodyLength_unicode] at found
        split at found
        · cases found
        · next escape =>
          cases found
          by_contra single
          have one : unicodeEscapeLength ('\\' :: 'u' :: rest) = 1 := by omega
          cases unicodeEscapeLength_take one Nat.one_ne_zero []
      · rw [escapeBodyLength_plain hex unicode] at found
        split at found
        · cases found
          decide
        · split at found
          · cases found
            exact Nat.succ_pos _
          · cases found
            decide

theorem head?_append_of_near (near : 0 < token.length ∨ new.head? = old.head?) :
    (token ++ new).head? = (token ++ old).head? := by
  cases token with
  | nil => simpa using near
  | cons c token => rfl

/-- An escape depends on at most one character behind it. -/
theorem escapeBodyLength_replace (found : escapeBodyLength (token ++ old) = some n)
    (inside : n ≤ token.length) (near : n < token.length ∨ new.head? = old.head?) :
    escapeBodyLength (token ++ new) = some n := by
  have positive := pos_of_escapeBodyLength found
  cases token with
  | nil => exact absurd inside (Nat.not_le.2 positive)
  | cons c token =>
    rw [List.cons_append] at found ⊢
    rw [List.length_cons] at inside near
    by_cases hex : c = 'x'
    · subst hex
      rw [escapeBodyLength_hex] at found ⊢
      split at found
      · next digits =>
        cases found
        rw [min_runLength_replace (by omega) (near.imp_left (by omega)), if_pos digits]
      · cases found
    · by_cases unicode : c = 'u'
      · subst unicode
        rw [escapeBodyLength_unicode] at found ⊢
        split at found
        · cases found
        · next escape =>
          cases found
          have kept : unicodeEscapeLength ('\\' :: 'u' :: token ++ new) =
              unicodeEscapeLength ('\\' :: 'u' :: (token ++ old)) :=
            unicodeEscapeLength_replace rfl escape (by
              simp only [List.length_cons]
              omega)
          simp only [List.cons_append] at kept
          rw [kept, if_neg escape]
      · rw [escapeBodyLength_plain hex unicode] at found ⊢
        have first : (token ++ new).head? = (token ++ old).head? :=
          head?_append_of_near (near.imp_left fun less => by omega)
        rw [first]
        split at found
        · next line => rw [if_pos line, found]
        · next plain =>
          rw [if_neg plain]
          split at found
          · next octal =>
            cases found
            rw [if_pos octal, min_runLength_replace (by omega) (near.imp_left (by omega))]
          · next other => rw [if_neg other, found]

theorem stringTail_lt {quote : Char} {passed : Nat} {text : List Char}
    (found : stringTail quote passed text = some n) : passed < n := by
  induction text generalizing passed n with
  | nil => cases passed <;> cases found
  | cons c rest ih =>
    cases passed with
    | succ passed =>
      obtain ⟨m, inner, rfl⟩ := Option.map_eq_some_iff.1 found
      exact Nat.succ_lt_succ (ih inner)
    | zero =>
      unfold stringTail at found
      split at found
      · cases found
        decide
      · split at found
        · cases found
        · split at found
          · split at found
            · cases found
            · obtain ⟨m, -, rfl⟩ := Option.map_eq_some_iff.1 found
              exact Nat.succ_pos m
          · obtain ⟨m, -, rfl⟩ := Option.map_eq_some_iff.1 found
            exact Nat.succ_pos m

theorem length_of_map {result : Option Nat} {c : Char}
    (found : result.map (· + 1) = some (c :: token).length) : result = some token.length := by
  obtain ⟨m, inner, same⟩ := Option.map_eq_some_iff.1 found
  rw [inner, Nat.succ.inj same]

theorem map_of_length {result : Option Nat} (c : Char) (found : result = some token.length) :
    result.map (· + 1) = some (c :: token).length := by
  rw [found]
  rfl

/-- A string ends with its closing quote. -/
theorem stringTail_replace {quote : Char} {passed : Nat}
    (found : stringTail quote passed (token ++ old) = some token.length) (new : List Char) :
    stringTail quote passed (token ++ new) = some token.length := by
  induction token generalizing passed with
  | nil => exact absurd (stringTail_lt found) (Nat.not_lt_zero _)
  | cons c token ih =>
    rw [List.cons_append] at found ⊢
    cases passed with
    | succ passed => exact map_of_length c (ih (length_of_map found))
    | zero =>
      unfold stringTail at found ⊢
      split at found
      · next closes => rw [if_pos closes, found]
      · next inside =>
        rw [if_neg inside]
        split at found
        · cases found
        · next inLine =>
          rw [if_neg inLine]
          split at found
          · next backslash =>
            rw [if_pos backslash]
            split at found
            · cases found
            · next m escape =>
              have found := length_of_map found
              have short := stringTail_lt found
              rw [escapeBodyLength_replace escape short.le (.inl short)]
              exact map_of_length c (ih found)
          · next plain =>
            rw [if_neg plain]
            exact map_of_length c (ih (length_of_map found))

theorem stringLength_replace (found : stringLength (token ++ old) = some token.length)
    (new : List Char) : stringLength (token ++ new) = some token.length := by
  cases token with
  | nil =>
    unfold stringLength at found
    split at found
    · split at found
      · obtain ⟨m, -, same⟩ := Option.map_eq_some_iff.1 found
        cases same
      · cases found
    · cases found
  | cons c token =>
    rw [List.cons_append, stringLength] at found ⊢
    split at found
    · next quote =>
      rw [if_pos quote]
      exact map_of_length c (stringTail_replace (length_of_map found) new)
    · cases found

theorem templateTextLength_ge {passed : Nat} {text : List Char}
    (found : templateTextLength passed text = some n) : passed ≤ n := by
  induction text generalizing passed n with
  | nil => cases passed <;> cases found
  | cons c rest ih =>
    cases passed with
    | zero => exact Nat.zero_le _
    | succ passed =>
      obtain ⟨m, inner, rfl⟩ := Option.map_eq_some_iff.1 found
      exact Nat.succ_le_succ (ih inner)

/-- The literal text of a template ends in front of a backtick or a substitution. -/
theorem templateTextLength_replace {passed : Nat} (inside : passed ≤ token.length)
    (found : templateTextLength passed (token ++ old) = some token.length)
    (same : new.head? = old.head?) (ends : templateTextLength 0 new = some 0) :
    templateTextLength passed (token ++ new) = some token.length := by
  induction token generalizing passed with
  | nil =>
    obtain rfl : passed = 0 := Nat.le_zero.1 inside
    exact ends
  | cons c token ih =>
    rw [List.cons_append] at found ⊢
    cases passed with
    | succ passed =>
      exact map_of_length c (ih (Nat.le_of_succ_le_succ inside) (length_of_map found))
    | zero =>
      have first : (token ++ new).head? = (token ++ old).head? :=
        head?_append_of_near (.inr same)
      have plain : ∀ after, c = '$' → token ++ old = '\x7b' :: after → False := by
        rintro after rfl substitution
        rw [substitution] at found
        cases found
      have plainNew : ∀ after, c = '$' → token ++ new = '\x7b' :: after → False := by
        rintro after rfl substitution
        rw [substitution] at first
        obtain ⟨before, same⟩ := List.head?_eq_some_iff.1 first.symm
        exact plain before rfl same
      rw [templateTextLength] at found ⊢
      · split at found
        · cases found
        · next other =>
          rw [if_neg other]
          split at found
          · next backslash =>
            rw [if_pos backslash]
            split at found
            · cases found
            · next m escape =>
              have found := length_of_map found
              have short := templateTextLength_ge found
              rw [escapeBodyLength_replace escape short (.inr same)]
              exact map_of_length c (ih short found)
          · next other =>
            rw [if_neg other]
            exact map_of_length c (ih (Nat.zero_le _) (length_of_map found))
      · exact plainNew
      · exact plain

/-- A regular expression ends with its closing slash. -/
theorem regexTail_take {inClass : Bool} {text : List Char} (found : regexTail inClass text = some n)
    (more : List Char) : regexTail inClass (text.take n ++ more) = some n := by
  fun_induction regexTail inClass text generalizing n with
  | case1 => cases found
  | case2 => cases found
  | case3 inClass c rest inLine ih =>
    obtain ⟨m, inner, rfl⟩ := Option.map_eq_some_iff.1 found
    rw [List.take_succ_cons, List.take_succ_cons, List.cons_append, List.cons_append, regexTail,
      if_neg inLine, ih inner]
    rfl
  | case4 => cases found
  | case5 inClass c rest _ inLine opens ih =>
    obtain ⟨m, inner, rfl⟩ := Option.map_eq_some_iff.1 found
    rw [List.take_succ_cons, List.cons_append, regexTail, if_neg inLine, if_pos opens, ih inner]
    · rfl
    · rintro second after rfl -
      cases opens
  | case6 inClass c rest _ inLine opens closes ih =>
    obtain ⟨m, inner, rfl⟩ := Option.map_eq_some_iff.1 found
    rw [List.take_succ_cons, List.cons_append, regexTail, if_neg inLine, if_neg opens,
      if_pos closes, ih inner]
    · rfl
    · rintro second after rfl -
      cases closes
  | case7 inClass c rest _ inLine opens closes ends =>
    cases found
    rw [List.take_succ_cons, List.cons_append, regexTail, if_neg inLine, if_neg opens,
      if_neg closes, if_pos ends]
    rintro second after rfl -
    cases ends
  | case8 inClass c rest escape inLine opens closes goesOn ih =>
    obtain ⟨m, inner, rfl⟩ := Option.map_eq_some_iff.1 found
    rw [List.take_succ_cons, List.cons_append, regexTail, if_neg inLine, if_neg opens,
      if_neg closes, if_neg goesOn, ih inner]
    · rfl
    · rintro second after rfl same
      cases rest with
      | nil => cases inner
      | cons first rest => exact escape first rest rfl rfl

/-- The flags of a regular expression are lower-case letters. -/
def isFlag (c : Char) : Bool :=
  0x61 ≤ c.toNat && c.toNat ≤ 0x7A

theorem regexLength_slash {rest : List Char} (other : rest.head? ≠ some '*')
    (single : rest.head? ≠ some '/') :
    regexLength ('/' :: rest) = (regexTail false rest).map fun body =>
      body + 1 + runLength isFlag (rest.drop body) := by
  rw [regexLength]
  · rfl
  · rintro after rfl
    exact other rfl
  · rintro after rfl
    exact single rfl

/-- A regular expression starts with a slash and is no comment. -/
theorem eq_slash_of_regexLength {text : List Char} (found : regexLength text = some n) :
    ∃ rest, text = '/' :: rest ∧ rest.head? ≠ some '*' ∧ rest.head? ≠ some '/' := by
  unfold regexLength at found
  split at found
  · cases found
  · cases found
  · next rest star slash =>
    refine ⟨rest, rfl, fun same => ?_, fun same => ?_⟩
    · obtain ⟨after, rfl⟩ := List.head?_eq_some_iff.1 same
      exact star after rfl
    · obtain ⟨after, rfl⟩ := List.head?_eq_some_iff.1 same
      exact slash after rfl
  · cases found

theorem pos_of_regexTail {inClass : Bool} {text : List Char}
    (found : regexTail inClass text = some n) : 0 < n := by
  by_contra zero
  obtain rfl : n = 0 := by omega
  have taken := regexTail_take found []
  cases inClass <;> cases taken

theorem regexLength_replace (found : regexLength (token ++ old) = some token.length)
    (stops : new.head?.any isFlag = false) :
    regexLength (token ++ new) = some token.length := by
  obtain ⟨rest, same, star, slash⟩ := eq_slash_of_regexLength found
  rw [same, regexLength_slash star slash] at found
  obtain ⟨body, inner, length⟩ := Option.map_eq_some_iff.1 found
  have positive := pos_of_regexTail inner
  cases token with
  | nil =>
    rw [List.length_nil] at length
    omega
  | cons c token =>
    rw [List.cons_append] at same
    obtain ⟨rfl, rfl⟩ := List.cons.inj same
    rw [List.length_cons] at length
    have short : body ≤ token.length := by omega
    have first : (token ++ new).head? = (token ++ old).head? :=
      head?_append_of_near (.inl (by omega))
    have kept : regexTail false (token ++ new) = some body := by
      have taken := regexTail_take inner (token.drop body ++ new)
      rwa [List.take_append_of_le_length short, ← List.append_assoc,
        List.take_append_drop] at taken
    have flags : runLength isFlag (token.drop body ++ old) = (token.drop body).length := by
      rw [List.drop_append_of_le_length short] at length
      rw [List.length_drop]
      omega
    rw [List.cons_append, regexLength_slash (first ▸ star) (first ▸ slash), kept, Option.map_some,
      List.drop_append_of_le_length short, runLength_replace flags stops, List.length_drop,
      List.length_cons]
    congr 1
    omega

/-! ### The texts of markup -/

/-- A run that ends inside the token. -/
theorem runLength_inside {test : Char → Bool} (inside : runLength test (token ++ old) < token.length)
    (new : List Char) : runLength test (token ++ new) = runLength test (token ++ old) := by
  have short : runLength test token < token.length := by
    refine lt_of_le_of_ne (runLength_le test token) fun full => ?_
    rw [runLength_append_of_full full] at inside
    omega
  rw [runLength_append short, runLength_append short]

theorem markupTextValueLength_replace
    (found : markupTextValueLength (token ++ old) = some token.length) (new : List Char) :
    markupTextValueLength (token ++ new) = some token.length := by
  cases token with
  | nil =>
    unfold markupTextValueLength at found
    split at found
    · dsimp only at found
      split at found <;> cases found
    · cases found
  | cons quote token =>
    simp only [List.cons_append, markupTextValueLength] at found ⊢
    split at found
    · next closed =>
      have length := Option.some.inj found
      rw [List.length_cons] at length
      have inside : runLength (fun c => c != quote) (token ++ old) < token.length := by omega
      rw [runLength_inside inside, if_pos, found]
      simp only [Bool.and_eq_true, decide_eq_true_eq, List.length_append] at closed ⊢
      exact ⟨closed.1, by omega⟩
    · cases found

theorem closedRunLength_replace {test : Char → Bool} {most around : Nat}
    (found : closedRunLength test most around (token ++ old) = some n)
    (inside : n ≤ token.length + (around - 1)) (pos : 0 < around) (new : List Char) :
    closedRunLength test most around (token ++ new) = some n := by
  have length := (lt_of_closedRunLength found).2
  have inside : runLength test (token ++ old) < token.length := by omega
  simp only [closedRunLength, runLength_inside inside] at found ⊢
  have goesOn : ((token ++ new).drop (runLength test (token ++ old))).head? =
      ((token ++ old).drop (runLength test (token ++ old))).head? := by
    rw [List.drop_append_of_le_length inside.le, List.drop_append_of_le_length inside.le]
    refine head?_append_of_near (.inl ?_)
    rw [List.length_drop]
    omega
  rw [goesOn]
  exact found

theorem two_lt_characterReferenceLength {text : List Char}
    (found : characterReferenceLength text = some n) : 2 < n := by
  have run {test : Char → Bool} {most around : Nat} {digits : List Char}
      (found : closedRunLength test most around digits = some n) (two : 2 ≤ around) : 2 < n := by
    simp only [closedRunLength] at found
    split at found
    · next closed =>
      simp only [Bool.and_eq_true, decide_eq_true_eq] at closed
      have length := Option.some.inj found
      omega
    · cases found
  have shape := found
  unfold characterReferenceLength at shape
  split at shape
  · rw [characterReferenceLength_numeric] at found
    split at found
    · exact run found (by decide)
    · exact run found (by decide)
  · next rest named =>
    rw [characterReferenceLength_named named] at found
    exact run found (by decide)
  · cases shape

theorem characterReferenceLength_replace
    (found : characterReferenceLength (token ++ old) = some token.length) (new : List Char) :
    characterReferenceLength (token ++ new) = some token.length := by
  have long := two_lt_characterReferenceLength found
  obtain ⟨a, b, c, token, rfl⟩ : ∃ a b c rest, token = a :: b :: c :: rest := by
    rcases token with _ | ⟨a, _ | ⟨b, _ | ⟨c, token⟩⟩⟩
    · cases long
    · simp at long
    · simp at long
    · exact ⟨a, b, c, token, rfl⟩
  have shape := found
  unfold characterReferenceLength at shape
  split at shape
  · next x rest same =>
    simp only [List.cons_append, List.cons.injEq] at same
    obtain ⟨rfl, rfl, rfl, rfl⟩ := same
    simp only [List.cons_append, characterReferenceLength_numeric] at found ⊢
    split at found
    · next hex =>
      rw [if_pos hex]
      refine closedRunLength_replace found ?_ (by decide) new
      simp only [List.length_cons]
      omega
    · next decimal =>
      rw [← List.cons_append] at found ⊢
      rw [if_neg decimal]
      refine closedRunLength_replace found ?_ (by decide) new
      simp only [List.length_cons]
      omega
  · next rest named same =>
    simp only [List.cons_append, List.cons.injEq] at same
    obtain ⟨rfl, rfl⟩ := same
    simp only [List.cons_append] at found ⊢
    rw [characterReferenceLength_named named, ← List.cons_append, ← List.cons_append] at found
    rw [characterReferenceLength_named]
    · have kept := closedRunLength_replace found (by simp only [List.length_cons]; omega)
        (by decide) new
      exact kept
    · intro x after same
      exact named c (token ++ old) (by rw [(List.cons.inj same).1])
  · cases shape

/-- The characters that end the literal text between two tags. -/
def endsMarkupText (c : Char) : Bool :=
  "<\x7b>\x7d&".toList.contains c

theorem markupTextLength_of_run {text : List Char}
    (run : runLength (fun c => !endsMarkupText c) text ≠ 0) :
    markupTextLength text = some (runLength (fun c => !endsMarkupText c) text) := by
  unfold markupTextLength
  split
  · next none => exact absurd none run
  · rfl

theorem markupTextLength_of_none {text : List Char}
    (none : runLength (fun c => !endsMarkupText c) text = 0) :
    markupTextLength text = characterReferenceLength text := by
  unfold markupTextLength
  split
  · rfl
  · next run other => exact absurd none other

/-- Text in front of a bracket or an ampersand ends there. A character reference has an end of its
own. -/
theorem markupTextLength_replace (found : markupTextLength (token ++ old) = some token.length)
    (stops : runLength (fun c => !endsMarkupText c) (token ++ old) = token.length →
      new.head?.any (fun c => !endsMarkupText c) = false) :
    markupTextLength (token ++ new) = some token.length := by
  by_cases run : runLength (fun c => !endsMarkupText c) (token ++ old) = 0
  · rw [markupTextLength_of_none run] at found
    have long := two_lt_characterReferenceLength found
    have inside : runLength (fun c => !endsMarkupText c) (token ++ old) < token.length := by omega
    rw [markupTextLength_of_none, characterReferenceLength_replace found]
    rw [runLength_inside inside, run]
  · rw [markupTextLength_of_run run] at found
    have kept := runLength_replace (Option.some.inj found) (stops (Option.some.inj found))
    rw [markupTextLength_of_run, kept]
    rw [kept, ← Option.some.inj found]
    exact run

/-! ### Blanks and comments -/

theorem triviaAt_blank {text : List Char} (run : runLength isBlank text ≠ 0) :
    triviaAt text = some (.blank, runLength isBlank text) := by
  unfold triviaAt
  split
  · next none => exact absurd none run
  · rfl

/-- A block comment ends with the first star that a slash follows. -/
theorem blockCommentBody_take {text : List Char} (found : blockCommentBody text = some n) :
    0 < n ∧ ∀ more, blockCommentBody (text.take n ++ more) = some n := by
  fun_induction blockCommentBody text generalizing n with
  | case1 rest =>
    cases found
    exact ⟨by decide, fun _ => rfl⟩
  | case2 c rest other ih =>
    obtain ⟨m, inner, rfl⟩ := Option.map_eq_some_iff.1 found
    obtain ⟨positive, kept⟩ := ih inner
    refine ⟨Nat.succ_pos m, fun more => ?_⟩
    rw [List.take_succ_cons, List.cons_append, blockCommentBody, kept]
    · rfl
    · intro after star same
      cases rest with
      | nil => cases inner
      | cons first rest =>
        obtain ⟨m, rfl⟩ := Nat.exists_eq_add_one_of_ne_zero positive.ne'
        rw [List.take_succ_cons, List.cons_append] at same
        exact other rest star (by rw [(List.cons.inj same).1])
  | case3 => cases found

/-- A run stops at the character behind it. -/
theorem runLength_behind {test : Char → Bool} (whole : runLength test (token ++ old) = token.length) :
    old.head?.any test = false := by
  induction token with
  | nil =>
    cases old with
    | nil => rfl
    | cons c old =>
      rw [List.nil_append, runLength] at whole
      split at whole
      · cases whole
      · next stops => simpa using stops
  | cons c token ih =>
    rw [List.cons_append, runLength] at whole
    split at whole
    · exact ih (Nat.succ.inj whole)
    · cases whole

theorem commentLength_replace (found : commentLength (token ++ old) = some token.length)
    (line : new.head?.any (fun c => !isLineEnd c) = old.head?.any fun c => !isLineEnd c) :
    commentLength (token ++ new) = some token.length := by
  have long := two_le_commentLength found
  obtain ⟨a, b, token, rfl⟩ : ∃ a b rest, token = a :: b :: rest := by
    rcases token with _ | ⟨a, _ | ⟨b, token⟩⟩
    · cases long
    · simp at long
    · exact ⟨a, b, token, rfl⟩
  simp only [List.cons_append] at found ⊢
  unfold commentLength at found
  split at found
  · next rest same =>
    simp only [List.cons.injEq] at same
    obtain ⟨rfl, rfl, rfl⟩ := same
    have whole : runLength (fun c => !isLineEnd c) (token ++ old) = token.length := by
      simpa using found
    rw [commentLength, runLength_replace whole (line.trans (runLength_behind whole))]
    rfl
  · next rest same =>
    simp only [List.cons.injEq] at same
    obtain ⟨rfl, rfl, rfl⟩ := same
    obtain ⟨m, inner, length⟩ := Option.map_eq_some_iff.1 found
    obtain rfl : m = token.length := by simpa using length
    have kept := (blockCommentBody_take inner).2 new
    rw [List.take_left] at kept
    rw [commentLength, kept]
    rfl
  · cases found

/-- A blank or comment is the same in front of two texts if they agree on whether they start with a
blank, and on whether anything but a line end starts them. -/
theorem triviaAt_replace {kind : TokenKind} (nonempty : token ≠ [])
    (found : triviaAt (token ++ old) = some (kind, token.length))
    (blank : new.head?.any isBlank = old.head?.any isBlank)
    (line : new.head?.any (fun c => !isLineEnd c) = old.head?.any fun c => !isLineEnd c) :
    triviaAt (token ++ new) = some (kind, token.length) := by
  rcases triviaAt_cases found with ⟨rfl, run, -⟩ | ⟨rfl, -, comment⟩
  · have kept : runLength isBlank (token ++ new) = token.length :=
      runLength_replace run (blank.trans (runLength_behind run))
    rw [triviaAt_blank, kept]
    rw [kept]
    exact fun none => nonempty (List.length_eq_zero_iff.1 none)
  · exact triviaAt_of_comment (commentLength_replace comment line)

end ComponentCompiler.Script
