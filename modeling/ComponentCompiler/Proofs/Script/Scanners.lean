import ComponentCompiler.Script.Grammar.Markup
import Mathlib.Data.List.Find
import Mathlib.Data.List.Infix

/-!
# What a scanner sees of the text that follows

A scanner says how long the token at the front of a text is. It takes no more than there is, and it
stops at certain characters, so its answer does not change when such a character, and whatever comes
after it, is added to the text. The characters that matter here are the closers, which are written
right behind embedded code. A line comment is the exception: it goes on through all of them.

This file deals with blanks and comments, words, and operators;
`ComponentCompiler.Proofs.Script.Literals` deals with the rest.

## Main definitions

* `isCloser` — the characters that are written right behind embedded code
* `IsStable`, `IsStableOption` — a closer does not change what the scanner takes
* `IsCutEscape` — a text whose first escape a closer might complete

## Main results

* `commentLength_append`, `commentLength_append_of_full` — a closer behind a comment
* `wordLength_append` — a closer behind a word
* `punctuatorAt_append`, `punctuatorAt_closer` — a closer behind operators, and at the front
-/

namespace ComponentCompiler.Script

/-- The characters that are written right behind embedded code. -/
def isCloser (c : Char) : Bool :=
  c == '\x7d' || c == ';' || c == ')'

variable {text back : List Char} {d : Char} {n : Nat}

/-- What does not hold of any closer. -/
theorem rejects_closer (test : Char → Bool) (brace : test '\x7d' = false)
    (semicolon : test ';' = false) (parenthesis : test ')' = false)
    (closer : isCloser d = true) : test d = false := by
  simp only [isCloser, Bool.or_eq_true, beq_iff_eq] at closer
  rcases closer with (rfl | rfl) | rfl
  · exact brace
  · exact semicolon
  · exact parenthesis

theorem ne_of_isCloser {c : Char} (closer : isCloser d = true) (other : isCloser c = false) :
    d ≠ c := by
  rintro rfl
  rw [closer] at other
  cases other

theorem not_isLineEnd_of_isCloser (closer : isCloser d = true) : (!isLineEnd d) = true := by
  rw [rejects_closer isLineEnd rfl rfl rfl closer]
  rfl

/-- The scanner takes no more than there is, and a closer behind the text does not change what it
takes. -/
structure IsStable (scan : List Char → Nat) : Prop where
  le : ∀ text, scan text ≤ text.length
  closed : ∀ text {d : Char} (back : List Char), isCloser d = true →
    scan (text ++ d :: back) = scan text

/-- Where the scanner succeeds, it takes no more than there is, and a closer behind the text does
not change what it takes. -/
structure IsStableOption (scan : List Char → Option Nat) : Prop where
  le : ∀ {text n}, scan text = some n → n ≤ text.length
  closed : ∀ {text n d} (back : List Char), scan text = some n → isCloser d = true →
    scan (text ++ d :: back) = some n

theorem le_of_map_succ {result : Option Nat} {bound : Nat}
    (found : result.map (· + 1) = some n) (short : ∀ {m}, result = some m → m ≤ bound) :
    n ≤ bound + 1 := by
  obtain ⟨m, inner, rfl⟩ := Option.map_eq_some_iff.1 found
  exact Nat.succ_le_succ (short inner)

theorem map_eq_some_of_imp {result other : Option Nat} {f : Nat → Nat}
    (found : result.map f = some n) (same : ∀ {m}, result = some m → other = some m) :
    other.map f = some n := by
  obtain ⟨m, inner, rfl⟩ := Option.map_eq_some_iff.1 found
  rw [same inner]
  rfl

theorem runLength_le (test : Char → Bool) (text : List Char) :
    runLength test text ≤ text.length := by
  induction text with
  | nil => exact Nat.le_refl _
  | cons c rest ih =>
    unfold runLength
    split
    · exact Nat.succ_le_succ ih
    · exact Nat.zero_le _

theorem runLength_cons_of_pos {test : Char → Bool} {c : Char} (passes : test c = true)
    (rest : List Char) : runLength test (c :: rest) = runLength test rest + 1 := by
  rw [runLength, if_pos passes]

theorem take_runLength (test : Char → Bool) (text : List Char) :
    text.take (runLength test text) = text.takeWhile test := by
  induction text with
  | nil => rfl
  | cons c rest ih =>
    by_cases passes : test c = true
    · simp [runLength, passes, ih]
    · simp [runLength, passes]

theorem drop_runLength (test : Char → Bool) (text : List Char) :
    text.drop (runLength test text) = text.dropWhile test := by
  induction text with
  | nil => rfl
  | cons c rest ih =>
    by_cases passes : test c = true
    · simp [runLength, passes, ih]
    · simp [runLength, passes]

/-- A run that ends before the text does is not changed by what is added. -/
theorem runLength_append {test : Char → Bool} (short : runLength test text < text.length)
    (more : List Char) : runLength test (text ++ more) = runLength test text := by
  induction text with
  | nil => cases short
  | cons c rest ih =>
    by_cases passes : test c = true
    · have inside : runLength test rest < rest.length := by
        simpa [runLength, passes] using short
      simp [runLength, passes, ih inside]
    · simp [runLength, passes]

theorem runLength_append_cons (test : Char → Bool) (text back : List Char)
    (stops : test d = false) : runLength test (text ++ d :: back) = runLength test text := by
  induction text with
  | nil => simp [runLength, stops]
  | cons c rest ih => simp [runLength, ih]

/-- A run up to the end of the text goes on in what is added. -/
theorem runLength_append_of_full {test : Char → Bool} (full : runLength test text = text.length)
    (more : List Char) :
    runLength test (text ++ more) = text.length + runLength test more := by
  induction text with
  | nil => simp
  | cons c rest ih =>
    by_cases passes : test c = true
    · have inner : runLength test rest = rest.length := by
        simpa [runLength, passes] using full
      simp [runLength, passes, ih inner]
      omega
    · simp [runLength, passes] at full

/-! ### Blanks and comments -/

theorem isStableOption_blockCommentBody : IsStableOption blockCommentBody := by
  constructor
  · intro text n found
    fun_induction blockCommentBody text generalizing n with
    | case1 rest => cases found; simp
    | case2 c rest other ih =>
      obtain ⟨m, inner, rfl⟩ := Option.map_eq_some_iff.1 found
      simpa using ih inner
    | case3 => cases found
  · intro text n d back found closer
    fun_induction blockCommentBody text generalizing n with
    | case1 rest => exact found
    | case2 c rest other ih =>
      obtain ⟨m, inner, rfl⟩ := Option.map_eq_some_iff.1 found
      cases rest with
      | nil => cases inner
      | cons second rest =>
        rw [List.cons_append, blockCommentBody]
        · rw [ih inner]; rfl
        · intro after star same
          rw [List.cons_append] at same
          exact other rest star (by rw [(List.cons.inj same).1])
    | case3 => cases found

/-- Whether a comment reaches to the end of its line. -/
def startsLineComment (text : List Char) : Bool :=
  startsWith ['/', '/'] text

/-- Whether a comment starts at the front of a text, closed or not. -/
def startsComment (text : List Char) : Bool :=
  startsLineComment text || startsWith ['/', '*'] text

theorem triviaAt_of_comment (found : commentLength text = some n) :
    triviaAt text = some (.comment, n) := by
  have blank : isBlank '/' = false := by decide
  unfold triviaAt
  unfold commentLength at found
  split at found
  · simp [runLength, blank, commentLength, found]
  · simp [runLength, blank, commentLength, found]
  · cases found

/-- A line comment up to the end of the text goes on in what is added. -/
theorem commentLength_append_of_full (full : commentLength text = some text.length)
    (slashes : startsLineComment text = true) (more : List Char) :
    commentLength (text ++ more) =
      some (text.length + runLength (fun c => !isLineEnd c) more) := by
  obtain ⟨rest, rfl⟩ := List.isPrefixOf_iff_prefix.1 slashes
  have inner : runLength (fun c => !isLineEnd c) rest = rest.length := by
    simpa [commentLength] using full
  simp only [List.cons_append, List.nil_append, commentLength, runLength_append_of_full inner,
    List.length_cons, Option.some.injEq]
  omega

theorem startsLineComment_take (two : 2 ≤ n) :
    startsLineComment (text.take n) = startsLineComment text := by
  obtain ⟨m, rfl⟩ := Nat.exists_eq_add_of_le' two
  rcases text with _ | ⟨first, _ | ⟨second, rest⟩⟩
  · rfl
  · rfl
  · simp [startsLineComment, startsWith, List.isPrefixOf]

theorem commentLength_le (found : commentLength text = some n) : n ≤ text.length := by
  unfold commentLength at found
  split at found
  · cases found
    simpa using runLength_le _ _
  · obtain ⟨m, inner, rfl⟩ := Option.map_eq_some_iff.1 found
    simpa using isStableOption_blockCommentBody.le inner
  · cases found

theorem two_le_commentLength (found : commentLength text = some n) : 2 ≤ n := by
  unfold commentLength at found
  split at found
  · cases found
    omega
  · obtain ⟨m, inner, rfl⟩ := Option.map_eq_some_iff.1 found
    omega
  · cases found

/-- A comment that ends before the text does, or that is closed, is not changed by what is added. -/
theorem commentLength_append (found : commentLength text = some n)
    (closed : startsLineComment text = true → n < text.length) (closer : isCloser d = true) :
    commentLength (text ++ d :: back) = some n := by
  unfold commentLength at found
  split at found
  · next rest =>
    cases found
    have short : runLength (fun c => !isLineEnd c) rest < rest.length := by
      simpa using closed rfl
    simp [commentLength, runLength_append short]
  · next rest =>
    obtain ⟨m, inner, rfl⟩ := Option.map_eq_some_iff.1 found
    simp [commentLength, isStableOption_blockCommentBody.closed back inner closer]
  · cases found

/-! ### Words -/

theorem unicodeEscapeLength_le (text : List Char) : unicodeEscapeLength text ≤ text.length := by
  unfold unicodeEscapeLength
  split
  · next rest =>
    dsimp only
    split
    · next closed =>
      simp only [Bool.and_eq_true, beq_iff_eq] at closed
      obtain ⟨after, same⟩ := List.head?_eq_some_iff.1 closed.2
      have length := congrArg List.length same
      simp only [List.length_drop, List.length_cons] at length
      simp only [List.length_cons]
      omega
    · exact Nat.zero_le _
  · next rest other =>
    split
    · next four =>
      have := runLength_le isHexDigit rest
      simp only [List.length_cons]
      omega
    · exact Nat.zero_le _
  · exact Nat.zero_le _

/-- An escape starts with a backslash. -/
theorem unicodeEscapeLength_eq_zero (other : text.head? ≠ some '\\') :
    unicodeEscapeLength text = 0 := by
  unfold unicodeEscapeLength
  split
  · exact absurd rfl other
  · exact absurd rfl other
  · rfl

/-- An escape that has been recognised is not changed by what is added. -/
theorem unicodeEscapeLength_append (some : unicodeEscapeLength text ≠ 0)
    (closer : isCloser d = true) :
    unicodeEscapeLength (text ++ d :: back) = unicodeEscapeLength text := by
  have stops : isHexDigit d = false := rejects_closer isHexDigit rfl rfl rfl closer
  unfold unicodeEscapeLength at some
  split at some
  · next rest =>
    simp only [List.cons_append, unicodeEscapeLength, runLength_append_cons _ _ _ stops]
    dsimp only at some
    split at some
    · next closed =>
      have inside := closed
      simp only [Bool.and_eq_true, beq_iff_eq] at inside
      obtain ⟨after, same⟩ := List.head?_eq_some_iff.1 inside.2
      rw [List.drop_append_of_le_length (runLength_le _ _), same]
      simp [inside.1]
    · exact absurd rfl some
  · next rest other =>
    have first : rest ≠ [] := by
      rintro rfl
      exact some rfl
    obtain ⟨c, rest, rfl⟩ := List.exists_cons_of_ne_nil first
    have plain : c ≠ '\x7b' := fun same => other rest (by rw [same])
    simp only [List.cons_append]
    rw [unicodeEscapeLength, unicodeEscapeLength, ← List.cons_append,
      runLength_append_cons _ _ _ stops]
    · intro after same
      exact plain (List.cons.inj same).1
    · intro after same
      exact plain (List.cons.inj same).1
  · exact absurd rfl some

/-- The text starts with a backslash that starts no escape, but may start one when more is added. -/
structure IsCutEscape (text : List Char) : Prop where
  backslash : text.head? = some '\\'
  unfinished : unicodeEscapeLength text = 0

theorem wordTail_le (passed : Nat) (text : List Char) : wordTail passed text ≤ text.length := by
  induction text generalizing passed with
  | nil => cases passed <;> exact Nat.le_refl _
  | cons c rest ih =>
    cases passed with
    | succ passed => exact Nat.succ_le_succ (ih passed)
    | zero =>
      unfold wordTail
      split
      · exact Nat.succ_le_succ (ih 0)
      · split
        · exact Nat.zero_le _
        · exact Nat.succ_le_succ (ih _)

theorem wordTail_append {passed : Nat} (inside : passed ≤ text.length)
    (apart : ¬ IsCutEscape (text.drop (wordTail passed text))) (closer : isCloser d = true) :
    wordTail passed (text ++ d :: back) = wordTail passed text := by
  induction text generalizing passed with
  | nil =>
    obtain rfl : passed = 0 := Nat.le_zero.1 inside
    have other : (d :: back).head? ≠ some '\\' :=
      fun same => ne_of_isCloser closer rfl (Option.some.inj same)
    simp [wordTail, rejects_closer isIdentifierPart rfl rfl rfl closer,
      unicodeEscapeLength_eq_zero other]
  | cons c rest ih =>
    cases passed with
    | succ passed =>
      simpa [wordTail] using ih (Nat.le_of_succ_le_succ inside) apart
    | zero =>
      rw [List.cons_append]
      unfold wordTail at apart ⊢
      split
      · next part =>
        rw [if_pos part] at apart
        rw [ih (Nat.zero_le _) apart]
      · next other =>
        rw [if_neg other] at apart
        cases escape : unicodeEscapeLength (c :: rest) with
        | zero =>
          rw [escape] at apart
          have none : unicodeEscapeLength (c :: (rest ++ d :: back)) = 0 :=
            unicodeEscapeLength_eq_zero fun backslash => apart ⟨backslash, escape⟩
          rw [none]
        | succ m =>
          rw [escape] at apart
          have same : unicodeEscapeLength (c :: (rest ++ d :: back)) = m + 1 := by
            rw [← List.cons_append, unicodeEscapeLength_append (by rw [escape]; omega) closer,
              escape]
          have short := unicodeEscapeLength_le (c :: rest)
          rw [escape] at short
          simp only [same]
          rw [ih (Nat.le_of_succ_le_succ short) apart]

theorem wordLength_le (text : List Char) : wordLength text ≤ text.length := by
  unfold wordLength
  split
  · exact Nat.zero_le _
  · split
    · exact wordTail_le 0 _
    · exact Nat.zero_le _

theorem wordTail_of_wordLength (some : wordLength text ≠ 0) :
    wordLength text = wordTail 0 text := by
  unfold wordLength at some ⊢
  split
  · exact absurd rfl some
  · split
    · rfl
    · next other => exact absurd (if_neg other) some

/-- A word is not changed by a closer that is added, unless a cut escape follows it. -/
theorem wordLength_append (some : wordLength text ≠ 0)
    (apart : ¬ IsCutEscape (text.drop (wordLength text)))
    (closer : isCloser d = true) : wordLength (text ++ d :: back) = wordLength text := by
  rw [wordTail_of_wordLength some] at apart ⊢
  have tail : wordTail 0 (text ++ d :: back) = wordTail 0 text :=
    wordTail_append (Nat.zero_le _) apart closer
  rw [← tail]
  cases text with
  | nil => exact absurd rfl some
  | cons c rest =>
    refine if_pos ?_
    by_cases start : isIdentifierStart c = true
    · simp [start]
    · have escape : unicodeEscapeLength (c :: rest) ≠ 0 := by
        intro none
        exact some (by simp [wordLength, start, none])
      have same : unicodeEscapeLength (c :: rest ++ d :: back) = unicodeEscapeLength (c :: rest) :=
        unicodeEscapeLength_append escape closer
      rw [List.cons_append] at same
      simp [same, escape]

/-- Names in tags have hyphens, and no escapes. -/
theorem isStable_markupNameLength : IsStable markupNameLength := by
  have stops {d : Char} (closer : isCloser d = true) :
      (isIdentifierPart d || d == '-') = false :=
    rejects_closer (fun c => isIdentifierPart c || c == '-') rfl rfl rfl closer
  constructor
  · intro text
    unfold markupNameLength
    split
    · exact Nat.zero_le _
    · dsimp only
      split
      · exact runLength_le _ _
      · exact Nat.zero_le _
  · intro text d back closer
    cases text with
    | nil => simp [markupNameLength, rejects_closer isIdentifierStart rfl rfl rfl closer]
    | cons c rest =>
      have run := runLength_append_cons (fun c => isIdentifierPart c || c == '-') (c :: rest) back
        (stops closer)
      rw [List.cons_append] at run
      have taken : (c :: (rest ++ d :: back)).take
          (runLength (fun c => isIdentifierPart c || c == '-') (c :: rest)) = _ :=
        List.take_append_of_le_length (runLength_le _ (c :: rest))
      simp only [List.cons_append, markupNameLength, run, taken]

/-! ### Operators, brackets and separators -/

theorem isPrefix_punctuatorAt (text : List Char) : punctuatorAt text <+: text := by
  unfold punctuatorAt
  split
  · exact List.nil_prefix
  · next c rest =>
    split
    · exact ⟨_, rfl⟩
    · exact ⟨_, rfl⟩
  · next c rest _ =>
    split
    · next long found =>
      have front := List.find?_some found
      exact List.isPrefixOf_iff_prefix.1 front
    · split
      · exact ⟨rest, rfl⟩
      · exact List.nil_prefix

/-- No operator contains a closer. -/
theorem isCloser_of_mem_longPunctuators {c x : Char} {long : List Char}
    (operator : long ∈ longPunctuators c) (member : x ∈ long) : isCloser x = false := by
  have each : ∀ long ∈ longPunctuators c, ∀ x ∈ long, isCloser x = false := by
    unfold longPunctuators
    split <;> simp [isCloser]
  exact each long operator x member

theorem startsWith_append_cons {front : List Char} (text back : List Char)
    (foreign : d ∉ front) : startsWith front (text ++ d :: back) = startsWith front text := by
  induction front generalizing text with
  | nil => rfl
  | cons first front ih =>
    have differs : (first == d) = false := by
      simpa using fun same : first = d => foreign (same ▸ List.mem_cons_self)
    have later : d ∉ front := fun member => foreign (List.mem_cons_of_mem _ member)
    cases text with
    | nil => simp [startsWith, List.isPrefixOf, differs]
    | cons c rest =>
      have inner := ih rest later
      simp only [startsWith] at inner
      simp only [startsWith, List.cons_append, List.isPrefixOf, inner]

/-- No comment starts because of a closer. -/
theorem startsComment_append_cons (text back : List Char) (closer : isCloser d = true) :
    startsComment (text ++ d :: back) = startsComment text := by
  have slash : d ≠ '/' := ne_of_isCloser closer rfl
  have star : d ≠ '*' := ne_of_isCloser closer rfl
  rw [startsComment, startsLineComment, startsWith_append_cons _ _ (by simp [slash]),
    startsWith_append_cons _ _ (by simp [slash, star])]
  rfl

theorem startsComment_cons {c : Char} (other : c ≠ '/') (rest : List Char) :
    startsComment (c :: rest) = false := by
  have differs : ('/' == c) = false := by simpa using other.symm
  simp [startsComment, startsLineComment, startsWith, List.isPrefixOf, differs]

/-- Where a comment starts, the operator is a slash. -/
theorem punctuatorAt_of_startsComment (comment : startsComment text = true) :
    punctuatorAt text = ['/'] := by
  simp only [startsComment, startsLineComment, Bool.or_eq_true] at comment
  rcases comment with line | block
  · obtain ⟨rest, rfl⟩ := List.isPrefixOf_iff_prefix.1 line
    rfl
  · obtain ⟨rest, rfl⟩ := List.isPrefixOf_iff_prefix.1 block
    rfl

/-- An operator, bracket or separator is not changed by a closer that is added. -/
theorem punctuatorAt_append (nonempty : text ≠ []) (closer : isCloser d = true) :
    punctuatorAt (text ++ d :: back) = punctuatorAt text := by
  obtain ⟨c, rest, rfl⟩ := List.exists_cons_of_ne_nil nonempty
  have longs : (longPunctuators c).find? (startsWith · (c :: (rest ++ d :: back))) =
      (longPunctuators c).find? (startsWith · (c :: rest)) := by
    refine List.find?_congr fun long member => ?_
    refine startsWith_append_cons (c :: rest) back fun contained => ?_
    rw [isCloser_of_mem_longPunctuators member contained] at closer
    cases closer
  by_cases conditional : c = '?' ∧ rest.head? = some '.'
  · obtain ⟨rfl, point⟩ := conditional
    obtain ⟨after, rfl⟩ := List.head?_eq_some_iff.1 point
    cases after with
    | nil =>
      rw [List.cons_append, List.cons_append, List.nil_append, punctuatorAt,
        if_neg (by simp [rejects_closer isDigit rfl rfl rfl closer])]
      rfl
    | cons third after => rfl
  · rw [List.cons_append, punctuatorAt, punctuatorAt, longs]
    · rintro third after rfl rfl
      exact conditional ⟨rfl, rfl⟩
    · intro third after first same
      cases rest with
      | nil => exact ne_of_isCloser closer rfl (List.cons.inj same).1
      | cons second rest =>
        exact conditional ⟨first, by rw [(List.cons.inj same).1]; rfl⟩

/-- A closer is a token of its own. -/
theorem punctuatorAt_closer (closer : isCloser d = true) (back : List Char) :
    punctuatorAt (d :: back) = [d] := by
  simp only [isCloser, Bool.or_eq_true, beq_iff_eq] at closer
  rcases closer with (rfl | rfl) | rfl
  · rfl
  · rfl
  · rfl

end ComponentCompiler.Script
