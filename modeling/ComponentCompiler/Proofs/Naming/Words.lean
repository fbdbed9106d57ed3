import ComponentCompiler.Naming
import ComponentCompiler.Proofs.Format.Lines

/-!
# The words of a name

A name is divided into words from its front. A word is found by one of four patterns, and which one
applies is decided by the characters behind it: of capitals before a small letter all but the last
are a word; small letters are a word with at most one capital before them; capitals are a word, and
so are digits. Each word goes as far as it can. There is one such division, and the words of a name
are it.

A word that is written in small letters is again found as one word, wherever it stands before a
character that belongs to no word. So a name that is written as words in small letters with hyphens
between them has the same words, and changing its case again changes nothing.

## Main definitions

* `IsFront` — the word at the front of a text
* `IsDivision` — the division of a name into words
* `IsPlain` — the words that are found as they are: small letters only, or digits only

## Main results

* `isDivision_iff` — the words of a name are its only division
* `words_joinWith` — plain words with hyphens between them are found again
* `filter_kebabCase` — a name in small letters without its hyphens
* `casing_stable` — nothing of a name is lost, and a second change of case does nothing
-/

namespace ComponentCompiler.Naming

open Text (isDecimalDigit consToFirst joinWith)

variable {c : Char} {word rest name : List Char}

/-! ### Kinds of characters -/

theorem toNat_lt_of_letter (letter : (isCapital c || isSmall c) = true) : c.toNat < 128 := by
  simp only [isCapital, isSmall, Bool.or_eq_true, Bool.and_eq_true, decide_eq_true_eq] at letter
  omega

theorem isSmall_of_capital (capital : isCapital c = true) : isSmall c = false := by
  simp only [isCapital, Bool.and_eq_true, decide_eq_true_eq] at capital
  simp only [isSmall, Bool.and_eq_false_iff, decide_eq_false_iff_not]
  omega

theorem isCapital_of_small (small : isSmall c = true) : isCapital c = false := by
  cases capital : isCapital c with
  | false => rfl
  | true => rw [isSmall_of_capital capital] at small; cases small

theorem of_ascii (property : Char → Prop) (table : ∀ n, n < 128 → property (Char.ofNat n))
    (small : c.toNat < 128) : property c := by
  have found := table c.toNat small
  rwa [Char.ofNat_toNat] at found

/-- A letter is no digit. -/
theorem isDecimalDigit_of_letter (letter : (isCapital c || isSmall c) = true) :
    isDecimalDigit c = false := by
  have table : ∀ n, n < 128 → (isCapital (Char.ofNat n) || isSmall (Char.ofNat n)) = true →
      isDecimalDigit (Char.ofNat n) = false := by
    decide
  exact of_ascii (fun c => (isCapital c || isSmall c) = true → isDecimalDigit c = false) table
    (toNat_lt_of_letter letter) letter

theorem not_letter_of_digit (digit : isDecimalDigit c = true) :
    isCapital c = false ∧ isSmall c = false := by
  cases letter : isCapital c || isSmall c with
  | false => simpa using letter
  | true => rw [isDecimalDigit_of_letter letter] at digit; cases digit

theorem isWordPart_cases (part : isWordPart c = true) :
    isCapital c = true ∨ isSmall c = true ∨ isDecimalDigit c = true := by
  simpa [isWordPart, or_assoc] using part

/-! ### The word at the front -/

/-- Whether a text starts with a character of a kind. -/
def starts (kind : Char → Bool) (text : List Char) : Bool :=
  text.head?.any kind

@[simp] theorem starts_nil (kind : Char → Bool) : starts kind [] = false := rfl

@[simp] theorem starts_cons (kind : Char → Bool) (c : Char) (rest : List Char) :
    starts kind (c :: rest) = kind c := rfl

theorem startsSmall_eq (text : List Char) : startsSmall text = starts isSmall text := by
  cases text <;> rfl

/-- A word at the front of a text, and the text behind it. -/
inductive IsFront : List Char → List Char → Prop
  /-- Capitals before a capital that belongs to small letters. -/
  | acronym {word : List Char} {next : Char} {rest : List Char} (some : word ≠ [])
      (capitals : ∀ c ∈ word, isCapital c = true) (capital : isCapital next = true)
      (small : starts isSmall rest = true) : IsFront word (next :: rest)
  /-- Small letters, with a capital before them if there is one. -/
  | ordinary {lead : Option Char} {word rest : List Char} (capital : ∀ c ∈ lead, isCapital c = true)
      (some : word ≠ []) (smalls : ∀ c ∈ word, isSmall c = true)
      (longest : starts isSmall rest = false) : IsFront (lead.toList ++ word) rest
  /-- Capitals without small letters behind them. -/
  | capitals {word rest : List Char} (some : word ≠ []) (capitals : ∀ c ∈ word, isCapital c = true)
      (longest : starts isCapital rest = false) (alone : starts isSmall rest = false) : IsFront word rest
  | digits {word rest : List Char} (some : word ≠ [])
      (digits : ∀ c ∈ word, isDecimalDigit c = true) (longest : starts isDecimalDigit rest = false) :
      IsFront word rest

/-- The division of a name into words. -/
inductive IsDivision : List Char → List (List Char) → Prop
  | nil : IsDivision [] []
  | word {word rest : List Char} {parts : List (List Char)} (front : IsFront word rest)
      (later : IsDivision rest parts) : IsDivision (word ++ rest) (word :: parts)
  | separator {c : Char} {rest : List Char} {parts : List (List Char)}
      (other : isWordPart c = false) (later : IsDivision rest parts) : IsDivision (c :: rest) parts

theorem joins_of_capital (capital : isCapital c = true) (next : Char) (rest : List Char) :
    joins c (next :: rest) = (isSmall next || (isCapital next && !starts isSmall rest)) := by
  simp [joins, capital, startsSmall_eq]

theorem joins_of_small (small : isSmall c = true) (rest : List Char) :
    joins c rest = starts isSmall rest := by
  cases rest <;> simp [joins, small, isCapital_of_small small]

theorem joins_of_digit (digit : isDecimalDigit c = true) (rest : List Char) :
    joins c rest = starts isDecimalDigit rest := by
  obtain ⟨notCapital, notSmall⟩ := not_letter_of_digit digit
  cases rest <;> simp [joins, notCapital, notSmall]

/-! ### One division -/

/-- A word that starts with a small letter has small letters only, and all that there are. -/
theorem IsFront.of_startsSmall (front : IsFront word rest)
    (small : starts isSmall (word ++ rest) = true) :
    (∀ c ∈ word, isSmall c = true) ∧ starts isSmall rest = false := by
  have first {c : Char} {others : List Char} (starts : starts isSmall (c :: others) = true) :
      isCapital c = false ∧ isDecimalDigit c = false :=
    ⟨isCapital_of_small starts, isDecimalDigit_of_letter (Bool.or_eq_true_iff.2 (.inr starts))⟩
  cases front with
  | acronym some capitals | capitals some capitals =>
    obtain ⟨c, others, rfl⟩ := List.exists_cons_of_ne_nil some
    simp [(first small).1] at capitals
  | @ordinary lead word _ capital some smalls longest =>
    cases lead with
    | none => exact ⟨smalls, longest⟩
    | some c => simp [(first small).1] at capital
  | digits some digits =>
    obtain ⟨c, others, rfl⟩ := List.exists_cons_of_ne_nil some
    simp [(first small).2] at digits

/-- A word that starts with a digit has digits only, and all that there are. -/
theorem IsFront.of_startsDigit (front : IsFront word rest)
    (digit : starts isDecimalDigit (word ++ rest) = true) :
    (∀ c ∈ word, isDecimalDigit c = true) ∧ starts isDecimalDigit rest = false := by
  have first {c : Char} {others : List Char} (starts : starts isDecimalDigit (c :: others) = true) :
      isCapital c = false ∧ isSmall c = false :=
    not_letter_of_digit starts
  cases front with
  | acronym some capitals | capitals some capitals =>
    obtain ⟨c, others, rfl⟩ := List.exists_cons_of_ne_nil some
    simp [(first digit).1] at capitals
  | @ordinary lead word _ capital some smalls =>
    obtain ⟨c, others, rfl⟩ := List.exists_cons_of_ne_nil some
    cases lead with
    | none => simp [(first digit).2] at smalls
    | some c => simp [(first digit).1] at capital
  | digits _ digits longest => exact ⟨digits, longest⟩

/-- A capital makes the word behind it longer if that word starts with a small letter, or with a
capital that does not belong to small letters. -/
theorem IsFront.cons_capital (front : IsFront word rest) (capital : isCapital c = true)
    (joined : joins c (word ++ rest) = true) : IsFront (c :: word) rest := by
  have all {word : List Char} (capitals : ∀ c ∈ word, isCapital c = true) :
      ∀ d ∈ c :: word, isCapital d = true :=
    List.forall_mem_cons.2 ⟨capital, capitals⟩
  cases front with
  | acronym _ capitals next behind => exact .acronym (List.cons_ne_nil _ _) (all capitals) next behind
  | @ordinary lead word _ leading some smalls longest =>
    cases lead with
    | none =>
      have leads : ∀ d ∈ Option.some c, isCapital d = true := by simpa using capital
      exact .ordinary leads some smalls longest
    | some next =>
      -- The next capital belongs to the small letters behind it, so nothing is joined to it.
      obtain ⟨first, others, rfl⟩ := List.exists_cons_of_ne_nil some
      have capitalNext : isCapital next = true := leading next rfl
      have smallFirst : isSmall first = true := smalls first List.mem_cons_self
      simp [joins_of_capital capital, isSmall_of_capital capitalNext, smallFirst] at joined
  | capitals _ capitals longest alone =>
    exact .capitals (List.cons_ne_nil _ _) (all capitals) longest alone
  | digits some digits =>
    obtain ⟨first, others, rfl⟩ := List.exists_cons_of_ne_nil some
    obtain ⟨notCapital, notSmall⟩ := not_letter_of_digit (digits first List.mem_cons_self)
    simp [joins_of_capital capital, notCapital, notSmall] at joined

theorem IsFront.of_smalls (some : word ≠ []) (smalls : ∀ c ∈ word, isSmall c = true)
    (longest : starts isSmall rest = false) : IsFront word rest :=
  have none : ∀ c ∈ Option.none, isCapital c = true := by simp
  .ordinary none some smalls longest

/-- A character that belongs to the word behind it makes that word longer. -/
theorem IsFront.cons (front : IsFront word rest) (part : isWordPart c = true)
    (joined : joins c (word ++ rest) = true) : IsFront (c :: word) rest := by
  rcases isWordPart_cases part with capital | small | digit
  · exact front.cons_capital capital joined
  · obtain ⟨smalls, longest⟩ := front.of_startsSmall (joins_of_small small _ ▸ joined)
    exact .of_smalls (List.cons_ne_nil _ _) (List.forall_mem_cons.2 ⟨small, smalls⟩) longest
  · obtain ⟨digits, longest⟩ := front.of_startsDigit (joins_of_digit digit _ ▸ joined)
    exact .digits (List.cons_ne_nil _ _) (List.forall_mem_cons.2 ⟨digit, digits⟩) longest

/-- A character that does not belong to the word behind it is a word. -/
theorem IsFront.single (part : isWordPart c = true) (apart : joins c rest = false) :
    IsFront [c] rest := by
  rcases isWordPart_cases part with capital | small | digit
  · have alone : ∀ d ∈ [c], isCapital d = true := by simpa using capital
    cases rest with
    | nil => exact .capitals (List.cons_ne_nil _ _) alone rfl rfl
    | cons next rest =>
      rw [joins_of_capital capital, Bool.or_eq_false_iff] at apart
      obtain ⟨notSmall, belongs⟩ := apart
      cases next : isCapital next with
      | true => exact .acronym (List.cons_ne_nil _ _) alone next (by simpa [next] using belongs)
      | false => exact .capitals (List.cons_ne_nil _ _) alone next notSmall
  · exact .of_smalls (List.cons_ne_nil _ _) (by simpa using small) (joins_of_small small _ ▸ apart)
  · exact .digits (List.cons_ne_nil _ _) (by simpa using digit) (joins_of_digit digit _ ▸ apart)

/-- Words join word parts only. -/
theorem isWordPart_of_joins {next : Char} (joined : joins c (next :: rest) = true) :
    isWordPart next = true := by
  rw [joins] at joined
  simp only [isWordPart, Bool.or_eq_true]
  split at joined
  · simp only [Bool.or_eq_true, Bool.and_eq_true] at joined
    rcases joined with small | ⟨capital, -⟩
    · exact .inl (.inr small)
    · exact .inl (.inl capital)
  · split at joined
    · exact .inl (.inr joined)
    · exact .inr joined

/-- The words of a name divide it. -/
theorem isDivision_words (name : List Char) : IsDivision name (words name) := by
  induction name with
  | nil => exact .nil
  | cons c rest ih =>
    unfold words
    split
    case isFalse other => exact .separator (by simpa using other) ih
    case isTrue part =>
      split
      case isFalse apart => exact .word (IsFront.single part (by simpa using apart)) ih
      case isTrue joined =>
        -- What is joined to is no separator, so the division of the rest starts with a word.
        generalize words rest = parts at ih
        cases ih with
        | nil => cases joined
        | word front later => exact .word (front.cons part joined) later
        | separator other => rw [isWordPart_of_joins joined] at other; cases other

/-- Characters of a kind are a word if each belongs to what starts with the kind, and to nothing
else. -/
theorem words_run {kind : Char → Bool} (part : ∀ c, kind c = true → isWordPart c = true)
    (joins_eq : ∀ c, kind c = true → ∀ text, joins c text = starts kind text)
    (some : word ≠ []) (each : ∀ c ∈ word, kind c = true) (longest : starts kind rest = false) :
    words (word ++ rest) = word :: words rest := by
  induction word with
  | nil => exact absurd rfl some
  | cons c word ih =>
    obtain ⟨here, others⟩ := List.forall_mem_cons.1 each
    rw [List.cons_append, words, if_pos (part c here), joins_eq c here]
    cases word with
    | nil => simp [longest]
    | cons d word =>
      have next : starts kind (d :: word ++ rest) = true := others d List.mem_cons_self
      rw [if_pos next, ih (List.cons_ne_nil _ _) others]
      rfl

theorem words_smalls (some : word ≠ []) (smalls : ∀ c ∈ word, isSmall c = true)
    (longest : starts isSmall rest = false) : words (word ++ rest) = word :: words rest :=
  words_run (fun c small => by simp [isWordPart, small]) (fun _ small => joins_of_small small) some
    smalls longest

theorem words_digits (some : word ≠ []) (digits : ∀ c ∈ word, isDecimalDigit c = true)
    (longest : starts isDecimalDigit rest = false) : words (word ++ rest) = word :: words rest :=
  words_run (fun c digit => by simp [isWordPart, digit]) (fun _ digit => joins_of_digit digit) some
    digits longest

/-- Capitals are a word if no small letter follows, and what follows is not joined to the last. -/
theorem words_capitals (some : word ≠ []) (capitals : ∀ c ∈ word, isCapital c = true)
    (alone : starts isSmall rest = false)
    (apart : ∀ c, isCapital c = true → joins c rest = false) :
    words (word ++ rest) = word :: words rest := by
  induction word with
  | nil => exact absurd rfl some
  | cons c word ih =>
    obtain ⟨capital, others⟩ := List.forall_mem_cons.1 capitals
    have part : isWordPart c = true := by simp [isWordPart, capital]
    rw [List.cons_append, words, if_pos part]
    cases word with
    | nil => simp [apart c capital]
    | cons d word =>
      obtain ⟨capitalNext, later⟩ := List.forall_mem_cons.1 others
      -- No small letter stands behind the second capital, so the first is joined to it.
      have behind : starts isSmall (word ++ rest) = false := by
        cases word with
        | nil => exact alone
        | cons e word => exact isSmall_of_capital (later e List.mem_cons_self)
      have joined : joins c (d :: word ++ rest) = true := by
        simp [joins_of_capital capital, capitalNext, behind]
      rw [if_pos joined, ih (List.cons_ne_nil _ _) others]
      rfl

/-- The word at the front is the first that is found. -/
theorem IsFront.words (front : IsFront word rest) :
    Naming.words (word ++ rest) = word :: Naming.words rest := by
  cases front with
  | @acronym word next rest some capitals capital small =>
    refine words_capitals some capitals (isSmall_of_capital capital) fun c last => ?_
    simp [joins_of_capital last, isSmall_of_capital capital, small]
  | @ordinary lead word rest capital some smalls longest =>
    have found := words_smalls some smalls longest
    cases lead with
    | none => exact found
    | some c =>
      have capital : isCapital c = true := capital c rfl
      have part : isWordPart c = true := by simp [isWordPart, capital]
      obtain ⟨first, others, rfl⟩ := List.exists_cons_of_ne_nil some
      have joined : joins c (first :: others ++ rest) = true := by
        simp [joins_of_capital capital, smalls first List.mem_cons_self]
      show Naming.words (c :: (first :: others ++ rest)) = _
      rw [Naming.words, if_pos part, if_pos joined, found]
      rfl
  | capitals some capitals longest alone =>
    refine words_capitals some capitals alone fun c last => ?_
    cases rest with
    | nil => rfl
    | cons next rest =>
      have other : isCapital next = false := longest
      have notSmall : isSmall next = false := alone
      simp [joins_of_capital last, other, notSmall]
  | digits some digits longest => exact words_digits some digits longest

/-- The words of a name are its only division into words. -/
theorem isDivision_iff {parts : List (List Char)} : IsDivision name parts ↔ words name = parts := by
  constructor
  · intro division
    induction division with
    | nil => rfl
    | word front _ ih => rw [front.words, ih]
    | separator other _ ih => simp [words, other, ih]
  · rintro rfl
    exact isDivision_words name

/-! ### Small letters -/

theorem toLower_of_not_capital (other : isCapital c = false) : c.toLower = c := by
  unfold Char.toLower
  split
  case isTrue capital =>
    have least : 0x41 ≤ c.toNat := UInt32.le_iff_toNat_le.1 capital.1
    have most : c.toNat ≤ 0x5A := UInt32.le_iff_toNat_le.1 capital.2
    simp [isCapital, least, most] at other
  case isFalse => rfl

theorem isSmall_toLower (letter : (isCapital c || isSmall c) = true) : isSmall c.toLower = true := by
  have table : ∀ n, n < 128 → (isCapital (Char.ofNat n) || isSmall (Char.ofNat n)) = true →
      isSmall (Char.ofNat n).toLower = true := by
    decide
  exact of_ascii (fun c => (isCapital c || isSmall c) = true → isSmall c.toLower = true) table
    (toNat_lt_of_letter letter) letter

/-- Lower case is a matter of the single character: there is no sigma and no dotted capital. -/
def IsLowered (c : Char) : Prop :=
  c.toNat ≠ 0x3A3 ∧ c.toNat ≠ 0x130 ∧ Text.lowerLetter c = c.toLower

theorem isLowered_of_ascii (small : c.toNat < 128) : IsLowered c := by
  have table : ∀ n, n < 128 → (Char.ofNat n).toLower.toNat =
      if 0x41 ≤ n ∧ n ≤ 0x5A then n + 32 else n := by
    decide
  refine ⟨by omega, by omega, Char.toNat_inj.1 ?_⟩
  have lowered := Text.lowerLetter_of_ascii c.toNat small
  rw [← table c.toNat small] at lowered
  rwa [Char.ofNat_toNat] at lowered

theorem lower?_of_outside {run : Text.LowerRun} {n : Nat} (advances : 0 < run.step)
    (outside : n < run.first ∨ run.first + run.count * run.step ≤ n) : run.lower? n = none := by
  refine if_neg fun inside => ?_
  simp only [Bool.and_eq_true, decide_eq_true_eq, Nat.div_lt_iff_lt_mul advances] at inside
  omega

/-- No script has a capital among its digits. -/
theorem isLowered_of_digit (digit : isDecimalDigit c = true) : IsLowered c := by
  have apart : ∀ first ∈ Text.zeros, ∀ run ∈ Text.lowerRuns, first + 10 ≤ run.first ∨
      run.first + run.count * run.step ≤ first := by
    decide +kernel
  have advances : ∀ run ∈ Text.lowerRuns, 0 < run.step := by
    decide +kernel
  have plain : ∀ first ∈ Text.zeros, ∀ value, value < 10 →
      first + value ≠ 0x3A3 ∧ first + value ≠ 0x130 := by
    decide +kernel
  obtain ⟨other, -⟩ := not_letter_of_digit digit
  simp only [isDecimalDigit, List.any_eq_true, Bool.and_eq_true, decide_eq_true_eq] at digit
  obtain ⟨first, known, least, most⟩ := digit
  -- The place of the digit in its row decides that it is none of the two letters with own rules.
  obtain ⟨notSigma, notDotted⟩ := plain first known (c.toNat - first) (by omega)
  refine ⟨by omega, by omega, ?_⟩
  have none : Text.lowerRuns.findSome? (Text.LowerRun.lower? · c.toNat) = none := by
    refine List.findSome?_eq_none_iff.2 fun run member => ?_
    have outside := apart first known run member
    exact lower?_of_outside (advances run member) (by omega)
  rw [Text.lowerLetter, none, toLower_of_not_capital other]

theorem isLowered_of_part (part : isWordPart c = true) : IsLowered c := by
  rcases isWordPart_cases part with capital | small | digit
  · exact isLowered_of_ascii (toNat_lt_of_letter (Bool.or_eq_true_iff.2 (.inl capital)))
  · exact isLowered_of_ascii (toNat_lt_of_letter (Bool.or_eq_true_iff.2 (.inr small)))
  · exact isLowered_of_digit digit

theorem lowerCaseAfter_eq_map {text : List Char} (each : ∀ c ∈ text, IsLowered c)
    (before : List Char) : Text.lowerCaseAfter before text = text.map Char.toLower := by
  induction text generalizing before with
  | nil => rfl
  | cons c text ih =>
    obtain ⟨⟨notSigma, notDotted, same⟩, others⟩ := List.forall_mem_cons.1 each
    simp [Text.lowerCaseAfter, notSigma, notDotted, same, ih others]

theorem lowerCase_eq_map {text : List Char} (each : ∀ c ∈ text, IsLowered c) :
    Text.lowerCase text = text.map Char.toLower :=
  lowerCaseAfter_eq_map each []

/-! ### Words that are found again -/

/-- A word of small letters only or of digits only. -/
structure IsPlain (word : List Char) : Prop where
  some : word ≠ []
  alike : (∀ c ∈ word, isSmall c = true) ∨ ∀ c ∈ word, isDecimalDigit c = true

/-- A word is plain once its letters are small. -/
theorem IsFront.isPlain_lowerWord (front : IsFront word rest) : IsPlain (lowerWord word) := by
  have small {word : List Char}
      (letters : ∀ c ∈ word, (isCapital c || isSmall c) = true) :
      ∀ c ∈ lowerWord word, isSmall c = true := by
    intro c member
    obtain ⟨before, known, rfl⟩ := List.mem_map.1 member
    exact isSmall_toLower (letters before known)
  have lowered {word : List Char} (some : word ≠ []) : lowerWord word ≠ [] := by
    simpa [lowerWord] using some
  cases front with
  | acronym some capitals | capitals some capitals =>
    exact ⟨lowered some, .inl (small fun c member => by simp [capitals c member])⟩
  | @ordinary lead word _ capital some smalls =>
    refine ⟨lowered (by simp [some]), .inl (small fun c member => ?_)⟩
    rcases List.mem_append.1 member with first | later
    · simp [capital c (Option.mem_toList.1 first)]
    · simp [smalls c later]
  | digits some digits =>
    refine ⟨lowered some, .inr fun c member => ?_⟩
    obtain ⟨before, known, rfl⟩ := List.mem_map.1 member
    have digit := digits before known
    rwa [toLower_of_not_capital (not_letter_of_digit digit).1]

theorem IsDivision.exists_isFront {parts : List (List Char)} (division : IsDivision name parts)
    (member : word ∈ parts) : ∃ rest, IsFront word rest := by
  induction division with
  | nil => cases member
  | word front _ ih =>
    rcases List.mem_cons.1 member with rfl | later
    · exact ⟨_, front⟩
    · exact ih later
  | separator _ _ ih => exact ih member

/-- The words of a name are plain once their letters are small. -/
theorem isPlain_of_mem_lowered (member : word ∈ (words name).map lowerWord) : IsPlain word := by
  obtain ⟨original, known, rfl⟩ := List.mem_map.1 member
  obtain ⟨_, front⟩ := (isDivision_words name).exists_isFront known
  exact front.isPlain_lowerWord

theorem IsPlain.isCapital_eq (plain : IsPlain word) (member : c ∈ word) : isCapital c = false := by
  rcases plain.alike with smalls | digits
  · exact isCapital_of_small (smalls c member)
  · exact (not_letter_of_digit (digits c member)).1

/-- A plain word has no capital that could be made small. -/
theorem IsPlain.lowerWord_eq (plain : IsPlain word) : lowerWord word = word :=
  (List.map_congr_left fun _ member => toLower_of_not_capital (plain.isCapital_eq member)).trans
    (List.map_id _)

theorem IsPlain.not_mem_hyphen (plain : IsPlain word) : '-' ∉ word := by
  intro member
  rcases plain.alike with smalls | digits
  · exact absurd (smalls '-' member) (by decide)
  · exact absurd (digits '-' member) (by decide)

/-- A plain word at the end of a name or before a hyphen is found as it is. -/
theorem IsPlain.words_append (plain : IsPlain word) (behind : rest = [] ∨ rest.head? = Option.some '-') :
    words (word ++ rest) = word :: words rest := by
  have longest {kind : Char → Bool} (other : kind '-' = false) : starts kind rest = false := by
    rcases behind with rfl | hyphen
    · rfl
    · simp [starts, hyphen, other]
  rcases plain.alike with smalls | digits
  · exact words_smalls plain.some smalls (longest (by decide))
  · exact words_digits plain.some digits (longest (by decide))

/-- Plain words with hyphens between them are found again. -/
theorem words_joinWith {parts : List (List Char)} (plain : ∀ word ∈ parts, IsPlain word) :
    words (joinWith '-' parts) = parts := by
  induction parts with
  | nil => rfl
  | cons word parts ih =>
    obtain ⟨here, others⟩ := List.forall_mem_cons.1 plain
    cases parts with
    | nil => simpa [joinWith, words] using here.words_append (.inl rfl)
    | cons next parts =>
      have hyphen : isWordPart '-' = false := by decide
      rw [Text.joinWith_cons (List.cons_ne_nil _ _), here.words_append (.inr rfl)]
      simp [words, hyphen, ih others]

theorem filter_joinWith {parts : List (List Char)} (clean : ∀ word ∈ parts, '-' ∉ word) :
    (joinWith '-' parts).filter (· ≠ '-') = parts.flatten := by
  induction parts with
  | nil => rfl
  | cons word parts ih =>
    obtain ⟨here, others⟩ := List.forall_mem_cons.1 clean
    have kept : word.filter (· ≠ '-') = word :=
      List.filter_eq_self.2 fun c member => by
        have differs : c ≠ '-' := by rintro rfl; exact here member
        simpa using differs
    cases parts with
    | nil => simpa [joinWith] using kept
    | cons next parts =>
      rw [Text.joinWith_cons (List.cons_ne_nil _ _), List.filter_append, kept]
      simpa using ih others

/-! ### Names in small letters -/

/-- A name in small letters has the words of the name in small letters. -/
theorem words_kebabCase (name : String) :
    words (kebabCase name).toList = (words name.toList).map lowerWord := by
  rw [kebabCase, String.toList_ofList]
  exact words_joinWith fun _ => isPlain_of_mem_lowered

theorem map_lowerWord_lowered (name : List Char) :
    ((words name).map lowerWord).map lowerWord = (words name).map lowerWord :=
  (List.map_congr_left fun _ member => (isPlain_of_mem_lowered member).lowerWord_eq).trans
    (List.map_id _)

theorem words_eq_nil_iff {name : List Char} :
    words name = [] ↔ ∀ c ∈ name, isWordPart c = false := by
  constructor
  · intro none
    have kept := flatten_words name
    rw [none] at kept
    simpa using kept.symm
  · intro other
    refine isDivision_iff.1 ?_
    induction name with
    | nil => exact .nil
    | cons c rest ih =>
      obtain ⟨here, others⟩ := List.forall_mem_cons.1 other
      exact .separator here (ih others)

/-- Without its hyphens a name in small letters has the letters and digits of the name. -/
theorem filter_kebabCase (name : String) :
    (kebabCase name).toList.filter (· ≠ '-') =
      Text.lowerCase (name.toList.filter isWordPart) := by
  have parts : ∀ c ∈ name.toList.filter isWordPart, IsLowered c := fun c member =>
    isLowered_of_part (List.mem_filter.1 member).2
  rw [kebabCase, String.toList_ofList,
    filter_joinWith fun _ member => (isPlain_of_mem_lowered member).not_mem_hyphen,
    lowerCase_eq_map parts, ← flatten_words, List.map_flatten]
  rfl

/-- Where a name has no words its two forms differ: the one is empty, the other the name itself. -/
theorem camelCase_kebabCase_iff (name : String) :
    camelCase (kebabCase name) = camelCase name ↔
      name = "" ∨ ∃ c ∈ name.toList, isWordPart c = true := by
  have lowered : (words (kebabCase name).toList).map lowerWord = (words name.toList).map lowerWord := by
    rw [words_kebabCase, map_lowerWord_lowered]
  cases parts : words name.toList with
  | nil =>
    have none := words_eq_nil_iff.1 parts
    have empty : kebabCase name = "" := by simp [kebabCase, parts, joinWith]
    have same : camelCase name = name := by simp [camelCase, parts]
    rw [empty, same]
    constructor
    · rintro rfl
      exact .inl rfl
    · rintro (rfl | ⟨c, member, part⟩)
      · rfl
      · rw [none c member] at part; cases part
  | cons first others =>
    have some : ∃ c ∈ name.toList, isWordPart c = true := by
      by_contra absent
      have none : words name.toList = [] := words_eq_nil_iff.2 (by simpa using absent)
      rw [parts] at none
      cases none
    have same : camelCase (kebabCase name) = camelCase name := by
      simp only [camelCase, lowered, parts, List.map_cons]
    exact ⟨fun _ => .inr some, fun _ => same⟩

/-- The words of a name lose none of its letters and digits, and the name in small letters is made
of them. A second change to small letters does nothing, and the name in small letters has the same
form with capitals, unless it has no words at all. -/
theorem casing_stable (name : String) :
    (words name.toList).flatten = name.toList.filter isWordPart ∧
      (kebabCase name).toList.filter (· ≠ '-') =
        Text.lowerCase (name.toList.filter isWordPart) ∧
      kebabCase (kebabCase name) = kebabCase name ∧
      (camelCase (kebabCase name) = camelCase name ↔
        name = "" ∨ ∃ c ∈ name.toList, isWordPart c = true) := by
  refine ⟨flatten_words _, filter_kebabCase name, ?_, camelCase_kebabCase_iff name⟩
  calc kebabCase (kebabCase name)
      = String.ofList (joinWith '-' ((words (kebabCase name).toList).map lowerWord)) := rfl
    _ = kebabCase name := by rw [words_kebabCase, map_lowerWord_lowered]; rfl

end ComponentCompiler.Naming
