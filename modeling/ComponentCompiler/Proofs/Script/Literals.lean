import ComponentCompiler.Proofs.Script.Scanners

/-!
# Literals in front of a closer

The scanners of numbers, strings, templates, regular expressions and character references take the
same characters whether or not a closer is added to the text. A number may reach to the end of the
text; what it could go on with are letters, digits and a decimal point, and no closer is one of
these. The other literals end with a character of their own.

## Main definitions

* `signLength`, `fractionLength` — the parts of a number after its first digits
* `closedRunLength` — a run of characters up to a semicolon

## Main results

* `isStable_numberLength`, `isStableOption_stringLength`, `templateTextLength_append`,
  `isStableOption_regexLength`, `isStableOption_characterReferenceLength`
-/

namespace ComponentCompiler.Script

variable {text back : List Char} {d : Char} {n : Nat}

/-! ### Numbers -/

section
variable {test : Char → Bool} (underscore : test '_' = false) (stops : test d = false)
  (apart : d ≠ '_')
include underscore stops apart

theorem digitRun_append_cons : digitRun test (text ++ d :: back) = digitRun test text := by
  fun_induction digitRun test text with
  | case1 c rest digit ih => simp [digitRun, digit, ih]
  | case2 c rest other => simp [digitRun, other]
  | case3 c rest single digit ih =>
    rw [List.cons_append, digitRun, if_pos digit, ih]
    rintro second after rfl -
    rw [underscore] at digit
    cases digit
  | case4 c rest single other =>
    cases rest with
    | nil =>
      by_cases first : c = '_'
      · subst first
        simp [digitRun, stops]
      · rw [List.cons_append, digitRun, if_neg other]
        exact fun second after same => absurd same first
    | cons second rest =>
      rw [List.cons_append, digitRun, if_neg other]
      intro next after first same
      exact single second rest first rfl
  | case5 =>
    rw [List.nil_append, digitRun, if_neg (by simp [stops])]
    exact fun second after first same => apart first

theorem digitsLength_append_cons :
    digitsLength test (text ++ d :: back) = digitsLength test text := by
  have run : digitRun test (text ++ d :: back) = digitRun test text :=
    digitRun_append_cons underscore stops apart
  cases text with
  | nil =>
    rw [List.nil_append] at run ⊢
    rw [digitsLength, run]
    · rfl
    · exact fun after same => apart (List.cons.inj same).1
  | cons c rest =>
    by_cases first : c = '_'
    · subst first
      rfl
    · rw [List.cons_append] at run ⊢
      rw [digitsLength, digitsLength, run]
      · exact fun after same => first (List.cons.inj same).1
      · exact fun after same => first (List.cons.inj same).1

theorem markedDigits_append_cons (short : digitsLength test text ≤ text.length) (other : d ≠ 'n') :
    markedDigits test (text ++ d :: back) = markedDigits test text := by
  unfold markedDigits
  rw [digitsLength_append_cons underscore stops apart]
  split
  · rfl
  · rw [List.drop_append_of_le_length short]
    cases text.drop (digitsLength test text) with
    | nil => simp [other]
    | cons c rest => rfl

end

theorem digitRun_le (test : Char → Bool) (text : List Char) :
    digitRun test text ≤ text.length := by
  fun_induction digitRun test text with
  | case1 c rest digit ih => simpa using ih
  | case2 c rest other => exact Nat.zero_le _
  | case3 c rest single digit ih => simpa using ih
  | case4 c rest single other => exact Nat.zero_le _
  | case5 => exact Nat.le_refl _

theorem digitsLength_le (test : Char → Bool) (text : List Char) :
    digitsLength test text ≤ text.length := by
  unfold digitsLength
  split
  · exact Nat.zero_le _
  · exact digitRun_le test text

theorem markedDigits_le (test : Char → Bool) (text : List Char) :
    markedDigits test text ≤ text.length + 2 := by
  have short := digitsLength_le test text
  unfold markedDigits
  split
  · exact Nat.zero_le _
  · next digits =>
    split
    · next big =>
      obtain ⟨after, same⟩ := List.head?_eq_some_iff.1 (beq_iff_eq.1 big)
      have length := congrArg List.length same
      simp only [List.length_drop, List.length_cons] at length
      omega
    · omega

section
variable {test : Char → Bool} (stops : ∀ {d}, isCloser d = true → test d = false)
  (underscore : test '_' = false)
include stops underscore

theorem isStable_digitsLength : IsStable (digitsLength test) where
  le := digitsLength_le test
  closed _ _ _ closer :=
    digitsLength_append_cons underscore (stops closer) (ne_of_isCloser closer rfl)

theorem isStable_markedDigits :
    (∀ text, markedDigits test text ≤ text.length + 2) ∧
      ∀ text {d : Char} (back : List Char), isCloser d = true →
        markedDigits test (text ++ d :: back) = markedDigits test text :=
  ⟨markedDigits_le test, fun text _ _ closer =>
    markedDigits_append_cons underscore (stops closer) (ne_of_isCloser closer rfl)
      (digitsLength_le test text) (ne_of_isCloser closer rfl)⟩

end

theorem isStable_decimalDigits : IsStable (digitsLength isDigit) :=
  isStable_digitsLength (rejects_closer isDigit rfl rfl rfl) rfl

/-- The length of the sign at the front. -/
def signLength : List Char → Nat
  | '+' :: _ | '-' :: _ => 1
  | _ => 0

theorem isStable_signLength : IsStable signLength := by
  constructor
  · intro text
    fun_cases signLength text <;> simp
  · intro text d back closer
    have plus : d ≠ '+' := ne_of_isCloser closer rfl
    have minus : d ≠ '-' := ne_of_isCloser closer rfl
    cases text with
    | nil => simp [signLength, plus, minus]
    | cons c rest =>
      by_cases positive : c = '+'
      · simp [signLength, positive]
      · by_cases negative : c = '-'
        · simp [signLength, negative]
        · simp [signLength, positive, negative]

theorem exponentLength_cons (c : Char) (rest : List Char) :
    exponentLength (c :: rest) =
      if (c == 'e' || c == 'E') ∧ digitsLength isDigit (rest.drop (signLength rest)) ≠ 0 then
        digitsLength isDigit (rest.drop (signLength rest)) + signLength rest + 1
      else 0 := by
  by_cases exponent : (c == 'e' || c == 'E') = true
  · simp only [exponentLength, exponent, if_true, true_and]
    fun_cases signLength rest with
    | case1 after =>
      simp only [List.drop_succ_cons, List.drop_zero]
      cases digitsLength isDigit after <;> simp
    | case2 after =>
      simp only [List.drop_succ_cons, List.drop_zero]
      cases digitsLength isDigit after <;> simp
    | case3 =>
      simp only [List.drop_zero]
      cases digitsLength isDigit rest <;> simp
  · simp [exponentLength, exponent]

theorem isStable_exponentLength : IsStable exponentLength := by
  obtain ⟨le, closed⟩ := isStable_decimalDigits
  have sign := isStable_signLength
  constructor
  · intro text
    cases text with
    | nil => exact Nat.le_refl _
    | cons c rest =>
      have short := le (rest.drop (signLength rest))
      have signed := sign.le rest
      rw [List.length_drop] at short
      rw [exponentLength_cons, List.length_cons]
      split
      · omega
      · omega
  · intro text d back closer
    cases text with
    | nil =>
      have first : (d == 'e' || d == 'E') = false :=
        rejects_closer (fun c => c == 'e' || c == 'E') rfl rfl rfl closer
      rw [List.nil_append, exponentLength_cons, if_neg (by simp [first])]
      rfl
    | cons c rest =>
      rw [List.cons_append, exponentLength_cons, exponentLength_cons, sign.closed rest back closer,
        List.drop_append_of_le_length (sign.le rest), closed _ back closer]

/-- The length of what may follow the first digits of a decimal literal. -/
def fractionLength (text : List Char) : Nat :=
  if text.head? = some 'n' then 1
  else if text.head? = some '.' then
    1 + digitsLength isDigit (text.drop 1) +
      exponentLength ((text.drop 1).drop (digitsLength isDigit (text.drop 1)))
  else exponentLength text

theorem decimalLength_eq (text : List Char) :
    decimalLength text = digitsLength isDigit text +
      fractionLength (text.drop (digitsLength isDigit text)) := by
  simp only [decimalLength]
  generalize text.drop (digitsLength isDigit text) = rest
  cases rest with
  | nil => rfl
  | cons c rest =>
    by_cases big : c = 'n'
    · simp [fractionLength, big]
    · by_cases point : c = '.'
      · simp [fractionLength, point]
        omega
      · simp [fractionLength, big, point]

theorem isStable_fractionLength : IsStable fractionLength := by
  obtain ⟨le, closed⟩ := isStable_decimalDigits
  obtain ⟨leExp, closedExp⟩ := isStable_exponentLength
  constructor
  · intro text
    cases text with
    | nil => exact Nat.le_refl _
    | cons c rest =>
      have fraction := le rest
      have short := leExp (rest.drop (digitsLength isDigit rest))
      have whole := leExp (c :: rest)
      rw [List.length_drop] at short
      simp only [List.length_cons] at whole
      simp only [fractionLength, List.drop_succ_cons, List.drop_zero, List.length_cons]
      split
      · omega
      · split
        · omega
        · omega
  · intro text d back closer
    cases text with
    | nil =>
      have big : d ≠ 'n' := ne_of_isCloser closer rfl
      have point : d ≠ '.' := ne_of_isCloser closer rfl
      have none := closedExp [] back closer
      rw [List.nil_append] at none
      simp [fractionLength, big, point, none]
    | cons c rest =>
      have whole := closedExp (c :: rest) back closer
      rw [List.cons_append] at whole
      simp only [List.cons_append, fractionLength, List.head?_cons, List.drop_succ_cons,
        List.drop_zero, closed rest back closer, List.drop_append_of_le_length (le rest),
        closedExp _ back closer, whole]

theorem isStable_decimalLength : IsStable decimalLength := by
  obtain ⟨le, closed⟩ := isStable_decimalDigits
  obtain ⟨leRest, closedRest⟩ := isStable_fractionLength
  constructor
  · intro text
    have whole := le text
    have short := leRest (text.drop (digitsLength isDigit text))
    rw [List.length_drop] at short
    rw [decimalLength_eq]
    omega
  · intro text d back closer
    rw [decimalLength_eq, decimalLength_eq, closed text back closer,
      List.drop_append_of_le_length (le text), closedRest _ back closer]

/-- A literal that starts with a decimal point. -/
theorem numberLength_point (rest : List Char) :
    numberLength ('.' :: rest) =
      if digitsLength isDigit rest = 0 then 0
      else digitsLength isDigit rest + 1 +
        exponentLength (rest.drop (digitsLength isDigit rest)) := by
  simp only [numberLength]
  cases digitsLength isDigit rest <;> simp

theorem isStable_numberLength : IsStable numberLength := by
  obtain ⟨le, closed⟩ := isStable_decimalDigits
  obtain ⟨leExp, closedExp⟩ := isStable_exponentLength
  obtain ⟨leDecimal, closedDecimal⟩ := isStable_decimalLength
  have hex := isStable_markedDigits (rejects_closer isHexDigit rfl rfl rfl) rfl
  have octal := isStable_markedDigits (rejects_closer isOctalDigit rfl rfl rfl) rfl
  have binary := isStable_markedDigits
    (rejects_closer (fun c => c == '0' || c == '1') rfl rfl rfl) rfl
  constructor
  · intro text
    unfold numberLength
    split
    · next mark rest =>
      have hexShort := hex.1 rest
      have octalShort := octal.1 rest
      have binaryShort := binary.1 rest
      have decimalShort := leDecimal ('0' :: mark :: rest)
      simp only [List.length_cons] at decimalShort ⊢
      split
      · omega
      · split
        · omega
        · split
          · omega
          · omega
    · next rest =>
      have fraction := le rest
      have short := leExp (rest.drop (digitsLength isDigit rest))
      rw [List.length_drop] at short
      simp only [List.length_cons]
      split
      · exact Nat.zero_le _
      · omega
    · next c rest _ _ =>
      split
      · exact leDecimal _
      · exact Nat.zero_le _
    · exact Nat.le_refl _
  · intro text d back closer
    have notDigit : isDigit d = false := rejects_closer isDigit rfl rfl rfl closer
    have point : d ≠ '.' := ne_of_isCloser closer rfl
    have zero : d ≠ '0' := ne_of_isCloser closer rfl
    cases text with
    | nil =>
      rw [List.nil_append, numberLength]
      · simp [notDigit]
        rfl
      · exact fun _ _ same _ => zero same
      · exact point
    | cons c rest =>
      have decimal := closedDecimal (c :: rest) back closer
      rw [List.cons_append] at decimal ⊢
      by_cases fraction : c = '.'
      · subst fraction
        rw [numberLength_point, numberLength_point, closed rest back closer,
          List.drop_append_of_le_length (le rest), closedExp _ back closer]
      · by_cases marked : c = '0'
        · subst marked
          cases rest with
          | nil =>
            have mark : (d == 'x' || d == 'X' || d == 'o' || d == 'O' || d == 'b' || d == 'B') =
                false :=
              rejects_closer (fun c => c == 'x' || c == 'X' || c == 'o' || c == 'O' || c == 'b' ||
                c == 'B') rfl rfl rfl closer
            simp only [Bool.or_eq_false_iff] at mark
            have digit : isDigit '0' = true := rfl
            simpa [numberLength, mark, digit] using decimal
          | cons mark rest =>
            simp only [List.cons_append] at decimal
            simp only [List.cons_append, numberLength, decimal, hex.2 rest back closer,
              octal.2 rest back closer, binary.2 rest back closer]
        · simp [numberLength, marked, decimal]

/-! ### Strings, templates and regular expressions -/

theorem isStableOption_escapeBodyLength : IsStableOption escapeBodyLength := by
  constructor
  · intro text n found
    unfold escapeBodyLength at found
    split at found
    · cases found
    · split at found
      · cases found
        simp
      · cases found
    · cases found
    · next rest =>
      have short := unicodeEscapeLength_le ('\\' :: 'u' :: rest)
      split at found
      · cases found
      · next m escape =>
        cases found
        rw [escape] at short
        exact Nat.le_of_succ_le_succ short
    · cases found
      simp
    · next c rest _ _ _ _ =>
      have short := runLength_le isOctalDigit rest
      split at found
      · cases found
        simp only [List.length_cons]
        omega
      · cases found
        simp
  · intro text n d back found closer
    unfold escapeBodyLength at found
    split at found
    · cases found
    · exact found
    · cases found
    · next rest =>
      split at found
      · cases found
      · next m escape =>
        cases found
        have same : unicodeEscapeLength ('\\' :: 'u' :: rest ++ d :: back) =
            unicodeEscapeLength ('\\' :: 'u' :: rest) :=
          unicodeEscapeLength_append (by rw [escape]; exact Nat.succ_ne_zero _) closer
        rw [escape, List.cons_append, List.cons_append] at same
        rw [List.cons_append, escapeBodyLength, same]
    · exact found
    · next c rest _ notHex notUnicode notLine =>
      rw [List.cons_append, escapeBodyLength,
        runLength_append_cons _ _ _ (rejects_closer isOctalDigit rfl rfl rfl closer)]
      · exact found
      · exact fun _ _ _ same _ => notHex same
      · exact notHex
      · exact notUnicode
      · intro after carriage same
        cases rest with
        | nil => exact ne_of_isCloser closer rfl (List.cons.inj same).1
        | cons first rest => exact notLine rest carriage (by rw [(List.cons.inj same).1])

theorem isStableOption_stringTail (quote : Char) (passed : Nat) :
    IsStableOption (stringTail quote passed) := by
  constructor
  · intro text n found
    induction text generalizing passed n with
    | nil => cases passed <;> cases found
    | cons c rest ih =>
      cases passed with
      | succ passed => exact le_of_map_succ found (ih _)
      | zero =>
        unfold stringTail at found
        split at found
        · cases found
          simp
        · split at found
          · cases found
          · split at found
            · split at found
              · cases found
              · exact le_of_map_succ found (ih _)
            · exact le_of_map_succ found (ih _)
  · intro text n d back found closer
    induction text generalizing passed n with
    | nil => cases passed <;> cases found
    | cons c rest ih =>
      rw [List.cons_append]
      cases passed with
      | succ passed => exact map_eq_some_of_imp found (ih _)
      | zero =>
        unfold stringTail at found ⊢
        split at found
        · next same => rw [if_pos same, found]
        · next other =>
          rw [if_neg other]
          split at found
          · cases found
          · next inLine =>
            rw [if_neg inLine]
            split at found
            · next backslash =>
              rw [if_pos backslash]
              split at found
              · cases found
              · next m escape =>
                rw [isStableOption_escapeBodyLength.closed back escape closer]
                exact map_eq_some_of_imp found (ih _)
            · next plain =>
              rw [if_neg plain]
              exact map_eq_some_of_imp found (ih _)

theorem isStableOption_stringLength : IsStableOption stringLength := by
  constructor
  · intro text n found
    unfold stringLength at found
    split at found
    · split at found
      · exact le_of_map_succ found (isStableOption_stringTail _ 0).le
      · cases found
    · cases found
  · intro text n d back found closer
    unfold stringLength at found
    split at found
    · next c rest =>
      split at found
      · next quote =>
        rw [List.cons_append, stringLength, if_pos quote]
        exact map_eq_some_of_imp found fun inner =>
          (isStableOption_stringTail _ 0).closed back inner closer
      · cases found
    · cases found

/-- The literal text of a template ends before the text does. -/
theorem templateTextLength_lt {passed : Nat} (found : templateTextLength passed text = some n) :
    n < text.length := by
  induction text generalizing passed n with
  | nil => cases passed <;> cases found
  | cons c rest ih =>
    have further {passed m : Nat} (found : (templateTextLength passed rest).map (· + 1) = some m) :
        m < (c :: rest).length := by
      obtain ⟨k, inner, rfl⟩ := Option.map_eq_some_iff.1 found
      exact Nat.succ_lt_succ (ih inner)
    unfold templateTextLength at found
    split at found
    · next same => cases same
    · next same =>
      cases same
      exact further found
    · cases found
      exact Nat.zero_lt_succ _
    · next same =>
      cases same
      split at found
      · cases found
        exact Nat.zero_lt_succ _
      · split at found
        · split at found
          · cases found
          · exact further found
        · exact further found

/-- The literal text of a template ends before a backtick or a substitution. -/
theorem drop_templateTextLength {passed : Nat} (found : templateTextLength passed text = some n) :
    (text.drop n).head? = some '\x60' ∨ ['$', '\x7b'] <+: text.drop n := by
  induction text generalizing passed n with
  | nil => cases passed <;> cases found
  | cons c rest ih =>
    have further {passed m : Nat} (found : (templateTextLength passed rest).map (· + 1) = some m) :
        ((c :: rest).drop m).head? = some '\x60' ∨ ['$', '\x7b'] <+: (c :: rest).drop m := by
      obtain ⟨k, inner, rfl⟩ := Option.map_eq_some_iff.1 found
      exact ih inner
    unfold templateTextLength at found
    split at found
    · next same => cases same
    · next same =>
      cases same
      exact further found
    · next after same =>
      cases found
      exact .inr ⟨after, same.symm⟩
    · next same =>
      cases same
      split at found
      · next tick =>
        cases found
        exact .inl (congrArg some (Char.toNat_inj.1 (beq_iff_eq.1 tick)))
      · split at found
        · split at found
          · cases found
          · exact further found
        · exact further found

theorem templateTextLength_append {passed : Nat} (found : templateTextLength passed text = some n)
    (closer : isCloser d = true) :
    templateTextLength passed (text ++ d :: back) = some n := by
  induction text generalizing passed n with
  | nil => cases passed <;> cases found
  | cons c rest ih =>
    rw [List.cons_append]
    cases passed with
    | succ passed => exact map_eq_some_of_imp found ih
    | zero =>
      by_cases substitution : ∃ after, c = '$' ∧ rest = '\x7b' :: after
      · obtain ⟨after, rfl, rfl⟩ := substitution
        exact found
      · have plain : ∀ after, c = '$' → rest = '\x7b' :: after → False :=
          fun after dollar same => substitution ⟨after, dollar, same⟩
        have plainAfter : ∀ after, c = '$' → rest ++ d :: back = '\x7b' :: after → False := by
          intro after dollar same
          cases rest with
          | nil => exact ne_of_isCloser closer rfl (List.cons.inj same).1
          | cons first rest => exact plain rest dollar (by rw [(List.cons.inj same).1])
        rw [templateTextLength] at found ⊢
        · split at found
          · next tick => rw [if_pos tick, found]
          · next other =>
            rw [if_neg other]
            split at found
            · next backslash =>
              rw [if_pos backslash]
              split at found
              · cases found
              · next m escape =>
                rw [isStableOption_escapeBodyLength.closed back escape closer]
                exact map_eq_some_of_imp found ih
            · next plain =>
              rw [if_neg plain]
              exact map_eq_some_of_imp found ih
        · exact plainAfter
        · exact plain

theorem isStableOption_regexTail (inClass : Bool) : IsStableOption (regexTail inClass) := by
  constructor
  · intro text n found
    fun_induction regexTail inClass text generalizing n with
    | case1 => cases found
    | case2 => cases found
    | case3 inClass c rest inLine ih =>
      obtain ⟨m, inner, rfl⟩ := Option.map_eq_some_iff.1 found
      simpa using ih inner
    | case4 => cases found
    | case5 inClass c rest _ _ _ ih => exact le_of_map_succ found ih
    | case6 inClass c rest _ _ _ _ ih => exact le_of_map_succ found ih
    | case7 =>
      cases found
      simp
    | case8 inClass c rest _ _ _ _ _ ih => exact le_of_map_succ found ih
  · intro text n d back found closer
    fun_induction regexTail inClass text generalizing n with
    | case1 => cases found
    | case2 => cases found
    | case3 inClass c rest inLine ih =>
      rw [List.cons_append, List.cons_append, regexTail, if_neg inLine]
      exact map_eq_some_of_imp found ih
    | case4 => cases found
    | case5 inClass c rest _ inLine opens ih =>
      rw [List.cons_append, regexTail, if_neg inLine, if_pos opens]
      · exact map_eq_some_of_imp found ih
      · rintro second after rfl -
        cases opens
    | case6 inClass c rest _ inLine opens closes ih =>
      rw [List.cons_append, regexTail, if_neg inLine, if_neg opens, if_pos closes]
      · exact map_eq_some_of_imp found ih
      · rintro second after rfl -
        cases closes
    | case7 inClass c rest _ inLine opens closes ends =>
      rw [List.cons_append, regexTail, if_neg inLine, if_neg opens, if_neg closes, if_pos ends]
      · exact found
      · rintro second after rfl -
        cases ends
    | case8 inClass c rest escape inLine opens closes goesOn ih =>
      rw [List.cons_append, regexTail, if_neg inLine, if_neg opens, if_neg closes, if_neg goesOn]
      · exact map_eq_some_of_imp found ih
      · rintro second after rfl -
        cases rest with
        | nil => cases found
        | cons first rest => exact escape first rest rfl rfl

theorem isStableOption_regexLength : IsStableOption regexLength := by
  have stops {d : Char} (closer : isCloser d = true) :
      (decide (0x61 ≤ d.toNat) && decide (d.toNat ≤ 0x7A)) = false :=
    rejects_closer (fun c => 0x61 ≤ c.toNat && c.toNat ≤ 0x7A) rfl rfl rfl closer
  have tail := isStableOption_regexTail false
  constructor
  · intro text n found
    unfold regexLength at found
    split at found
    · cases found
    · cases found
    · next rest _ _ =>
      obtain ⟨body, inner, rfl⟩ := Option.map_eq_some_iff.1 found
      have short := tail.le inner
      have flags := runLength_le (fun c => 0x61 ≤ c.toNat && c.toNat ≤ 0x7A) (rest.drop body)
      rw [List.length_drop] at flags
      simp only [List.length_cons]
      omega
    · cases found
  · intro text n d back found closer
    unfold regexLength at found
    split at found
    · cases found
    · cases found
    · next rest star slash =>
      obtain ⟨body, inner, rfl⟩ := Option.map_eq_some_iff.1 found
      have first {c : Char} (other : isCloser c = false)
          (differs : ∀ after, rest = c :: after → False) (after : List Char) :
          rest ++ d :: back = c :: after → False := by
        intro same
        cases rest with
        | nil => exact ne_of_isCloser closer other (List.cons.inj same).1
        | cons first rest => exact differs rest (by rw [(List.cons.inj same).1])
      rw [List.cons_append, regexLength, tail.closed back inner closer, Option.map_some,
        List.drop_append_of_le_length (tail.le inner), runLength_append_cons _ _ _ (stops closer)]
      · exact first rfl star
      · exact first rfl slash
    · cases found

/-! ### The text between tags -/

/-- The length of a run of at most `most` characters with a semicolon behind it, and of the `around`
characters around the run, the semicolon among them. -/
def closedRunLength (test : Char → Bool) (most around : Nat) (text : List Char) : Option Nat :=
  let n := runLength test text
  if 0 < n && n ≤ most && (text.drop n).head? == some ';' then some (n + around) else none

section
variable {test : Char → Bool} {most around : Nat}
  (found : closedRunLength test most around text = some n)
include found

theorem lt_of_closedRunLength :
    runLength test text < text.length ∧ n = runLength test text + around := by
  simp only [closedRunLength] at found
  split at found
  · next closed =>
    simp only [Bool.and_eq_true, beq_iff_eq] at closed
    obtain ⟨after, same⟩ := List.head?_eq_some_iff.1 closed.2
    have length := congrArg List.length same
    rw [List.length_drop, List.length_cons] at length
    exact ⟨by omega, (Option.some.inj found).symm⟩
  · cases found

theorem closedRunLength_append (more : List Char) :
    closedRunLength test most around (text ++ more) = some n := by
  have short := (lt_of_closedRunLength found).1
  have goesOn : (text.drop (runLength test text)).head? ≠ none := by
    simpa using short
  obtain ⟨first, after, same⟩ := List.exists_cons_of_ne_nil
    (fun none => goesOn (by rw [none]; rfl) : text.drop (runLength test text) ≠ [])
  simp only [closedRunLength, runLength_append short, List.drop_append_of_le_length short.le, same,
    List.cons_append, List.head?_cons] at found ⊢
  exact found

end

theorem characterReferenceLength_numeric (x : Char) (rest : List Char) :
    characterReferenceLength ('&' :: '#' :: x :: rest) =
      if x == 'x' || x == 'X' then closedRunLength isHexDigit 6 4 rest
      else closedRunLength isDigit 5 3 (x :: rest) := by
  by_cases hex : (x == 'x' || x == 'X') = true
  · simp [characterReferenceLength, closedRunLength, hex]
  · simp [characterReferenceLength, closedRunLength, hex]

theorem characterReferenceLength_named {rest : List Char}
    (named : ∀ x after, rest = '#' :: x :: after → False) :
    characterReferenceLength ('&' :: rest) = closedRunLength Char.isAlpha 30 2 rest := by
  rw [characterReferenceLength]
  · rfl
  · exact named

theorem isStableOption_characterReferenceLength : IsStableOption characterReferenceLength := by
  constructor
  · intro text n found
    have text_eq := found
    unfold characterReferenceLength at text_eq
    split at text_eq
    · next x rest =>
      rw [characterReferenceLength_numeric] at found
      simp only [List.length_cons]
      split at found
      · obtain ⟨short, rfl⟩ := lt_of_closedRunLength found
        omega
      · obtain ⟨short, rfl⟩ := lt_of_closedRunLength found
        rw [List.length_cons] at short
        omega
    · next rest named =>
      rw [characterReferenceLength_named named] at found
      obtain ⟨short, rfl⟩ := lt_of_closedRunLength found
      rw [List.length_cons]
      omega
    · cases text_eq
  · intro text n d back found closer
    have text_eq := found
    unfold characterReferenceLength at text_eq
    split at text_eq
    · next x rest =>
      simp only [List.cons_append, characterReferenceLength_numeric] at found ⊢
      split at found
      · next hex => rw [if_pos hex, closedRunLength_append found]
      · next decimal =>
        rw [if_neg decimal, ← List.cons_append, closedRunLength_append found]
    · next rest named =>
      rw [characterReferenceLength_named named] at found
      rw [List.cons_append, characterReferenceLength_named, closedRunLength_append found]
      intro x after same
      rcases rest with _ | ⟨first, _ | ⟨second, rest⟩⟩
      · exact ne_of_isCloser closer rfl (List.cons.inj same).1
      · rw [(List.cons.inj same).1] at found
        cases found
      · exact named second rest (by rw [(List.cons.inj same).1])
    · cases text_eq

end ComponentCompiler.Script
