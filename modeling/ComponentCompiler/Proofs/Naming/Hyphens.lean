import ComponentCompiler.Proofs.Naming.Words
import Mathlib.Data.List.DropRight

/-!
# Two ways to write a key with hyphens

A key is written in small letters with hyphens in two places. In markup it is taken apart into
words, and a hyphen stands between two words; in a style sheet a hyphen stands before each capital.
The one has no hyphen at the front, and none inside capitals that are one word.

For a key of letters the two agree if each capital begins a word of its own and is not the first
letter. Within capitals side by side only the last can begin a word, and only if a small letter
follows; all before it are one word. So there are at most two of them side by side, and two only
before a small letter.

## Main definitions

* `IsCapitalRun` — capitals side by side, as far as they go
* `IsSpread` — a small letter stands behind any two capitals side by side

## Main results

* `isSpread_iff` — what that says of the capitals side by side
* `kebabCase_eq_hyphenate_iff` — where the two ways agree
-/

namespace ComponentCompiler.Naming

open Text (joinWith consToFirst)

variable {c next : Char} {rest text : List Char}

/-! ### Hyphens between words -/

theorem exists_words_cons (part : isWordPart c = true) (rest : List Char) :
    ∃ word others, words (c :: rest) = (c :: word) :: others := by
  rw [words, if_pos part]
  split
  case isFalse => exact ⟨[], _, rfl⟩
  case isTrue =>
    cases words rest with
    | nil => exact ⟨[], [], rfl⟩
    | cons word others => exact ⟨word, others, rfl⟩

/-- A text that starts with a word starts with that letter or digit. -/
theorem head?_joinWith_words (part : isWordPart c = true) (rest : List Char) :
    (joinWith '-' (words (c :: rest))).head? = some c := by
  obtain ⟨word, others, found⟩ := exists_words_cons part rest
  rw [found, Text.head?_joinWith (List.cons_ne_nil _ _)]
  rfl

/-- A hyphen stands behind a character that does not belong to the word behind it. -/
theorem joinWith_words_cons (part : isWordPart c = true) (later : isWordPart next = true)
    (rest : List Char) :
    joinWith '-' (words (c :: next :: rest)) =
      c :: ((if joins c (next :: rest) then [] else ['-']) ++
        joinWith '-' (words (next :: rest))) := by
  obtain ⟨word, others, found⟩ := exists_words_cons later rest
  rw [words, if_pos part, found]
  split
  · cases others <;> rfl
  · rfl

theorem joinWith_map_lowerWord (parts : List (List Char)) :
    joinWith '-' (parts.map lowerWord) = (joinWith '-' parts).map Char.toLower := by
  induction parts with
  | nil => rfl
  | cons word parts ih =>
    cases parts with
    | nil => rfl
    | cons next parts =>
      have hyphen : '-'.toLower = '-' := by decide
      rw [List.map_cons, Text.joinWith_cons (by simp), ih, Text.joinWith_cons (List.cons_ne_nil _ _)]
      simp [lowerWord, hyphen]

theorem mem_hyphenBefore {d : Char} (member : d ∈ hyphenBefore c) : d = '-' ∨ d = c := by
  unfold hyphenBefore at member
  split at member
  · simpa using member
  · exact .inr (by simpa using member)

theorem flatMap_hyphenBefore_cons (c : Char) (rest : List Char) :
    (c :: rest).flatMap hyphenBefore =
      (if isCapital c then ['-'] else []) ++ c :: rest.flatMap hyphenBefore := by
  cases capital : isCapital c <;> simp [hyphenBefore, capital]

/-! ### Two capitals side by side -/

/-- Behind any two capitals side by side stands a small letter. -/
def IsSpread : List Char → Prop
  | c :: next :: rest =>
    (isCapital c = true → isCapital next = true → startsSmall rest = true) ∧ IsSpread (next :: rest)
  | _ => True

/-- Between two letters there is a hyphen if the second is a capital, unless both are capitals that
belong to one word. -/
theorem joins_eq_of_letters (first : (isCapital c || isSmall c) = true)
    (second : (isCapital next || isSmall next) = true) (rest : List Char) :
    joins c (next :: rest) = (!isCapital next || (isCapital c && !startsSmall rest)) := by
  cases capitalNext : isCapital next with
  | false =>
    have small : isSmall next = true := by simpa [capitalNext] using second
    cases capital : isCapital c with
    | true => simp [joins, capital, small]
    | false =>
      have smallFirst : isSmall c = true := by simpa [capital] using first
      simp [joins, capital, smallFirst, small]
  | true =>
    have notSmall : isSmall next = false := isSmall_of_capital capitalNext
    cases capital : isCapital c with
    | true => simp [joins, capital, capitalNext, notSmall]
    | false =>
      have smallFirst : isSmall c = true := by simpa [capital] using first
      simp [joins, capital, smallFirst, notSmall]

theorem isWordPart_of_letter (letter : (isCapital c || isSmall c) = true) : isWordPart c = true := by
  simp [isWordPart, letter]

theorem toLower_ne_hyphen (letter : (isCapital c || isSmall c) = true) : c.toLower ≠ '-' := by
  intro same
  have small := isSmall_toLower letter
  rw [same] at small
  exact absurd small (by decide)

/-- Behind the first letter the two ways agree exactly if a small letter stands behind any two
capitals side by side. -/
theorem map_toLower_eq_iff (letters : ∀ d ∈ c :: rest, (isCapital d || isSmall d) = true) :
    (joinWith '-' (words (c :: rest))).map Char.toLower =
        (c :: rest.flatMap hyphenBefore).map Char.toLower ↔ IsSpread (c :: rest) := by
  induction rest generalizing c with
  | nil =>
    have part := isWordPart_of_letter (letters c List.mem_cons_self)
    simp [words, joins, part, joinWith, IsSpread]
  | cons next rest ih =>
    obtain ⟨first, others⟩ := List.forall_mem_cons.1 letters
    have second := others next List.mem_cons_self
    rw [joinWith_words_cons (isWordPart_of_letter first) (isWordPart_of_letter second),
      flatMap_hyphenBefore_cons, joins_eq_of_letters first second, IsSpread, ← ih others]
    cases capitalNext : isCapital next with
    | false => simp
    | true =>
      cases together : isCapital c && !startsSmall rest with
      | false =>
        have spread : isCapital c = true → startsSmall rest = true := fun capital => by
          simpa [capital] using together
        simpa using fun _ => spread
      | true =>
        -- The one way goes on with the letter, the other with a hyphen.
        have front := head?_joinWith_words (isWordPart_of_letter second) rest
        obtain ⟨tail, begins⟩ := List.head?_eq_some_iff.1 front
        simp only [Bool.and_eq_true, Bool.not_eq_true'] at together
        simp [begins, toLower_ne_hyphen second, together]

/-! ### Capitals side by side -/

/-- Capitals side by side in a key, with what stands before and behind them. -/
structure IsCapitalRun (key before run after : List Char) : Prop where
  whole : key = before ++ run ++ after
  some : run ≠ []
  capitals : ∀ c ∈ run, isCapital c = true
  first : before.getLast?.any isCapital = false
  last : after.head?.any isCapital = false

theorem any_head?_dropWhile (kind : Char → Bool) (text : List Char) :
    (text.dropWhile kind).head?.any kind = false := by
  have stops := List.head?_dropWhile_not kind text
  cases first : (text.dropWhile kind).head? with
  | none => rfl
  | some c => simpa [first] using stops

/-- Capitals side by side go as far as the capitals around them. -/
theorem isCapitalRun_around {before run after : List Char} (whole : text = before ++ run ++ after)
    (some : run ≠ []) (capitals : ∀ c ∈ run, isCapital c = true) :
    IsCapitalRun text (before.rdropWhile isCapital)
      (before.rtakeWhile isCapital ++ run ++ after.takeWhile isCapital)
      (after.dropWhile isCapital) where
  whole := by
    have left : before.rdropWhile isCapital ++ before.rtakeWhile isCapital = before :=
      List.rdropWhile_append_rtakeWhile
    have right : after.takeWhile isCapital ++ after.dropWhile isCapital = after :=
      List.takeWhile_append_dropWhile
    calc text = (before.rdropWhile isCapital ++ before.rtakeWhile isCapital) ++ run ++
          (after.takeWhile isCapital ++ after.dropWhile isCapital) := by rw [left, right, whole]
      _ = _ := by simp only [List.append_assoc]
  some := by simp [some]
  capitals := by
    intro c member
    rcases List.mem_append.1 member with front | back
    · rcases List.mem_append.1 front with before | inside
      · exact List.mem_rtakeWhile_imp before
      · exact capitals c inside
    · exact List.mem_takeWhile_imp back
  first := by
    rw [List.rdropWhile, List.getLast?_reverse]
    exact any_head?_dropWhile _ _
  last := any_head?_dropWhile _ _

theorem IsSpread.of_cons (spread : IsSpread (c :: rest)) : IsSpread rest := by
  cases rest with
  | nil => trivial
  | cons => exact spread.2

theorem IsSpread.of_append {before : List Char} (spread : IsSpread (before ++ rest)) :
    IsSpread rest := by
  induction before with
  | nil => exact spread
  | cons c before ih => exact ih spread.of_cons

theorem IsSpread.of_pairs
    (each : ∀ before c next after, text = before ++ c :: next :: after → isCapital c = true →
      isCapital next = true → startsSmall after = true) : IsSpread text := by
  induction text with
  | nil => trivial
  | cons c rest ih =>
    have later : IsSpread rest := ih fun before d next after whole =>
      each (c :: before) d next after (by rw [whole, List.cons_append])
    cases rest with
    | nil => trivial
    | cons next rest => exact ⟨each [] c next rest rfl, later⟩

/-- A small letter stands behind any two capitals side by side exactly if capitals stand alone, or
in pairs before a small letter. -/
theorem isSpread_iff : IsSpread text ↔ ∀ before run after, IsCapitalRun text before run after →
    run.length = 1 ∨ run.length = 2 ∧ startsSmall after = true := by
  constructor
  · rintro spread before run after ⟨rfl, some, capitals, -, -⟩
    rw [List.append_assoc] at spread
    have here := spread.of_append
    match run, some with
    | [_], _ => exact .inl rfl
    | c :: next :: more, _ =>
      simp only [List.forall_mem_cons] at capitals
      obtain ⟨capital, capitalNext, others⟩ := capitals
      have small := here.1 capital capitalNext
      cases more with
      | nil => exact .inr ⟨rfl, small⟩
      | cons third more =>
        have notSmall := isSmall_of_capital (others third List.mem_cons_self)
        exact absurd small (by simp [startsSmall, notSmall])
  · -- Two capitals side by side are all of the run that they are in.
    refine fun runs => .of_pairs fun before c next after whole capital capitalNext => ?_
    have parts : text = before ++ [c, next] ++ after := by simpa using whole
    have run := runs _ _ _ (isCapitalRun_around parts (List.cons_ne_nil _ _)
      (by simp [capital, capitalNext]))
    simp only [List.length_append, List.length_cons, List.length_nil] at run
    obtain ⟨length, small⟩ : (after.takeWhile isCapital).length = 0 ∧
        startsSmall (after.dropWhile isCapital) = true := by
      rcases run with single | ⟨pair, small⟩
      · omega
      · exact ⟨by omega, small⟩
    have unmoved : after.takeWhile isCapital ++ after.dropWhile isCapital = after :=
      List.takeWhile_append_dropWhile
    rw [List.eq_nil_of_length_eq_zero length, List.nil_append] at unmoved
    rwa [unmoved] at small

/-- The words of a key of letters, with hyphens between them, are the key with a hyphen before each
capital exactly if the key is empty or starts with a small letter, and its capitals stand alone or
in pairs before a small letter. -/
theorem kebabCase_eq_hyphenate_iff {key : String}
    (letters : ∀ c ∈ key.toList, (isCapital c || isSmall c) = true) :
    kebabCase key = hyphenate key ↔
      key = "" ∨ startsSmall key.toList = true ∧
        ∀ before run after, IsCapitalRun key.toList before run after →
          run.length = 1 ∨ run.length = 2 ∧ startsSmall after = true := by
  have each : ∀ c ∈ key.toList.flatMap hyphenBefore, IsLowered c := by
    intro c member
    obtain ⟨before, known, inside⟩ := List.mem_flatMap.1 member
    refine isLowered_of_ascii ?_
    rcases mem_hyphenBefore inside with rfl | rfl
    · decide
    · exact toNat_lt_of_letter (letters _ known)
  have spaced : (kebabCase key).toList = (joinWith '-' (words key.toList)).map Char.toLower := by
    rw [kebabCase, String.toList_ofList, joinWith_map_lowerWord]
  have hyphened : (hyphenate key).toList = (key.toList.flatMap hyphenBefore).map Char.toLower := by
    rw [hyphenate, String.toList_ofList, lowerCase_eq_map each]
  rw [← String.toList_inj, ← String.toList_inj, spaced, hyphened, ← isSpread_iff]
  cases whole : key.toList with
  | nil => simp [words, joinWith]
  | cons c rest =>
    rw [whole] at letters
    have letter := letters c List.mem_cons_self
    rw [flatMap_hyphenBefore_cons]
    cases capital : isCapital c with
    | false =>
      have small : isSmall c = true := by simpa [capital] using letter
      simpa [startsSmall, small] using map_toLower_eq_iff letters
    | true =>
      -- Only the style property starts with a hyphen.
      have front := head?_joinWith_words (isWordPart_of_letter letter) rest
      obtain ⟨tail, begins⟩ := List.head?_eq_some_iff.1 front
      simp [begins, toLower_ne_hyphen letter, startsSmall, isSmall_of_capital capital]

/-- Four capitals are one word, which the style property takes apart. -/
theorem kebabCase_innerHTML : (∀ c ∈ "innerHTML".toList, (isCapital c || isSmall c) = true) ∧
    kebabCase "innerHTML" ≠ hyphenate "innerHTML" := by
  have letters : ∀ c ∈ "innerHTML".toList, (isCapital c || isSmall c) = true :=
    List.all_eq_true.1 (by decide)
  have capitals : ∀ c ∈ "HTML".toList, isCapital c = true := List.all_eq_true.1 (by decide)
  have run : IsCapitalRun "innerHTML".toList "inner".toList "HTML".toList [] :=
    ⟨by decide, by decide, capitals, by decide, rfl⟩
  refine ⟨letters, fun same => ?_⟩
  rcases (kebabCase_eq_hyphenate_iff letters).1 same with empty | ⟨-, runs⟩
  · exact absurd empty (by decide)
  · exact absurd (runs _ _ _ run) (by decide)

end ComponentCompiler.Naming
