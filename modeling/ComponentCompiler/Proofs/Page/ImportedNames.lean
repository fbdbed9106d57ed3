import ComponentCompiler.Import
import ComponentCompiler.Script.Token
import Mathlib.Data.List.Forall2
import Mathlib.Data.List.Nodup
import Mathlib.Tactic.Choose

/-!
# The names that import statements bind

An import of a component maps local names to the names they are taken from. It becomes one
statement, and a statement has room for one default name, and then either for the name of a whole
file or for a list of names. The other names of the mapping are left out, and nothing binds them
unless another import of the same file does.

What a statement binds is read off its text: the text is split into words, literals and marks, and
the words between two semicolons are read by the grammar of import declarations. That `from` and
`as` are names as well makes no difference, since their place tells which of the two they are.

## Main definitions

* `Import.readStatements?` — the statements of a text, each with its path and the names it binds
* `Import.shown` — the names of an import that its statement has room for
* `Import.IsWritable` — names and path can be written in a statement

## Main results

* `Import.readStatements?_statements` — what the statements of a component bind
* `Import.shown_all_iff` — which imports have room for all their names in their own statement
* `Import.binds_all_iff` — when every local name of an import is bound
* `Import.lost_name` — a name that no statement binds
-/

namespace ComponentCompiler.Import

open Script (isBlank isDigit isIdentifierStart isIdentifierPart isPunctuation isReserved)

/-! ### Reading import statements -/

/-- The pieces of import statements. -/
inductive Lexeme where
  | word (text : String)
  | literal (body : String)
  | mark (c : Char)
deriving DecidableEq, Repr

/-- The piece that is being read, as far as it came. -/
inductive Pending where
  | word (soFar : List Char)
  | literal (soFar : List Char)

/-- Puts the word that has been read, if there is one, in front. -/
def closeWord (soFar : List Char) (row : List Lexeme) : List Lexeme :=
  if soFar.isEmpty then row else .word (String.ofList soFar) :: row

/-- The pieces of a text. Literals stand between double quotes and have nothing to decode. -/
def lexemes? : Pending → List Char → Option (List Lexeme)
  | .word soFar, [] => some (closeWord soFar [])
  | .literal _, [] => none
  | .word soFar, c :: rest =>
    if isIdentifierPart c then lexemes? (.word (soFar ++ [c])) rest
    else if c = '"' then (lexemes? (.literal []) rest).map (closeWord soFar)
    else if isBlank c then (lexemes? (.word []) rest).map (closeWord soFar)
    else (lexemes? (.word []) rest).map fun row => closeWord soFar (.mark c :: row)
  | .literal soFar, c :: rest =>
    if c = '"' then (lexemes? (.word []) rest).map (.literal (String.ofList soFar) :: ·)
    else if c = '\\' ∨ c = '\n' ∨ c = '\r' then none
    else lexemes? (.literal (soFar ++ [c])) rest

/-- The rows of pieces that end in a semicolon. -/
def rowsOf? (soFar : List Lexeme) : List Lexeme → Option (List (List Lexeme))
  | [] => if soFar.isEmpty then some [] else none
  | .mark ';' :: rest => (rowsOf? [] rest).map (soFar :: ·)
  | lexeme :: rest => rowsOf? (soFar ++ [lexeme]) rest

/-- The words that are reserved in modules, beyond those that are reserved everywhere. -/
def moduleWords : List String :=
  ["arguments", "await", "enum", "eval", "implements", "interface", "let", "package", "private",
    "protected", "public", "static", "yield"]

/-- Whether a word can be the name of an export. -/
def isName (word : String) : Bool :=
  match word.toList with
  | [] => false
  | c :: rest => isIdentifierStart c && rest.all isIdentifierPart

/-- Whether a word can be bound. -/
def isBindable (word : String) : Bool :=
  isName word && !isReserved word.toList && !moduleWords.contains word

/-- A statement: from the local names to the imported names, `default` or `*`, and the path. -/
structure Reading where
  names : List (String × String)
  path : String
deriving DecidableEq, Repr, Inhabited

/-- The names of a list in braces, and what comes after it. -/
def readNames? : List Lexeme → Option (List (String × String) × List Lexeme)
  | .mark '\x7d' :: rest => some ([], rest)
  | .word imported :: .word middle :: .word name :: .mark c :: rest =>
    if middle = "as" ∧ isName imported ∧ isBindable name then
      if c = ',' then (readNames? rest).map fun read => ((name, imported) :: read.1, read.2)
      else if c = '\x7d' then some ([(name, imported)], rest)
      else none
    else none
  | .word name :: .mark c :: rest =>
    if isBindable name then
      if c = ',' then (readNames? rest).map fun read => ((name, name) :: read.1, read.2)
      else if c = '\x7d' then some ([(name, name)], rest)
      else none
    else none
  | _ => none

/-- The end of a statement that binds the given names. -/
def readPath? (names : List (String × String)) : List Lexeme → Option Reading
  | [.word word, .literal path] => if word = "from" then some ⟨names, path⟩ else none
  | _ => none

/-- A statement from the name of a whole file, or from a list of names, on. -/
def readSecond? (names : List (String × String)) : List Lexeme → Option Reading
  | .mark '*' :: .word middle :: .word name :: rest =>
    if middle = "as" ∧ isBindable name then readPath? (names ++ [(name, "*")]) rest else none
  | .mark '\x7b' :: rest =>
    (readNames? rest).bind fun read => readPath? (names ++ read.1) read.2
  | _ => none

/-- A statement behind its first word, if it is not a path only. -/
def readClauses? : List Lexeme → Option Reading
  | .word name :: .mark ',' :: rest =>
    if isBindable name then readSecond? [(name, "default")] rest else none
  | .word name :: rest => if isBindable name then readPath? [(name, "default")] rest else none
  | row => readSecond? [] row

/-- The statement that a row of pieces is. -/
def readStatement? : List Lexeme → Option Reading
  | .word word :: rest =>
    if word = "import" then
      match rest with
      | [.literal path] => some ⟨[], path⟩
      | rest => readClauses? rest
    else none
  | _ => none

/-- The statements that the given pieces are. -/
def readPieces? (row : List Lexeme) : Option (List Reading) :=
  (rowsOf? [] row).bind fun rows => rows.mapM readStatement?

/-- The statements of a text that consists of import statements. -/
def readStatements? (text : String) : Option (List Reading) :=
  (lexemes? (.word []) text.toList).bind readPieces?

/-! ### The names that a statement has room for -/

/-- The names that stand for the default export, each with what it is taken from. -/
def defaultPairs (spec : ImportSpec) : List (String × String) :=
  spec.names.toList.filter fun pair => pair.2 = "default"

/-- The names that stand for the whole file. -/
def wholePairs (spec : ImportSpec) : List (String × String) :=
  spec.names.toList.filter fun pair => pair.2 = "*"

/-- The names that stand for other exports. -/
def namedPairs (spec : ImportSpec) : List (String × String) :=
  spec.names.toList.filter fun pair => pair.2 ≠ "default" ∧ pair.2 ≠ "*"

/-- The names that a statement has room for behind a default name: one for the whole file or, if
there is none, all the names of other exports. -/
def shownSecond (spec : ImportSpec) : List (String × String) :=
  match wholePairs spec with
  | pair :: _ => [pair]
  | [] => namedPairs spec

/-- The names of an import that its statement has room for. -/
def shown (spec : ImportSpec) : List (String × String) :=
  (defaultPairs spec).take 1 ++ shownSecond spec

/-- The names can be bound, the names they are taken from can be those of exports, and the path has
nothing in it that would have to be escaped. -/
structure IsWritable (target : String) (explicitEndings : Bool) (spec : ImportSpec) : Prop where
  names : ∀ pair ∈ spec.names.toList,
    isBindable pair.1 = true ∧ (pair.2 = "*" ∨ isName pair.2 = true)
  path : ∀ c ∈ (targetPath target explicitEndings spec.path).toList,
    c ≠ '"' ∧ c ≠ '\\' ∧ c ≠ '\n' ∧ c ≠ '\r'

/-! ### The pieces of a statement -/

/-- The characters around the words of a statement. -/
def breakingMarks : List Char :=
  [' ', ',', ';', '\n', '\x7b', '\x7d', '*', '"']

theorem isIdentifierPart_of_breaking {c : Char} (breaking : c ∈ breakingMarks) :
    isIdentifierPart c = false := by
  have each : ∀ c ∈ breakingMarks, isIdentifierPart c = false := by
    simp [breakingMarks, isIdentifierPart, isIdentifierStart, isPunctuation, isDigit, isBlank]
  exact each c breaking

/-- The text does not go on with a character of a word. -/
def Breaks (text : List Char) : Prop :=
  ∀ c, text.head? = some c → isIdentifierPart c = false

theorem Breaks.cons {c : Char} (breaking : c ∈ breakingMarks) (text : List Char) :
    Breaks (c :: text) := by
  intro first same
  obtain rfl := Option.some.inj same
  exact isIdentifierPart_of_breaking breaking

/-- The text in front of a text that breaks is split into the given pieces. -/
def Spells (text : List Char) (row : List Lexeme) : Prop :=
  ∀ rest, Breaks rest →
    lexemes? (.word []) (text ++ rest) = (lexemes? (.word []) rest).map (row ++ ·)

theorem lexemes?_word {name : List Char} (parts : ∀ c ∈ name, isIdentifierPart c = true)
    (soFar rest : List Char) :
    lexemes? (.word soFar) (name ++ rest) = lexemes? (.word (soFar ++ name)) rest := by
  induction name generalizing soFar with
  | nil => rw [List.nil_append, List.append_nil]
  | cons c name ih =>
    obtain ⟨first, others⟩ := List.forall_mem_cons.1 parts
    rw [List.cons_append, lexemes?, if_pos first, ih others, List.append_assoc,
      List.singleton_append]

/-- A word ends before a character that cannot be part of it. -/
theorem lexemes?_closeWord {rest : List Char} (soFar : List Char) (ends : Breaks rest) :
    lexemes? (.word soFar) rest = (lexemes? (.word []) rest).map (closeWord soFar) := by
  have twice (row : List Lexeme) : closeWord soFar (closeWord [] row) = closeWord soFar row := rfl
  cases rest with
  | nil => rfl
  | cons c rest =>
    have notPart : isIdentifierPart c = false := ends c rfl
    simp only [lexemes?, notPart, Bool.false_eq_true, if_false]
    split
    · rw [Option.map_map]
      rfl
    · split
      · rw [Option.map_map]
        rfl
      · rw [Option.map_map]
        rfl

theorem lexemes?_literal {body : List Char}
    (plain : ∀ c ∈ body, c ≠ '"' ∧ c ≠ '\\' ∧ c ≠ '\n' ∧ c ≠ '\r') (soFar rest : List Char) :
    lexemes? (.literal soFar) (body ++ '"' :: rest) =
      (lexemes? (.word []) rest).map (.literal (String.ofList (soFar ++ body)) :: ·) := by
  induction body generalizing soFar with
  | nil => rw [List.nil_append, List.append_nil, lexemes?, if_pos rfl]
  | cons c body ih =>
    obtain ⟨⟨notQuote, others⟩, rest⟩ := List.forall_mem_cons.1 plain
    have decoded : ¬(c = '\\' ∨ c = '\n' ∨ c = '\r') := by simpa using others
    rw [List.cons_append, lexemes?, if_neg notQuote, if_neg decoded, ih rest, List.append_assoc,
      List.singleton_append]

namespace Spells

variable {text : List Char} {row : List Lexeme}

theorem nil : Spells [] [] := by
  intro rest _
  simp

/-- A space in front. -/
theorem space (spells : Spells text row) : Spells (' ' :: text) row := by
  intro rest ends
  have step : lexemes? (.word []) (' ' :: (text ++ rest)) =
      (lexemes? (.word []) (text ++ rest)).map (closeWord []) := rfl
  rw [List.cons_append, step, spells rest ends, Option.map_map]
  rfl

/-- A mark in front. -/
theorem mark {c : Char} (spells : Spells text row)
    (single : c ∈ [',', ';', '*', '\x7b', '\x7d']) : Spells (c :: text) (.mark c :: row) := by
  have plain : ∀ c ∈ [',', ';', '*', '\x7b', '\x7d'],
      isIdentifierPart c = false ∧ c ≠ '"' ∧ isBlank c = false := by
    simp [isIdentifierPart, isIdentifierStart, isPunctuation, isDigit, isBlank]
  obtain ⟨notPart, notQuote, notBlank⟩ := plain c single
  intro rest ends
  rw [List.cons_append, lexemes?, if_neg (by simp [notPart]), if_neg notQuote,
    if_neg (by simp [notBlank]), spells rest ends, Option.map_map]
  rfl

/-- A word in front of something else. -/
theorem word {name : String} (spells : Spells text row) (named : isName name = true)
    (ends : Breaks text) :
    Spells (name.toList ++ text) (.word name :: row) := by
  intro rest restEnds
  have parts : name.toList ≠ [] ∧ ∀ c ∈ name.toList, isIdentifierPart c = true := by
    unfold isName at named
    split at named
    case h_1 => cases named
    case h_2 c others letters =>
      rw [Bool.and_eq_true, List.all_eq_true] at named
      rw [letters]
      exact ⟨List.cons_ne_nil _ _, List.forall_mem_cons.2
        ⟨by rw [isIdentifierPart, named.1, Bool.true_or], named.2⟩⟩
  have boundary : Breaks (text ++ rest) := by
    cases text with
    | nil => exact restEnds
    | cons first text => exact ends
  rw [List.append_assoc, lexemes?_word parts.2, List.nil_append, lexemes?_closeWord _ boundary,
    spells rest restEnds, Option.map_map]
  refine congrArg (Option.map · _) (funext fun others => ?_)
  have some : name.toList.isEmpty = false := by simpa using parts.1
  simp [closeWord, some]

/-- A literal in front. -/
theorem literal {body : String} (spells : Spells text row)
    (plain : ∀ c ∈ body.toList, c ≠ '"' ∧ c ≠ '\\' ∧ c ≠ '\n' ∧ c ≠ '\r') :
    Spells ('"' :: (body.toList ++ '"' :: text)) (.literal body :: row) := by
  intro rest ends
  have opened : lexemes? (.word []) ('"' :: (body.toList ++ '"' :: (text ++ rest))) =
      (lexemes? (.literal []) (body.toList ++ '"' :: (text ++ rest))).map (closeWord []) := rfl
  rw [List.cons_append, List.append_assoc, List.cons_append, opened, lexemes?_literal plain,
    spells rest ends, Option.map_map, Option.map_map]
  refine congrArg (Option.map · _) (funext fun others => ?_)
  simp [closeWord]

end Spells

/-! ### The clauses of a statement -/

/-- How a name among others is written. -/
def pairText (pair : String × String) : String :=
  if pair.2 = pair.1 then pair.1 else pair.2 ++ " as " ++ pair.1

/-- The pieces of a name among others. -/
def pairRow (pair : String × String) : List Lexeme :=
  if pair.2 = pair.1 then [.word pair.1] else [.word pair.2, .word "as", .word pair.1]

/-- The pieces of names with commas between them. -/
def listRow : List (String × String) → List Lexeme
  | [] => []
  | [pair] => pairRow pair
  | pair :: rest => pairRow pair ++ .mark ',' :: listRow rest

theorem Clause.default?_of (name imported : String) :
    (Clause.of name imported).default? = if imported = "default" then some name else none := by
  unfold Clause.of
  split
  · rfl
  · split
    · rfl
    · split <;> rfl

theorem Clause.whole?_of (name imported : String) :
    (Clause.of name imported).whole? = if imported = "*" then some name else none := by
  unfold Clause.of
  by_cases first : imported = "default"
  · subst first
    rfl
  · rw [if_neg first]
    split
    · rfl
    · split <;> rfl

theorem Clause.named?_of (name imported : String) :
    (Clause.of name imported).named? =
      if imported ≠ "default" ∧ imported ≠ "*" then some (pairText (name, imported)) else none := by
  unfold Clause.of pairText
  by_cases first : imported = "default"
  · simp [first, Clause.named?]
  by_cases whole : imported = "*"
  · simp [whole, Clause.named?]
  by_cases same : imported = name
  · subst same
    simp [first, whole, Clause.named?]
  · simp [first, whole, same, Clause.named?]

/-- The clause behind a default name, if there is one. -/
def secondTexts (spec : ImportSpec) : List String :=
  match wholePairs spec with
  | pair :: _ => ["* as " ++ pair.1]
  | [] =>
    if (namedPairs spec).isEmpty then []
    else ["\x7b " ++ ", ".intercalate ((namedPairs spec).map pairText) ++ " \x7d"]

theorem clauseTexts_of (spec : ImportSpec) :
    clauseTexts (spec.names.toList.map fun (name, imported) => Clause.of name imported) =
      ((defaultPairs spec).take 1).map Prod.fst ++ secondTexts spec := by
  have parts {α : Type} (test : String × String → Prop) [DecidablePred test]
      (text : String × String → α) (pick : Clause → Option α)
      (picks : ∀ name imported, pick (Clause.of name imported) =
        if test (name, imported) then some (text (name, imported)) else none) :
      (spec.names.toList.map fun (name, imported) => Clause.of name imported).filterMap pick =
        (spec.names.toList.filter test).map text := by
    induction spec.names.toList with
    | nil => rfl
    | cons pair rest ih =>
      obtain ⟨name, imported⟩ := pair
      rw [List.map_cons, List.filterMap_cons, picks, ih]
      by_cases holds : test (name, imported)
      · rw [if_pos holds, List.filter_cons_of_pos (by simpa using holds)]
        rfl
      · rw [if_neg holds, List.filter_cons_of_neg (by simpa using holds)]
  have defaults := parts (fun pair => pair.2 = "default") Prod.fst _ Clause.default?_of
  have wholes := parts (fun pair => pair.2 = "*") Prod.fst _ Clause.whole?_of
  have named := parts (fun pair => pair.2 ≠ "default" ∧ pair.2 ≠ "*") pairText _ Clause.named?_of
  rw [← defaultPairs] at defaults
  rw [← wholePairs] at wholes
  rw [← namedPairs] at named
  rw [clauseTexts, defaults, wholes, named, ← List.map_take, secondTexts]
  cases wholePairs spec with
  | nil => simp
  | cons pair rest => rfl

theorem isName_of_isBindable {word : String} (bindable : isBindable word = true) :
    isName word = true := by
  simp only [isBindable, Bool.and_eq_true] at bindable
  exact bindable.1.1

/-- A pair can be written among the names of a list. -/
def IsListable (pair : String × String) : Prop :=
  isBindable pair.1 = true ∧ isName pair.2 = true

section
variable {text : List Char} {row : List Lexeme}

theorem spells_pair {pair : String × String} (listable : IsListable pair)
    (spells : Spells text row) (ends : Breaks text) :
    Spells ((pairText pair).toList ++ text) (pairRow pair ++ row) := by
  have name : Spells (pair.1.toList ++ text) (.word pair.1 :: row) :=
    spells.word (isName_of_isBindable listable.1) ends
  unfold pairText pairRow
  by_cases same : pair.2 = pair.1
  · rw [if_pos same, if_pos same]
    exact name
  · have as : isName "as" = true := by decide
    have gap (text : List Char) : Breaks (' ' :: text) := .cons (by decide) text
    have whole := (name.space.word as (gap _)).space.word listable.2 (gap _)
    rw [if_neg same, if_neg same]
    simpa using whole

theorem spells_list {pairs : List (String × String)} (listable : ∀ pair ∈ pairs, IsListable pair)
    (spells : Spells text row) (ends : Breaks text) :
    Spells ((", ".intercalate (pairs.map pairText)).toList ++ text) (listRow pairs ++ row) := by
  induction pairs with
  | nil => exact spells
  | cons pair rest ih =>
    obtain ⟨first, others⟩ := List.forall_mem_cons.1 listable
    cases rest with
    | nil => simpa [listRow] using spells_pair first spells ends
    | cons next rest =>
      have comma := (ih others).space.mark (c := ',') (by simp)
      have whole := spells_pair first comma (.cons (by decide) _)
      simpa [listRow, String.intercalate_cons_cons] using whole

theorem readNames?_listRow {pairs : List (String × String)} (some : pairs ≠ [])
    (listable : ∀ pair ∈ pairs, IsListable pair) :
    readNames? (listRow pairs ++ .mark '\x7d' :: row) = .some (pairs, row) := by
  induction pairs with
  | nil => exact absurd rfl some
  | cons pair rest ih =>
    obtain ⟨⟨bindable, named⟩, others⟩ := List.forall_mem_cons.1 listable
    obtain ⟨name, imported⟩ := pair
    cases rest with
    | nil =>
      by_cases same : imported = name
      · subst same
        simp [listRow, pairRow, readNames?, bindable]
      · simp [listRow, pairRow, same, readNames?, bindable, named]
    | cons next rest =>
      have later := ih (List.cons_ne_nil _ _) others
      by_cases same : imported = name
      · subst same
        simp [listRow, pairRow, readNames?, bindable, later]
      · simp [listRow, pairRow, same, readNames?, bindable, named, later]

/-- A clause behind a default name, with its pieces and the names that it binds. -/
structure IsSecond (clause : String) (row : List Lexeme) (names : List (String × String)) :
    Prop where
  spells : ∀ {text : List Char} {after : List Lexeme}, Spells text after → Breaks text →
    Spells (clause.toList ++ text) (row ++ after)
  breaks : Breaks clause.toList
  reads : ∀ first path, readSecond? first (row ++ [.word "from", .literal path]) =
    some ⟨first ++ names, path⟩
  unended : .mark ';' ∉ row
  starts : ∃ c rest, row = .mark c :: rest

theorem isSecond_whole {name : String} (bindable : isBindable name = true) :
    IsSecond ("* as " ++ name) [.mark '*', .word "as", .word name] [(name, "*")] where
  spells spells ends := by
    have as : isName "as" = true := by decide
    have bound := spells.word (isName_of_isBindable bindable) ends
    have whole := (bound.space.word as (.cons (by decide) _)).space.mark (c := '*') (by simp)
    simpa using whole
  breaks := by simpa using Breaks.cons (c := '*') (by decide) _
  reads first path := by simp [readSecond?, bindable, readPath?]
  unended := by simp
  starts := ⟨_, _, rfl⟩

theorem unended_listRow (pairs : List (String × String)) : .mark ';' ∉ listRow pairs := by
  have single (pair : String × String) : .mark ';' ∉ pairRow pair := by
    unfold pairRow
    split <;> simp
  induction pairs with
  | nil => simp [listRow]
  | cons pair rest ih =>
    cases rest with
    | nil => simpa [listRow] using single pair
    | cons next rest => simpa [listRow, single pair] using ih

theorem isSecond_named {pairs : List (String × String)} (some : pairs ≠ [])
    (listable : ∀ pair ∈ pairs, IsListable pair) :
    IsSecond ("\x7b " ++ ", ".intercalate (pairs.map pairText) ++ " \x7d")
      (.mark '\x7b' :: (listRow pairs ++ [.mark '\x7d'])) pairs where
  spells spells ends := by
    have closing := (spells.mark (c := '\x7d') (by simp)).space
    have names := spells_list listable closing (.cons (by decide) _)
    have whole := names.space.mark (c := '\x7b') (by simp)
    simpa using whole
  breaks := by simpa using Breaks.cons (c := '\x7b') (by decide) _
  reads first path := by simp [readSecond?, readNames?_listRow some listable, readPath?]
  unended := by simpa using unended_listRow pairs
  starts := ⟨_, _, rfl⟩

end

/-! ### Whole statements -/

/-- A line is one statement, which binds the given names. -/
def IsStatement (line : String) (reading : Reading) : Prop :=
  ∃ row, Spells line.toList (row ++ [.mark ';']) ∧ .mark ';' ∉ row ∧
    readStatement? row = some reading

/-- What the statement of an import binds. -/
def readingOf (target : String) (explicitEndings : Bool) (spec : ImportSpec) : Reading :=
  ⟨shown spec, targetPath target explicitEndings spec.path⟩

/-- A statement with clauses, given how its clauses are read. -/
theorem isStatement_of_clauses {clauses path : String} {row : List Lexeme}
    {names : List (String × String)}
    (plain : ∀ c ∈ path.toList, c ≠ '"' ∧ c ≠ '\\' ∧ c ≠ '\n' ∧ c ≠ '\r')
    (spells : ∀ {text : List Char} {after : List Lexeme}, Spells text after → Breaks text →
      Spells (clauses.toList ++ text) (row ++ after))
    (some : row ≠ []) (unended : .mark ';' ∉ row)
    (reads : readClauses? (row ++ [.word "from", .literal path]) = .some ⟨names, path⟩) :
    IsStatement ("import " ++ clauses ++ " from \"" ++ path ++ "\";") ⟨names, path⟩ := by
  have first : isName "import" = true := by decide
  have last : isName "from" = true := by decide
  have gap (text : List Char) : Breaks (' ' :: text) := .cons (by decide) text
  have closed := (Spells.nil.mark (c := ';') (by simp)).literal plain
  have whole := (spells (closed.space.word last (gap _)).space (gap _)).space.word first (gap _)
  refine ⟨.word "import" :: (row ++ [.word "from", .literal path]), ?_, by simpa using unended, ?_⟩
  · simpa using whole
  · obtain ⟨lexeme, others, rfl⟩ := List.exists_cons_of_ne_nil some
    simpa [readStatement?] using reads

section
variable {target : String} {explicitEndings : Bool} {spec : ImportSpec}

/-- Names for the whole file stand for all of it. -/
theorem eq_of_mem_wholePairs {pair : String × String} (member : pair ∈ wholePairs spec) :
    pair = (pair.1, "*") := by
  obtain ⟨-, whole⟩ := List.mem_filter.1 member
  exact Prod.ext rfl (by simpa using whole)

theorem eq_of_mem_defaultPairs {pair : String × String} (member : pair ∈ defaultPairs spec) :
    pair = (pair.1, "default") := by
  obtain ⟨-, default⟩ := List.mem_filter.1 member
  exact Prod.ext rfl (by simpa using default)

/-- The clause behind a default name binds the names that there is room for. -/
theorem secondTexts_cases (writable : IsWritable target explicitEndings spec) :
    (secondTexts spec = [] ∧ wholePairs spec = [] ∧ namedPairs spec = []) ∨
      ∃ clause row, secondTexts spec = [clause] ∧ IsSecond clause row (shownSecond spec) := by
  unfold secondTexts shownSecond
  cases wholes : wholePairs spec with
  | cons pair rest =>
    have member : pair ∈ wholePairs spec := wholes ▸ List.mem_cons_self
    have second := isSecond_whole (writable.names pair (List.mem_filter.1 member).1).1
    rw [← eq_of_mem_wholePairs member] at second
    exact .inr ⟨_, _, rfl, second⟩
  | nil =>
    by_cases none : namedPairs spec = []
    · exact .inl ⟨by simp [none], rfl, none⟩
    · have listable : ∀ pair ∈ namedPairs spec, IsListable pair := by
        intro pair member
        obtain ⟨given, named⟩ := List.mem_filter.1 member
        have apart : pair.2 ≠ "default" ∧ pair.2 ≠ "*" := by simpa using named
        obtain ⟨bindable, imported⟩ := writable.names pair given
        exact ⟨bindable, imported.resolve_left apart.2⟩
      exact .inr ⟨_, _, by simp [none], isSecond_named none listable⟩

theorem isStatement_of_empty (writable : IsWritable target explicitEndings spec)
    (none : spec.names.toList = []) :
    IsStatement (statement target explicitEndings spec)
      (readingOf target explicitEndings spec) := by
  have nothing : shown spec = [] := by
    simp [shown, shownSecond, defaultPairs, wholePairs, namedPairs, none]
  have first : isName "import" = true := by decide
  have closed := (Spells.nil.mark (c := ';') (by simp)).literal writable.path
  have whole := closed.space.word first (.cons (by decide) _)
  refine ⟨[.word "import", .literal (targetPath target explicitEndings spec.path)], ?_, by simp, ?_⟩
  · simpa [statement, Dictionary.isEmpty, none] using whole
  · simp [readStatement?, readingOf, nothing]

theorem isStatement_statement (writable : IsWritable target explicitEndings spec) :
    IsStatement (statement target explicitEndings spec)
      (readingOf target explicitEndings spec) := by
  by_cases none : spec.names.toList = []
  · exact isStatement_of_empty writable none
  have some : spec.names.isEmpty = false := by simpa [Dictionary.isEmpty] using none
  simp only [statement, some, Bool.false_eq_true, if_false, clauseTexts_of]
  cases defaults : defaultPairs spec with
  | nil =>
    rcases secondTexts_cases writable with ⟨-, wholes, named⟩ | ⟨clause, row, texts, second⟩
    · -- Each name is of one of the three kinds.
      obtain ⟨pair, given⟩ := List.exists_mem_of_ne_nil _ none
      have notDefault := List.filter_eq_nil_iff.1 defaults pair given
      have notWhole := List.filter_eq_nil_iff.1 wholes pair given
      have notNamed := List.filter_eq_nil_iff.1 named pair given
      simp_all
    · obtain ⟨c, rest, rfl⟩ := second.starts
      have shownAll : shown spec = shownSecond spec := by simp [shown, defaults]
      rw [texts, readingOf, shownAll]
      exact isStatement_of_clauses writable.path second.spells (List.cons_ne_nil _ _) second.unended
        (second.reads [] _)
  | cons pair rest =>
    have member : pair ∈ defaultPairs spec := defaults ▸ List.mem_cons_self
    have bindable := (writable.names pair (List.mem_filter.1 member).1).1
    have shownAll : shown spec = (pair.1, "default") :: shownSecond spec := by
      rw [shown, defaults, ← eq_of_mem_defaultPairs member]
      rfl
    rw [readingOf, shownAll]
    rcases secondTexts_cases writable with ⟨texts, wholes, named⟩ | ⟨clause, row, texts, second⟩
    · have nothing : shownSecond spec = [] := by simp [shownSecond, wholes, named]
      have alone {text : List Char} {after : List Lexeme} (spells : Spells text after)
          (ends : Breaks text) :
          Spells ((", ".intercalate [pair.1]).toList ++ text) ([.word pair.1] ++ after) := by
        simpa using spells.word (isName_of_isBindable bindable) ends
      rw [texts, nothing]
      exact isStatement_of_clauses writable.path alone (List.cons_ne_nil _ _) (by simp)
        (by simp [readClauses?, readPath?, bindable])
    · have both {text : List Char} {after : List Lexeme} (spells : Spells text after)
          (ends : Breaks text) :
          Spells ((", ".intercalate [pair.1, clause]).toList ++ text)
            (.word pair.1 :: .mark ',' :: row ++ after) := by
        have comma := (second.spells spells ends).space.mark (c := ',') (by simp)
        have whole := comma.word (isName_of_isBindable bindable) (.cons (by decide) _)
        simpa [String.intercalate_cons_cons] using whole
      rw [texts]
      exact isStatement_of_clauses writable.path both (List.cons_ne_nil _ _)
        (by simpa using second.unended) (by simp [readClauses?, bindable, second.reads])

end

/-! ### The statements of a component -/

theorem rowsOf?_append {row : List Lexeme} (unended : .mark ';' ∉ row)
    (soFar rest : List Lexeme) :
    rowsOf? soFar (row ++ .mark ';' :: rest) = (rowsOf? [] rest).map ((soFar ++ row) :: ·) := by
  induction row generalizing soFar with
  | nil => simp [rowsOf?]
  | cons lexeme row ih =>
    rw [List.mem_cons, not_or] at unended
    have step : rowsOf? soFar (lexeme :: (row ++ .mark ';' :: rest)) =
        rowsOf? (soFar ++ [lexeme]) (row ++ .mark ';' :: rest) := by
      rw [rowsOf?]
      rintro rfl
      exact unended.1 rfl
    rw [List.cons_append, step, ih unended.2, List.append_assoc, List.singleton_append]

theorem IsStatement.unique {line : String} {reading other : Reading}
    (isReading : IsStatement line reading) (isOther : IsStatement line other) :
    reading = other := by
  obtain ⟨row, spells, -, read⟩ := isReading
  obtain ⟨otherRow, otherSpells, -, otherRead⟩ := isOther
  have ends : Breaks [] := fun c none => nomatch none
  have same := (spells [] ends).symm.trans (otherSpells [] ends)
  have rows : row = otherRow := by simpa [lexemes?, closeWord] using same
  rw [rows] at read
  exact Option.some.inj (read.symm.trans otherRead)

/-- A statement in front of a text that breaks. -/
theorem IsStatement.append {line : String} {reading : Reading} {rest : List Char}
    (isReading : IsStatement line reading) (ends : Breaks rest) :
    (lexemes? (.word []) (line.toList ++ rest)).bind readPieces? =
      ((lexemes? (.word []) rest).bind readPieces?).map (reading :: ·) := by
  obtain ⟨row, spells, unended, read⟩ := isReading
  rw [spells rest ends]
  cases lexemes? (.word []) rest with
  | none => rfl
  | some others =>
    have split : rowsOf? [] (row ++ .mark ';' :: others) = (rowsOf? [] others).map (row :: ·) :=
      rowsOf?_append unended [] others
    simp only [Option.map_some, Option.bind_some, List.append_assoc, List.singleton_append,
      readPieces?, split]
    cases rowsOf? [] others with
    | none => rfl
    | some rows =>
      simp only [Option.map_some, Option.bind_some, List.mapM_cons, read]
      cases rows.mapM readStatement? with
      | none => rfl
      | some readings => rfl

/-- A line feed between statements is no piece of them. -/
theorem lexemes?_lineFeed (text : List Char) :
    lexemes? (.word []) ('\n' :: text) = lexemes? (.word []) text := by
  have step : lexemes? (.word []) ('\n' :: text) =
      (lexemes? (.word []) text).map (closeWord []) := rfl
  rw [step]
  exact Option.map_id'

/-- Statements on lines of their own are read one after the other. -/
theorem readStatements?_lines {lines : List String} {readings : List Reading}
    (each : List.Forall₂ IsStatement lines readings) :
    readStatements? ("\n".intercalate lines) = some readings := by
  induction each with
  | nil => rfl
  | @cons line reading lines readings isReading each ih =>
    cases lines with
    | nil =>
      cases each
      have ends : Breaks [] := fun c none => nomatch none
      have alone := isReading.append ends
      rw [List.append_nil] at alone
      rw [readStatements?, String.intercalate_singleton, alone]
      rfl
    | cons next others =>
      have ends : Breaks ('\n' :: ("\n".intercalate (next :: others)).toList) :=
        .cons (by decide) _
      have whole := isReading.append ends
      rw [lexemes?_lineFeed, ← readStatements?, ih] at whole
      simpa [readStatements?, String.intercalate_cons_cons] using whole

theorem mem_statementList {target : String} {explicitEndings : Bool} {specs : List ImportSpec}
    {line : String} :
    line ∈ statementList target explicitEndings specs ↔
      ∃ spec ∈ specs,
        spec.path ≠ frameworkPackage ∧ statement target explicitEndings spec = line := by
  have collected (specs : List ImportSpec) (lines : List String) :
      line ∈ specs.foldl (fun lines spec =>
        let line := statement target explicitEndings spec
        if lines.contains line then lines else lines ++ [line]) lines ↔
      line ∈ lines ∨ ∃ spec ∈ specs, statement target explicitEndings spec = line := by
    induction specs generalizing lines with
    | nil => simp
    | cons spec specs ih =>
      rw [List.foldl_cons, ih]
      by_cases known : statement target explicitEndings spec ∈ lines
      · have twice : statement target explicitEndings spec = line → line ∈ lines := by
          rintro rfl
          exact known
        simp [known]
        tauto
      · simp [known, or_assoc, eq_comm]
  rw [statementList, collected]
  simp [and_assoc]

/-! ### Imports that fit one statement -/

section
variable {spec : ImportSpec} {pair : String × String}

theorem mem_defaultPairs :
    pair ∈ defaultPairs spec ↔ pair ∈ spec.names.toList ∧ pair.2 = "default" := by
  simp [defaultPairs]

theorem mem_wholePairs : pair ∈ wholePairs spec ↔ pair ∈ spec.names.toList ∧ pair.2 = "*" := by
  simp [wholePairs]

theorem mem_namedPairs :
    pair ∈ namedPairs spec ↔ pair ∈ spec.names.toList ∧ pair.2 ≠ "default" ∧ pair.2 ≠ "*" := by
  simp [namedPairs]

/-- No pair is given twice. -/
theorem nodup_filter_names (test : String × String → Bool) :
    (spec.names.toList.filter test).Nodup :=
  (List.Nodup.of_map Prod.fst spec.names.distinct).filter test

/-- The first default name is the only one that is shown. -/
theorem shown_default_iff (default : pair.2 = "default") :
    pair ∈ shown spec ↔ pair ∈ (defaultPairs spec).take 1 := by
  have notSecond : pair ∉ shownSecond spec := by
    intro member
    unfold shownSecond at member
    split at member
    case h_1 whole rest wholes =>
      obtain rfl := List.mem_singleton.1 member
      have inWholes : pair ∈ wholePairs spec := wholes ▸ List.mem_cons_self
      rw [(mem_wholePairs.1 inWholes).2] at default
      exact absurd default (by decide)
    case h_2 => exact (mem_namedPairs.1 member).2.1 default
  rw [shown, List.mem_append, or_iff_left notSecond]

/-- Whether another name is shown depends on what there is besides default names. -/
theorem shown_other_iff (other : pair.2 ≠ "default") :
    pair ∈ shown spec ↔ pair ∈ shownSecond spec := by
  have notFirst : pair ∉ (defaultPairs spec).take 1 := fun member =>
    other (mem_defaultPairs.1 (List.mem_of_mem_take member)).2
  rw [shown, List.mem_append, or_iff_right notFirst]

/-- The statement of an import has room for all its names exactly if there is at most one default
name and, besides it, no name for the whole file or only that one. -/
theorem shown_all_iff (spec : ImportSpec) :
    (∀ pair ∈ spec.names.toList, pair ∈ shown spec) ↔
      (defaultPairs spec).length ≤ 1 ∧
        (wholePairs spec = [] ∨ (wholePairs spec).length = 1 ∧ namedPairs spec = []) := by
  constructor
  · intro all
    constructor
    · match defaults : defaultPairs spec with
      | [] => simp
      | [_] => simp
      | first :: second :: rest =>
        have member : second ∈ defaultPairs spec := by simp [defaults]
        obtain ⟨given, default⟩ := mem_defaultPairs.1 member
        have shown := (shown_default_iff default).1 (all second given)
        rw [defaults] at shown
        have distinct : (first :: second :: rest).Nodup := defaults ▸ nodup_filter_names _
        simp_all
    · match wholes : wholePairs spec with
      | [] => exact .inl rfl
      | first :: rest =>
        -- There is room for nothing but the first of them.
        have only {pair : String × String} (given : pair ∈ spec.names.toList)
            (other : pair.2 ≠ "default") : pair = first := by
          have shown := (shown_other_iff other).1 (all pair given)
          rw [shownSecond, wholes] at shown
          exact List.mem_singleton.1 shown
        have member {pair : String × String} (inRow : pair ∈ first :: rest) :
            pair ∈ spec.names.toList ∧ pair.2 = "*" :=
          mem_wholePairs.1 (wholes ▸ inRow)
        refine .inr ⟨?_, ?_⟩
        · have distinct : (first :: rest).Nodup := wholes ▸ nodup_filter_names _
          cases rest with
          | nil => rfl
          | cons second others =>
            have inRow : second ∈ first :: second :: others := by simp
            obtain ⟨given, whole⟩ := member inRow
            have same := only given (by simp [whole])
            simp_all
        · rw [List.eq_nil_iff_forall_not_mem]
          intro pair named
          obtain ⟨given, notDefault, notWhole⟩ := mem_namedPairs.1 named
          obtain rfl := only given notDefault
          exact notWhole (member List.mem_cons_self).2
  · rintro ⟨fewDefaults, wholesOrNamed⟩ pair given
    by_cases default : pair.2 = "default"
    · rw [shown_default_iff default, List.take_of_length_le fewDefaults]
      exact mem_defaultPairs.2 ⟨given, default⟩
    rw [shown_other_iff default]
    unfold shownSecond
    by_cases whole : pair.2 = "*"
    · have member : pair ∈ wholePairs spec := mem_wholePairs.2 ⟨given, whole⟩
      rcases wholesOrNamed with none | ⟨one, -⟩
      · rw [none] at member
        cases member
      · obtain ⟨first, wholes⟩ := List.length_eq_one_iff.1 one
        rw [wholes] at member ⊢
        exact member
    · have member : pair ∈ namedPairs spec := mem_namedPairs.2 ⟨given, default, whole⟩
      rcases wholesOrNamed with none | ⟨-, none⟩
      · rw [none]
        exact member
      · rw [none] at member
        cases member

end

section
variable {target : String} {explicitEndings : Bool} {component : Component}

/-- The statements of a component bind exactly what its imports show. -/
theorem readStatements?_statements
    (writable : ∀ spec ∈ component.imports, spec.path ≠ frameworkPackage →
      IsWritable target explicitEndings spec) :
    ∃ readings, readStatements? (statements target explicitEndings component) = some readings ∧
      ∀ reading, reading ∈ readings ↔ ∃ spec ∈ component.imports, spec.path ≠ frameworkPackage ∧
        reading = readingOf target explicitEndings spec := by
  have isStatement {spec : ImportSpec} (member : spec ∈ component.imports)
      (foreign : spec.path ≠ frameworkPackage) :
      IsStatement (statement target explicitEndings spec) (readingOf target explicitEndings spec) :=
    isStatement_statement (writable spec member foreign)
  have readable : ∀ line ∈ statementList target explicitEndings component.imports,
      ∃ reading, IsStatement line reading := by
    intro line member
    obtain ⟨spec, given, foreign, rfl⟩ := mem_statementList.1 member
    exact ⟨_, isStatement given foreign⟩
  choose! readingOfLine isReading using readable
  refine ⟨(statementList target explicitEndings component.imports).map readingOfLine, ?_, ?_⟩
  · apply readStatements?_lines
    rw [List.forall₂_map_right_iff, List.forall₂_same]
    exact isReading
  · -- Imports with the same statement bind the same names.
    have same {spec : ImportSpec} (given : spec ∈ component.imports)
        (foreign : spec.path ≠ frameworkPackage) :
        readingOfLine (statement target explicitEndings spec) =
          readingOf target explicitEndings spec := by
      apply IsStatement.unique _ (isStatement given foreign)
      exact isReading _ (mem_statementList.2 ⟨spec, given, foreign, rfl⟩)
    intro reading
    rw [List.mem_map]
    constructor
    · rintro ⟨line, member, rfl⟩
      obtain ⟨spec, given, foreign, rfl⟩ := mem_statementList.1 member
      exact ⟨spec, given, foreign, same given foreign⟩
    · rintro ⟨spec, given, foreign, rfl⟩
      exact ⟨_, mem_statementList.2 ⟨spec, given, foreign, rfl⟩, same given foreign⟩

/-- Every local name of an import is bound by a statement, to what it is taken from, exactly if for
each of them there is an import of the same file whose statement has room for it. -/
theorem binds_all_iff
    (writable : ∀ spec ∈ component.imports, spec.path ≠ frameworkPackage →
      IsWritable target explicitEndings spec) :
    ∃ readings, readStatements? (statements target explicitEndings component) = some readings ∧
      ∀ spec ∈ component.imports, spec.path ≠ frameworkPackage → spec.names.toList ≠ [] →
        ((∀ pair ∈ spec.names.toList, ∃ reading ∈ readings,
            reading.path = targetPath target explicitEndings spec.path ∧ pair ∈ reading.names) ↔
          ∀ pair ∈ spec.names.toList, ∃ other ∈ component.imports, other.path ≠ frameworkPackage ∧
            targetPath target explicitEndings other.path =
              targetPath target explicitEndings spec.path ∧ pair ∈ shown other) := by
  obtain ⟨readings, read, mem_readings⟩ := readStatements?_statements writable
  refine ⟨readings, read, fun spec _ _ _ => forall₂_congr fun pair _ => ?_⟩
  constructor
  · rintro ⟨reading, member, path, bound⟩
    obtain ⟨other, given, foreign, rfl⟩ := (mem_readings reading).1 member
    exact ⟨other, given, foreign, path, bound⟩
  · rintro ⟨other, given, foreign, path, bound⟩
    exact ⟨_, (mem_readings _).2 ⟨other, given, foreign, rfl⟩, path, bound⟩

end

/-- An import of the default export and of two others, one of them under another name. -/
def mixedImport : ImportSpec :=
  ⟨"./kit.lite", .ofList [("Kit", "default"), ("a", "a"), ("b", "c")]⟩

theorem binds_all_mixed :
    ∃ readings,
      readStatements? (statements "astro" false { name := "Page", imports := [mixedImport] }) =
          some readings ∧
        ∀ pair ∈ mixedImport.names.toList, ∃ reading ∈ readings,
          reading.path = "./kit.astro" ∧ pair ∈ reading.names := by
  let page : Component := { name := "Page", imports := [mixedImport] }
  have path : targetPath "astro" false mixedImport.path = "./kit.astro" := by decide +kernel
  have writable : ∀ spec ∈ page.imports, spec.path ≠ frameworkPackage →
      IsWritable "astro" false spec := by
    intro spec member _
    obtain rfl := List.mem_singleton.1 member
    refine ⟨by decide +kernel, ?_⟩
    rw [path]
    simp
  have fits := (shown_all_iff mixedImport).2 (by decide)
  obtain ⟨readings, read, binds⟩ := binds_all_iff writable
  have bound := binds mixedImport List.mem_cons_self (by decide) (by decide)
  refine ⟨readings, read, path ▸ bound.2 fun pair member => ?_⟩
  exact ⟨mixedImport, List.mem_cons_self, by decide, rfl, fits pair member⟩

/-- An import of a whole file and of one of its names. -/
def crowdedImport : ImportSpec :=
  ⟨"./kit", .ofList [("kit", "*"), ("Button", "Button")]⟩

/-- Only the name of the whole file is bound. -/
theorem lost_name :
    ("Button", "Button") ∈ crowdedImport.names.toList ∧
      statements "astro" false { name := "Page", imports := [crowdedImport] } =
        "import * as kit from \"./kit\";" ∧
      readStatements? (statements "astro" false { name := "Page", imports := [crowdedImport] }) =
        some [⟨[("kit", "*")], "./kit"⟩] := by
  decide +kernel

end ComponentCompiler.Import
