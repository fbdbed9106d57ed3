import ComponentCompiler.Script.ObjectLiteral
import Mathlib.Data.List.Infix
import Mathlib.Data.List.TakeWhile

/-!
# The values of string literals

A string literal of the embedded language denotes a row of code units: each character stands for
itself, and an escape stands for what the lexical grammar gives it. The value of a literal in a
style object is found by other means. Its body is written as it would be between double quotes, and
is then read as a string of a document; if it is none, the body itself is taken for the value.

Documents have fewer escapes than the embedded language and admit no control characters. So the
value is right if the literal keeps to what both have, and it is right if there was nothing to
decode. In all other cases it is wrong, since decoding would have made the text shorter.

## Main definitions

* `Script.Escape`, `Script.Denotes` — the code units that a literal denotes
* `Script.isShared` — the body keeps to escapes that documents have too
* `Script.isVerbatim` — there is nothing to decode in the body

## Main results

* `Script.reads_respelled` — which bodies are read as a string of a document, and into what
* `Script.respelled_eq_iff` — which bodies are their own value
* `Script.stringValue_eq_iff` — which literals are given the value that they denote
* `Script.evaluateLiteral_strings_iff` — the same for the entries of a style object
* `Script.misread_arrow` — an escape that documents do not have
-/

namespace ComponentCompiler.Script

theorem isQuote_iff {c : Char} : isQuote c = true ↔ c = '"' ∨ c = '\'' := by
  rw [isQuote, Bool.or_eq_true, beq_iff_eq, beq_iff_eq]
  exact or_congr_right (Char.toNat_inj (d := '\''))

/-! ### Code units -/

/-- The code units of a code point. -/
def pointUnits (point : Nat) : List Nat :=
  if point < 0x10000 then [point]
  else [0xD800 + (point - 0x10000) / 0x400, 0xDC00 + (point - 0x10000) % 0x400]

/-- The code units of a text. -/
def unitsOf (text : List Char) : List Nat :=
  text.flatMap fun c => pointUnits c.toNat

@[simp] theorem unitsOf_nil : unitsOf [] = [] := rfl

@[simp] theorem unitsOf_cons (c : Char) (text : List Char) :
    unitsOf (c :: text) = pointUnits c.toNat ++ unitsOf text := rfl

@[simp] theorem unitsOf_append (front back : List Char) :
    unitsOf (front ++ back) = unitsOf front ++ unitsOf back :=
  List.flatMap_append

theorem length_pointUnits_pos (point : Nat) : 0 < (pointUnits point).length := by
  unfold pointUnits
  split
  · exact Nat.zero_lt_one
  · exact Nat.zero_lt_two

theorem length_pointUnits_le (point : Nat) : (pointUnits point).length ≤ 2 := by
  unfold pointUnits
  split
  · exact Nat.le_succ 1
  · exact Nat.le_refl 2

theorem length_le_unitsOf (text : List Char) : text.length ≤ (unitsOf text).length := by
  induction text with
  | nil => exact Nat.le_refl 0
  | cons c rest ih =>
    have some := length_pointUnits_pos c.toNat
    rw [unitsOf_cons, List.length_append, List.length_cons]
    omega

/-! ### What a literal denotes -/

/-- What a letter after a backslash stands for, if not for itself. -/
def controlUnit? : Char → Option Nat
  | 'b' => some 8
  | 't' => some 9
  | 'n' => some 10
  | 'v' => some 11
  | 'f' => some 12
  | 'r' => some 13
  | _ => none

/-- The number that octal digits stand for. -/
def octalValue (digits : List Char) : Nat :=
  digits.foldl (fun n c => n * 8 + (c.toNat - 0x30)) 0

/-- The number that hexadecimal digits stand for; `none` if one of the characters is no digit. -/
def hexNumber? (digits : List Char) : Option Nat :=
  digits.foldlM (fun n c => (Text.hexValue? c).map (n * 16 + ·)) 0

/-- What is written after a backslash, given the text behind it, and the code units that it stands
for. -/
inductive Escape (behind : List Char) : List Char → List Nat → Prop
  | control {c : Char} {unit : Nat} (known : controlUnit? c = some unit) : Escape behind [c] [unit]
  /-- Every other character stands for itself, but for those that start one of the other escapes. -/
  | itself {c : Char} (control : controlUnit? c = none) (octal : isOctalDigit c = false)
      (lineEnd : isLineEnd c = false) (marks : c ≠ 'x' ∧ c ≠ 'u') :
      Escape behind [c] (pointUnits c.toNat)
  /-- A line that goes on in the next one. -/
  | lineEnd {c : Char} (ends : isLineEnd c = true) : Escape behind [c] []
  | lineEnds : Escape behind ['\r', '\n'] []
  /-- Octal digits are taken as long as there are three at most and their value is a byte. -/
  | octal {digits : List Char} (some : digits ≠ []) (each : ∀ c ∈ digits, isOctalDigit c = true)
      (few : digits.length ≤ 3) (small : octalValue digits < 256)
      (longest : ∀ c, behind.head? = .some c → isOctalDigit c = true → digits.length < 3 →
        256 ≤ octalValue (digits ++ [c])) :
      Escape behind digits [octalValue digits]
  | byte {a b : Char} {unit : Nat} (value : hexNumber? [a, b] = some unit) :
      Escape behind ['x', a, b] [unit]
  | unit {a b c d : Char} {unit : Nat} (value : hexNumber? [a, b, c, d] = some unit) :
      Escape behind ['u', a, b, c, d] [unit]
  | point {digits : List Char} {point : Nat} (some : digits ≠ [])
      (value : hexNumber? digits = .some point) (valid : point ≤ 0x10FFFF) :
      Escape behind ('u' :: '\x7b' :: (digits ++ ['\x7d'])) (pointUnits point)

/-- The text between two quotes, and the code units that it denotes. -/
inductive Denotes (quote : Char) : List Char → List Nat → Prop
  | nil : Denotes quote [] []
  | plain {c : Char} {text : List Char} {units : List Nat}
      (ordinary : c ≠ quote ∧ c ≠ '\\' ∧ c ≠ '\n' ∧ c ≠ '\r') (rest : Denotes quote text units) :
      Denotes quote (c :: text) (pointUnits c.toNat ++ units)
  | escape {written text : List Char} {meant units : List Nat} (means : Escape text written meant)
      (rest : Denotes quote text units) :
      Denotes quote ('\\' :: (written ++ text)) (meant ++ units)

theorem Escape.written_ne_nil {behind written : List Char} {meant : List Nat}
    (means : Escape behind written meant) : written ≠ [] := by
  cases means with
  | octal some => exact some
  | _ => exact List.cons_ne_nil _ _

/-- Decoding an escape makes it shorter. -/
theorem Escape.length_meant_le {behind written : List Char} {meant : List Nat}
    (means : Escape behind written meant) : meant.length ≤ (unitsOf written).length := by
  cases means with
  | control => exact length_le_unitsOf [_]
  | itself => simp
  | lineEnd => exact Nat.zero_le _
  | lineEnds => exact Nat.zero_le _
  | octal some =>
    exact (List.length_pos_of_ne_nil some).trans_le (length_le_unitsOf _)
  | byte => exact Nat.le_trans (by simp) (length_le_unitsOf _)
  | unit => exact Nat.le_trans (by simp) (length_le_unitsOf _)
  | point =>
    refine (length_pointUnits_le _).trans (Nat.le_trans ?_ (length_le_unitsOf _))
    simp

theorem isSome_hexValue?_of_mem {digits : List Char} {start number : Nat}
    (value : digits.foldlM (fun n c => (Text.hexValue? c).map (n * 16 + ·)) start = some number)
    {c : Char} (member : c ∈ digits) : (Text.hexValue? c).isSome = true := by
  induction digits generalizing start with
  | nil => cases member
  | cons digit digits ih =>
    rw [List.foldlM_cons] at value
    obtain ⟨next, first, others⟩ := Option.bind_eq_some_iff.1 value
    obtain ⟨unit, found, -⟩ := Option.map_eq_some_iff.1 first
    rcases List.mem_cons.1 member with rfl | later
    · rw [found]
      rfl
    · exact ih others later

theorem hexValue?_lt {c : Char} {value : Nat} (found : Text.hexValue? c = some value) :
    value < 16 := by
  simp only [Text.hexValue?, Bool.and_eq_true, decide_eq_true_eq] at found
  by_cases digit : 0x30 ≤ c.toNat ∧ c.toNat ≤ 0x39
  · rw [if_pos digit, Option.some.injEq] at found
    omega
  by_cases small : 0x61 ≤ c.toNat ∧ c.toNat ≤ 0x66
  · rw [if_neg digit, if_pos small, Option.some.injEq] at found
    omega
  by_cases capital : 0x41 ≤ c.toNat ∧ c.toNat ≤ 0x46
  · rw [if_neg digit, if_neg small, if_pos capital, Option.some.injEq] at found
    omega
  rw [if_neg digit, if_neg small, if_neg capital] at found
  cases found

/-- A character that is written in an escape of more than one character. -/
def isEscapeText (c : Char) : Bool :=
  c != '\\' && c != '\'' && c != '"'

theorem isEscapeText_of_hexValue? {c : Char} (digit : (Text.hexValue? c).isSome = true) :
    isEscapeText c = true := by
  have other (d : Char) (none : Text.hexValue? d = .none) : (c != d) = true := by
    rw [bne_iff_ne]
    rintro rfl
    rw [none] at digit
    cases digit
  simp [isEscapeText, other _ (show Text.hexValue? '\\' = none by decide),
    other _ (show Text.hexValue? '\'' = none by decide),
    other _ (show Text.hexValue? '"' = none by decide)]

/-- An escape of more than one character has no backslash and no quote in it. -/
theorem Escape.written_cases {behind written : List Char} {meant : List Nat}
    (means : Escape behind written meant) :
    (∃ c, written = [c]) ∨ ∀ c ∈ written, isEscapeText c = true := by
  have digits {digits : List Char} {number : Nat} (value : hexNumber? digits = some number) :
      ∀ c ∈ digits, isEscapeText c = true :=
    fun c member => isEscapeText_of_hexValue? (isSome_hexValue?_of_mem value member)
  have mark {c : Char} {row : List Char} (first : isEscapeText c = true)
      (others : ∀ c ∈ row, isEscapeText c = true) : ∀ d ∈ c :: row, isEscapeText d = true :=
    List.forall_mem_cons.2 ⟨first, others⟩
  cases means with
  | control | itself | lineEnd => exact .inl ⟨_, rfl⟩
  | lineEnds => exact .inr (by simp [isEscapeText])
  | octal some each =>
    refine .inr fun c member => ?_
    have digit := each c member
    have other (d : Char) (none : isOctalDigit d = false) : (c != d) = true := by
      rw [bne_iff_ne]
      rintro rfl
      rw [none] at digit
      cases digit
    simp [isEscapeText, other _ (show isOctalDigit '\\' = false by decide),
      other _ (show isOctalDigit '\'' = false by decide),
      other _ (show isOctalDigit '"' = false by decide)]
  | byte value => exact .inr (mark rfl (digits value))
  | unit value => exact .inr (mark rfl (digits value))
  | point some value =>
    refine .inr (mark rfl (mark rfl fun c member => ?_))
    rcases List.mem_append.1 member with digit | last
    · exact digits value c digit
    · obtain rfl := List.mem_singleton.1 last
      rfl

/-! ### Bodies that keep to what documents have -/

/-- Whether each escape in the text is one that documents have too, and means the same in them: a
backslash before the own quote of the literal, before a backslash or slash, before the letters for
five control characters, and before a `u` with four digits. There are no control characters as
such. -/
def isShared (quote : Char) : List Char → Bool
  | [] => true
  | '\\' :: 'u' :: a :: b :: c :: d :: rest =>
    (Json.codeUnit? a b c d).isSome && isShared quote rest
  | '\\' :: c :: rest =>
    (c == quote || ['\\', '/', 'b', 'f', 'n', 'r', 't'].contains c) && isShared quote rest
  | c :: rest => c != '\\' && 0x20 ≤ c.toNat && isShared quote rest

/-- Whether there is nothing to decode in the text: no backslash and, between single quotes, no
double quote. A backslash before a single quote is taken away in any case if the literal stands
between single quotes. -/
def isVerbatim (quote : Char) : List Char → Bool
  | [] => true
  | '\\' :: c :: rest => quote == '\'' && c == '\'' && isVerbatim quote rest
  | c :: rest => c != '\\' && !(quote == '\'' && c == '"') && isVerbatim quote rest

theorem isShared_plain {quote c : Char} (plain : c ≠ '\\') (text : List Char) :
    isShared quote (c :: text) = (decide (0x20 ≤ c.toNat) && isShared quote text) := by
  have other : (c != '\\') = true := bne_iff_ne.2 plain
  simp [isShared, plain, other]

theorem isShared_short {quote c : Char} (letter : c ≠ 'u') (text : List Char) :
    isShared quote ('\\' :: c :: text) =
      ((c == quote || ['\\', '/', 'b', 'f', 'n', 'r', 't'].contains c) && isShared quote text) := by
  simp [isShared, letter]

theorem isVerbatim_plain {quote c : Char} (plain : c ≠ '\\') (text : List Char) :
    isVerbatim quote (c :: text) = (!(quote == '\'' && c == '"') && isVerbatim quote text) := by
  have other : (c != '\\') = true := bne_iff_ne.2 plain
  simp [isVerbatim, plain, other]

theorem readUnits_plain {opening text : List Char} {c : Char} (plain : c ≠ '"' ∧ c ≠ '\\') :
    Json.readUnits opening (c :: text) =
      if c.toNat < 0x20 then Json.refuse .controlCharacter (c :: text)
      else Json.consUnit c.toNat (Json.readUnits opening text) := by
  simp [Json.readUnits, plain]

theorem readUnits_known {opening text : List Char} {c meant : Char} (letter : c ≠ 'u')
    (known : Json.shortEscape? c = some meant) :
    Json.readUnits opening ('\\' :: c :: text) =
      Json.consUnit meant.toNat (Json.readUnits opening text) := by
  simp [Json.readUnits, letter, known]

theorem readUnits_unknown {opening text : List Char} {c : Char} (letter : c ≠ 'u')
    (unknown : Json.shortEscape? c = none) :
    Json.readUnits opening ('\\' :: c :: text) = Json.refuse .escape ('\\' :: c :: text) := by
  simp [Json.readUnits, letter, unknown]

theorem unescapeSingle_plain {c : Char} (plain : c ≠ '\\') (text : List Char) :
    unescapeSingle (c :: text) = c :: unescapeSingle text := by
  simp [unescapeSingle, plain]

theorem unescapeSingle_other {c : Char} (plain : c ≠ '\'') (text : List Char) :
    unescapeSingle ('\\' :: c :: text) = '\\' :: unescapeSingle (c :: text) := by
  simp [unescapeSingle, plain]

/-! ### The body between double quotes -/

/-- The text between the given quotes as it would be written between double quotes. -/
def respelled (quote : Char) (body : List Char) : List Char :=
  if quote = '\'' then escapeDouble (unescapeSingle body) else body

theorem doubleQuotedBody_quoted {quote : Char} (body : List Char) :
    doubleQuotedBody (quote :: (body ++ [quote])) = respelled quote body := by
  simp [doubleQuotedBody, respelled]

/-- The text after the first quote of a literal, without a character that was written there. -/
def respelledCharacter (quote c : Char) : List Char :=
  if quote = '\'' ∧ c = '"' then ['\\', '"'] else [c]

/-- An escape as it is written between double quotes. -/
def respelledEscape (quote : Char) (written : List Char) : List Char :=
  if quote = '\'' then
    if written = ['\''] then ['\''] else '\\' :: written.flatMap (respelledCharacter quote)
  else '\\' :: written

theorem respelled_plain {quote c : Char} (plain : c ≠ '\\') (text : List Char) :
    respelled quote (c :: text) = respelledCharacter quote c ++ respelled quote text := by
  by_cases single : quote = '\''
  · simp [respelled, respelledCharacter, single, unescapeSingle_plain plain, escapeDouble]
  · simp [respelled, respelledCharacter, single]

/-- A row without backslashes is kept when single quotes are put in the place of their escapes. -/
theorem unescapeSingle_append {row : List Char} (plain : '\\' ∉ row) (text : List Char) :
    unescapeSingle (row ++ text) = row ++ unescapeSingle text := by
  induction row with
  | nil => rfl
  | cons c row ih =>
    rw [List.mem_cons, not_or] at plain
    rw [List.cons_append, unescapeSingle_plain (Ne.symm plain.1), ih plain.2, List.cons_append]

/-- What follows an escape cannot be taken for a part of it. -/
theorem unescapeSingle_escape {text written : List Char} {meant units : List Nat}
    (means : Escape text written meant) (rest : Denotes '\'' text units)
    (other : written ≠ ['\'']) :
    unescapeSingle ('\\' :: (written ++ text)) = '\\' :: (written ++ unescapeSingle text) := by
  rcases means.written_cases with ⟨c, rfl⟩ | plain
  · have notQuote : c ≠ '\'' := fun same => other (same ▸ rfl)
    rw [List.singleton_append, List.singleton_append, unescapeSingle_other notQuote]
    by_cases backslash : c = '\\'
    · -- The literal would have ended before a quote without a backslash of its own.
      subst backslash
      cases rest with
      | nil => rfl
      | plain ordinary => rw [unescapeSingle_other ordinary.1]
      | escape => rfl
    · rw [unescapeSingle_plain backslash]
  · obtain ⟨c, row, rfl⟩ := List.exists_cons_of_ne_nil means.written_ne_nil
    have first : c ≠ '\'' := by
      rintro rfl
      exact absurd (plain _ List.mem_cons_self) (by decide)
    have noBackslash : '\\' ∉ c :: row := fun member => absurd (plain _ member) (by decide)
    rw [← unescapeSingle_append noBackslash]
    exact unescapeSingle_other first _

theorem respelled_escape {quote : Char} {text written : List Char} {meant units : List Nat}
    (means : Escape text written meant) (rest : Denotes quote text units) :
    respelled quote ('\\' :: (written ++ text)) =
      respelledEscape quote written ++ respelled quote text := by
  by_cases single : quote = '\''
  · subst single
    simp only [respelled, respelledEscape, if_true]
    by_cases own : written = ['\'']
    · subst own
      rfl
    · have each : respelledCharacter '\'' = fun c => if c = '"' then ['\\', '"'] else [c] := by
        funext c
        simp [respelledCharacter]
      rw [if_neg own, unescapeSingle_escape means rest own, each]
      simp [escapeDouble]
  · simp [respelled, respelledEscape, single]

/-! ### Reading the body as a string of a document -/

theorem codeUnit?_eq (a b c d : Char) : Json.codeUnit? a b c d = hexNumber? [a, b, c, d] := by
  simp only [Json.codeUnit?, hexNumber?, List.foldlM_cons, List.foldlM_nil]
  cases Text.hexValue? a <;> cases Text.hexValue? b <;> cases Text.hexValue? c <;>
    cases Text.hexValue? d <;> simp

theorem codeUnit?_lt {a b c d : Char} {unit : Nat} (value : Json.codeUnit? a b c d = some unit) :
    unit < 0x10000 := by
  simp only [Json.codeUnit?, Option.bind_eq_bind, Option.bind_eq_some_iff, Option.pure_def,
    Option.some.injEq] at value
  obtain ⟨first, atFirst, second, atSecond, third, atThird, fourth, atFourth, rfl⟩ := value
  have firstSmall := hexValue?_lt atFirst
  have secondSmall := hexValue?_lt atSecond
  have thirdSmall := hexValue?_lt atThird
  have fourthSmall := hexValue?_lt atFourth
  omega

/-- The text up to the end of a string of a document is read into the code units that the literal
denotes, if it is shared, and otherwise no string ends with it. -/
def Reads (opening text : List Char) (shared : Bool) (units : List Nat) : Prop :=
  if shared then
    ∃ row, Json.readUnits opening text = .ok (row, []) ∧ row.flatMap pointUnits = units
  else ∀ row, Json.readUnits opening text ≠ .ok (row, [])

theorem consUnit_eq_ok_iff {unit : Nat} {reading : Json.Reading (List Nat)} {row : List Nat}
    {rest : List Char} :
    Json.consUnit unit reading = .ok (row, rest) ↔
      ∃ others, reading = .ok (others, rest) ∧ row = unit :: others := by
  cases reading with
  | error refusal => simp [Json.consUnit, Except.map]
  | ok read =>
    obtain ⟨others, left⟩ := read
    simp only [Json.consUnit, Except.map, Except.ok.injEq, Prod.mk.injEq]
    constructor
    · rintro ⟨rfl, rfl⟩
      exact ⟨others, ⟨rfl, rfl⟩, rfl⟩
    · rintro ⟨_, ⟨rfl, rfl⟩, rfl⟩
      exact ⟨rfl, rfl⟩

namespace Reads

variable {opening text longer : List Char} {shared : Bool} {units : List Nat}

theorem nil : Reads opening ['"'] true [] :=
  ⟨[], rfl, rfl⟩

/-- One more code unit in front. -/
theorem cons {unit : Nat} (reads : Reads opening text shared units)
    (step : Json.readUnits opening longer = Json.consUnit unit (Json.readUnits opening text)) :
    Reads opening longer shared (pointUnits unit ++ units) := by
  cases shared with
  | true =>
    obtain ⟨row, read, same⟩ := reads
    refine ⟨unit :: row, ?_, by simp [same]⟩
    rw [step, consUnit_eq_ok_iff]
    exact ⟨row, read, rfl⟩
  | false =>
    intro row read
    rw [step, consUnit_eq_ok_iff] at read
    obtain ⟨others, read, -⟩ := read
    exact reads others read

theorem of_refused (refused : ∃ refusal, Json.readUnits opening longer = .error refusal) :
    Reads opening longer false units := by
  obtain ⟨refusal, refused⟩ := refused
  intro row read
  rw [refused] at read
  cases read

end Reads

/-- How a character of the body is read. -/
theorem Reads.plain {opening text rest : List Char} {quote c : Char} {units : List Nat}
    (double : c = '"' → quote = '\'') (ordinary : c ≠ '\\')
    (reads : Reads opening rest (isShared quote text) units) :
    Reads opening (respelledCharacter quote c ++ rest) (isShared quote (c :: text))
      (pointUnits c.toNat ++ units) := by
  rw [isShared_plain ordinary]
  unfold respelledCharacter
  split
  case isTrue escaped =>
    obtain ⟨rfl, rfl⟩ := escaped
    exact reads.cons (readUnits_known (by decide) rfl)
  case isFalse kept =>
    have notDouble : c ≠ '"' := fun same => kept ⟨double same, same⟩
    have step : Json.readUnits opening (c :: rest) = _ := readUnits_plain ⟨notDouble, ordinary⟩
    by_cases control : c.toNat < 0x20
    · have small : decide (0x20 ≤ c.toNat) = false := by simpa using control
      rw [small, Bool.false_and]
      rw [if_pos control] at step
      exact .of_refused ⟨_, step⟩
    · have large : decide (0x20 ≤ c.toNat) = true := by simpa using control
      rw [large, Bool.true_and]
      rw [if_neg control] at step
      exact reads.cons step

section
variable {opening text rest : List Char} {quote : Char} {units : List Nat}

/-- An escape that documents have too. -/
theorem Reads.known {c meant : Char} (letter : c ≠ 'u')
    (shared : (c == quote || ['\\', '/', 'b', 'f', 'n', 'r', 't'].contains c) = true)
    (known : Json.shortEscape? c = some meant)
    (reads : Reads opening rest (isShared quote text) units) :
    Reads opening ('\\' :: c :: rest) (isShared quote ('\\' :: c :: text))
      (pointUnits meant.toNat ++ units) := by
  rw [isShared_short letter, shared, Bool.true_and]
  exact reads.cons (readUnits_known letter known)

/-- An escape that documents do not have. -/
theorem Reads.unknown {c : Char} (letter : c ≠ 'u') (own : c ≠ quote)
    (unknown : Json.shortEscape? c = none) :
    Reads opening ('\\' :: c :: rest) (isShared quote ('\\' :: c :: text)) units := by
  have alone : ['\\', '/', 'b', 'f', 'n', 'r', 't'].contains c = false := by
    rw [← Bool.not_eq_true, List.contains_iff_mem]
    intro member
    have known : ∀ d ∈ ['\\', '/', 'b', 'f', 'n', 'r', 't'], (Json.shortEscape? d).isSome := by
      simp [Json.shortEscape?]
    have := known c member
    rw [unknown] at this
    cases this
  rw [isShared_short letter, alone, beq_eq_false_iff_ne.2 own, Bool.or_self, Bool.false_and]
  exact .of_refused ⟨_, readUnits_unknown letter unknown⟩

theorem shortEscape?_eq_none {c : Char}
    (other : c ∉ ['"', '\\', '/', 'b', 'f', 'n', 'r', 't']) : Json.shortEscape? c = none := by
  simp only [List.mem_cons, List.not_mem_nil, or_false, not_or] at other
  unfold Json.shortEscape?
  split <;> simp_all

/-- A `u` behind a backslash is followed by four digits in documents. -/
theorem Reads.braced {more : List Char} (quoted : isQuote quote = true) :
    Reads opening ('\\' :: 'u' :: '\x7b' :: rest)
      (isShared quote ('\\' :: 'u' :: '\x7b' :: more)) units := by
  have noQuote : ('u' == quote) = false := by
    rcases isQuote_iff.1 quoted with rfl | rfl <;> rfl
  have unshared : isShared quote ('\\' :: 'u' :: '\x7b' :: more) = false := by
    rcases more with _ | ⟨b, _ | ⟨c, _ | ⟨d, more⟩⟩⟩
    · simp [isShared, noQuote]
    · simp [isShared, noQuote]
    · simp [isShared, noQuote]
    · rfl
  rw [unshared]
  refine .of_refused ?_
  rcases rest with _ | ⟨b, _ | ⟨c, _ | ⟨d, rest⟩⟩⟩ <;> exact ⟨_, rfl⟩

/-- Documents have the same letters for control characters, but for one. -/
theorem controlUnit?_cases {c : Char} {unit : Nat} (known : controlUnit? c = some unit) :
    c = 'v' ∨ c ∈ ['b', 'f', 'n', 'r', 't'] ∧
      ∃ meant, Json.shortEscape? c = some meant ∧ pointUnits meant.toNat = [unit] := by
  unfold controlUnit? at known
  split at known
  case h_4 => exact .inl rfl
  case h_7 => cases known
  all_goals
    cases known
    exact .inr ⟨by decide, _, rfl, rfl⟩

/-- An escape without quotes is kept as it is written. -/
theorem respelledEscape_of_plain {written : List Char}
    (plain : ∀ c ∈ written, c ≠ '"' ∧ c ≠ '\'') :
    respelledEscape quote written = '\\' :: written := by
  have same : written.flatMap (respelledCharacter quote) = written := by
    refine (List.flatMap_congr fun c member => ?_).trans (List.flatMap_singleton' written)
    exact if_neg fun both => (plain c member).1 both.2
  have notQuote : written ≠ ['\''] := by
    rintro rfl
    exact (plain _ List.mem_cons_self).2 rfl
  rw [respelledEscape, if_neg notQuote, same, ite_self]

/-- How a character that stands for itself after a backslash is read. -/
theorem Reads.itself {c : Char} (quoted : isQuote quote = true) (letter : controlUnit? c = none)
    (mark : c ≠ 'u') (some : rest ≠ []) (reads : Reads opening rest (isShared quote text) units) :
    Reads opening (respelledEscape quote [c] ++ rest) (isShared quote ('\\' :: c :: text))
      (pointUnits c.toNat ++ units) := by
  by_cases double : c = '"'
  · subst double
    rcases isQuote_iff.1 quoted with rfl | rfl
    · exact reads.known mark rfl rfl
    · -- The backslash is doubled, and the quote ends the string too early.
      intro row read
      have step : Json.readUnits opening (respelledEscape '\'' ['"'] ++ rest) =
          .ok (['\\'.toNat], rest) := rfl
      rw [step] at read
      cases read
      exact some rfl
  by_cases single : c = '\''
  · subst single
    rcases isQuote_iff.1 quoted with rfl | rfl
    · exact .unknown mark (by decide) rfl
    · -- Only the quote is left of the escape, which is no special character between double quotes.
      have own : '\'' ≠ '\\' := by decide
      exact reads.plain (fun _ => rfl) own
  have kept : respelledEscape quote [c] = ['\\', c] :=
    respelledEscape_of_plain (by simp [double, single])
  rw [kept]
  by_cases backslash : c = '\\'
  · subst backslash
    exact reads.known mark (by simp) rfl
  by_cases slash : c = '/'
  · subst slash
    exact reads.known mark (by simp) rfl
  refine .unknown mark ?_ (shortEscape?_eq_none ?_)
  · rcases isQuote_iff.1 quoted with rfl | rfl
    · exact double
    · exact single
  · intro member
    have known : ∀ d ∈ ['b', 'f', 'n', 'r', 't'], (controlUnit? d).isSome = true := by
      simp [controlUnit?]
    have listed : c ∈ ['b', 'f', 'n', 'r', 't'] := by simpa [double, backslash, slash] using member
    have := known c listed
    rw [letter] at this
    cases this

theorem plain_of_hexNumber? {digits : List Char} {number : Nat}
    (value : hexNumber? digits = some number) : ∀ c ∈ digits, c ≠ '"' ∧ c ≠ '\'' := by
  intro c member
  have text := isEscapeText_of_hexValue? (isSome_hexValue?_of_mem value member)
  constructor <;>
  · rintro rfl
    cases text

/-- A character of a class that has none of the characters with a meaning of their own in
documents. -/
theorem foreign_of_class {c : Char} (test : Char → Bool) (passes : test c = true)
    (apart : ∀ d ∈ ['\'', 'u', '"', '\\', '/', 'b', 'f', 'n', 'r', 't'], test d = false) :
    (c ≠ '"' ∧ c ≠ '\'') ∧ c ≠ 'u' ∧ Json.shortEscape? c = none := by
  have other : c ∉ ['\'', 'u', '"', '\\', '/', 'b', 'f', 'n', 'r', 't'] := by
    intro member
    rw [apart c member] at passes
    cases passes
  have short : Json.shortEscape? c = none := shortEscape?_eq_none fun member =>
    other (List.mem_cons_of_mem _ (List.mem_cons_of_mem _ member))
  simp only [List.mem_cons, not_or] at other
  exact ⟨⟨other.2.2.1, other.1⟩, other.2.1, short⟩

/-- How an escape is read. -/
theorem Reads.escape {written : List Char} {meant : List Nat} (quoted : isQuote quote = true)
    (means : Escape text written meant) (some : rest ≠ [])
    (reads : Reads opening rest (isShared quote text) units) :
    Reads opening (respelledEscape quote written ++ rest)
      (isShared quote ('\\' :: (written ++ text))) (meant ++ units) := by
  have notQuote {c : Char} (plain : c ≠ '"' ∧ c ≠ '\'') : c ≠ quote := by
    rcases isQuote_iff.1 quoted with rfl | rfl
    · exact plain.1
    · exact plain.2
  -- The first character of an escape that documents do not have decides.
  have foreign {c : Char} {row : List Char} (plain : ∀ d ∈ c :: row, d ≠ '"' ∧ d ≠ '\'')
      (letter : c ≠ 'u') (unknown : Json.shortEscape? c = none) (meant : List Nat) :
      Reads opening (respelledEscape quote (c :: row) ++ rest)
        (isShared quote ('\\' :: (c :: row ++ text))) meant := by
    rw [respelledEscape_of_plain plain]
    exact .unknown letter (notQuote (plain c List.mem_cons_self)) unknown
  cases means with
  | control known =>
    rcases controlUnit?_cases known with rfl | ⟨listed, meant, short, same⟩
    · exact foreign (by simp) (by decide) rfl _
    · have letters : ∀ c ∈ ['b', 'f', 'n', 'r', 't'], c ≠ '"' ∧ c ≠ '\'' ∧ c ≠ 'u' := by
        simp
      obtain ⟨notDouble, notSingle, notU⟩ := letters _ listed
      have shared : ['\\', '/', 'b', 'f', 'n', 'r', 't'].contains _ = true :=
        List.contains_iff_mem.2 (List.mem_cons_of_mem _ (List.mem_cons_of_mem _ listed))
      rw [respelledEscape_of_plain (by simp [notDouble, notSingle]), ← same]
      exact reads.known notU (by rw [shared, Bool.or_true]) short
  | itself control octal lineEnd marks => exact reads.itself quoted control marks.2 some
  | lineEnd ends =>
    obtain ⟨plain, letter, unknown⟩ := foreign_of_class isLineEnd ends (by simp [isLineEnd])
    exact foreign (by simpa using plain) letter unknown _
  | lineEnds => exact foreign (by simp) (by decide) rfl _
  | octal ne each =>
    have digit {c : Char} (octal : isOctalDigit c = true) :=
      foreign_of_class isOctalDigit octal (by simp [isOctalDigit])
    obtain ⟨first, row, rfl⟩ := List.exists_cons_of_ne_nil ne
    obtain ⟨-, letter, unknown⟩ := digit (each first List.mem_cons_self)
    exact foreign (fun c member => (digit (each c member)).1) letter unknown _
  | byte value =>
    exact foreign (List.forall_mem_cons.2 ⟨by decide, plain_of_hexNumber? value⟩) (by decide) rfl _
  | @unit a b c d number value =>
    rw [respelledEscape_of_plain (List.forall_mem_cons.2 ⟨by decide, plain_of_hexNumber? value⟩)]
    rw [← codeUnit?_eq] at value
    have single : pointUnits number = [number] := if_pos (codeUnit?_lt value)
    have shared : isShared quote ('\\' :: (['u', a, b, c, d] ++ text)) = isShared quote text := by
      simp [isShared, value]
    rw [shared, ← single]
    refine reads.cons ?_
    obtain ⟨next, others, rfl⟩ := List.exists_cons_of_ne_nil some
    simp [Json.readUnits, value]
  | point ne value valid =>
    rw [respelledEscape_of_plain]
    · exact .braced quoted
    · refine List.forall_mem_cons.2 ⟨by decide, List.forall_mem_cons.2 ⟨by decide, ?_⟩⟩
      exact List.forall_mem_append.2 ⟨plain_of_hexNumber? value, by simp⟩

end

/-- The body between double quotes is read as a string of a document exactly if it is shared, and
then into the code units that the literal denotes. -/
theorem reads_respelled {opening body : List Char} {quote : Char} {units : List Nat}
    (quoted : isQuote quote = true) (denotes : Denotes quote body units) :
    Reads opening (respelled quote body ++ ['"']) (isShared quote body) units := by
  induction denotes with
  | nil =>
    have empty : respelled quote [] = [] := by simp [respelled, unescapeSingle, escapeDouble]
    rw [empty]
    exact .nil
  | plain ordinary rest ih =>
    rw [respelled_plain ordinary.2.1, List.append_assoc]
    refine ih.plain (fun double => ?_) ordinary.2.1
    rcases isQuote_iff.1 quoted with own | single
    · exact absurd (double.trans own.symm) ordinary.1
    · exact single
  | escape means rest ih =>
    rw [respelled_escape means rest, List.append_assoc]
    exact ih.escape quoted means (by simp)

/-! ### Joining code units -/

theorem joinUnits_cons {unit : Nat} (alone : ¬(0xD800 ≤ unit ∧ unit < 0xDC00)) (row : List Nat) :
    Json.joinUnits (unit :: row) = Char.ofNat unit :: Json.joinUnits row := by
  cases row with
  | nil => rfl
  | cons next row =>
    have single : (0xD800 ≤ unit && unit < 0xDC00 && 0xDC00 ≤ next && next < 0xE000) = false := by
      simp only [Bool.and_eq_false_iff, decide_eq_false_iff_not]
      omega
    rw [Json.joinUnits, single]
    rfl

/-- Two halves make one character. -/
theorem joinUnits_halves {high low : Nat} (first : 0xD800 ≤ high ∧ high < 0xDC00)
    (second : 0xDC00 ≤ low ∧ low < 0xE000) (row : List Nat) :
    Json.joinUnits (high :: low :: row) =
      Char.ofNat (0x10000 + (high - 0xD800) * 0x400 + (low - 0xDC00)) :: Json.joinUnits row := by
  have both : (0xD800 ≤ high && high < 0xDC00 && 0xDC00 ≤ low && low < 0xE000) = true := by
    simp [first, second]
  rw [Json.joinUnits, if_pos both]

theorem toNat_lt (c : Char) : c.toNat < 0x110000 := by
  have valid : c.toNat.isValidChar := c.valid
  unfold Nat.isValidChar at valid
  omega

/-- No character is half of one. -/
theorem toNat_not_half (c : Char) : c.toNat < 0xD800 ∨ 0xE000 ≤ c.toNat := by
  have valid : c.toNat.isValidChar := c.valid
  unfold Nat.isValidChar at valid
  omega

theorem pointUnits_ne_nil (point : Nat) : pointUnits point ≠ [] :=
  List.ne_nil_of_length_pos (length_pointUnits_pos point)

/-- Numbers that stand for the code units of a text are joined into it. They may be code points or
code units, in any mixture. -/
theorem joinUnits_of_units {row : List Nat} {value : List Char} (small : ∀ n ∈ row, n < 0x110000)
    (same : row.flatMap pointUnits = unitsOf value) : Json.joinUnits row = value := by
  induction value generalizing row with
  | nil =>
    cases row with
    | nil => rfl
    | cons point row =>
      rw [List.flatMap_cons, unitsOf_nil, List.append_eq_nil_iff] at same
      exact absurd same.1 (pointUnits_ne_nil point)
  | cons c value ih =>
    have valid := toNat_not_half c
    have bound := toNat_lt c
    cases row with
    | nil =>
      rw [unitsOf_cons, List.flatMap_nil, eq_comm, List.append_eq_nil_iff] at same
      exact absurd same.1 (pointUnits_ne_nil c.toNat)
    | cons point row =>
      obtain ⟨pointSmall, rowSmall⟩ := List.forall_mem_cons.1 small
      rw [List.flatMap_cons, unitsOf_cons] at same
      by_cases plane : point < 0x10000 <;> by_cases first : c.toNat < 0x10000 <;>
        simp only [pointUnits, plane, first, if_true, if_false, List.cons_append, List.nil_append,
          List.cons.injEq] at same
      · -- One code unit for a character of one code unit.
        obtain ⟨rfl, others⟩ := same
        rw [joinUnits_cons (by omega), Char.ofNat_toNat, ih rowSmall others]
      · -- The first half of a character; the second half is the next number.
        obtain ⟨high, others⟩ := same
        cases row with
        | nil => cases others
        | cons half row =>
          obtain ⟨halfSmall, rowSmall⟩ := List.forall_mem_cons.1 rowSmall
          rw [List.flatMap_cons] at others
          by_cases unit : half < 0x10000 <;>
            simp only [pointUnits, unit, if_true, if_false, List.cons_append, List.nil_append,
              List.cons.injEq] at others
          · obtain ⟨low, others⟩ := others
            have whole : 0x10000 + (point - 0xD800) * 0x400 + (half - 0xDC00) = c.toNat := by omega
            rw [joinUnits_halves (by omega) (by omega), whole, Char.ofNat_toNat, ih rowSmall others]
          · omega
      · omega
      · -- A code point for its character.
        obtain ⟨high, low, others⟩ := same
        obtain rfl : point = c.toNat := by omega
        rw [joinUnits_cons (by omega), Char.ofNat_toNat, ih rowSmall others]

/-- Texts with the same code units are the same. -/
theorem unitsOf_injective : Function.Injective unitsOf := by
  intro a b same
  have joined (text : List Char) : Json.joinUnits (text.map Char.toNat) = text := by
    refine joinUnits_of_units ?_ (List.flatMap_map ..)
    exact List.forall_mem_map.2 fun c _ => toNat_lt c
  rw [← joined a]
  refine joinUnits_of_units ?_ ((List.flatMap_map ..).trans same)
  exact List.forall_mem_map.2 fun c _ => toNat_lt c

/-! ### Bodies that are their own value -/

theorem length_unitsOf_respelledCharacter (quote c : Char) :
    (pointUnits c.toNat).length ≤ (unitsOf (respelledCharacter quote c)).length := by
  unfold respelledCharacter
  split
  case isTrue escaped =>
    obtain ⟨-, rfl⟩ := escaped
    decide
  case isFalse => simp

/-- Escaping double quotes does not make a text shorter. -/
theorem length_unitsOf_flatMap (quote : Char) (text : List Char) :
    (unitsOf text).length ≤ (unitsOf (text.flatMap (respelledCharacter quote))).length := by
  induction text with
  | nil => exact Nat.le_refl 0
  | cons c text ih =>
    have first := length_unitsOf_respelledCharacter quote c
    rw [unitsOf_cons, List.flatMap_cons, unitsOf_append, List.length_append, List.length_append]
    omega

/-- An escape is longer than what it stands for as long as its backslash is kept. -/
theorem Escape.length_meant_lt {quote : Char} {behind written : List Char} {meant : List Nat}
    (means : Escape behind written meant) (other : ¬(quote = '\'' ∧ written = ['\''])) :
    meant.length < (unitsOf (respelledEscape quote written)).length := by
  have decoded := means.length_meant_le
  have backslash : (pointUnits '\\'.toNat).length = 1 := rfl
  unfold respelledEscape
  by_cases single : quote = '\''
  · have own : written ≠ ['\''] := fun own => other ⟨single, own⟩
    have kept := length_unitsOf_flatMap quote written
    rw [if_pos single, if_neg own, unitsOf_cons, List.length_append, backslash]
    omega
  · rw [if_neg single, unitsOf_cons, List.length_append, backslash]
    omega

theorem isVerbatim_escape {quote : Char} {text written : List Char} {meant : List Nat}
    (means : Escape text written meant) :
    isVerbatim quote ('\\' :: (written ++ text)) =
      (decide (quote = '\'' ∧ written = ['\'']) && isVerbatim quote text) := by
  obtain ⟨c, row, rfl⟩ := List.exists_cons_of_ne_nil means.written_ne_nil
  by_cases own : c = '\''
  · subst own
    rcases means.written_cases with ⟨_, single⟩ | plain
    · cases single
      by_cases same : quote = '\'' <;> simp [isVerbatim, same]
    · exact absurd (plain _ List.mem_cons_self) (by decide)
  · simp [isVerbatim, own]

/-- A body without anything to decode has the code units that it denotes, and any other body has
more of them. -/
theorem units_respelled {quote : Char} {body : List Char} {units : List Nat}
    (denotes : Denotes quote body units) :
    if isVerbatim quote body then unitsOf (respelled quote body) = units
    else units.length < (unitsOf (respelled quote body)).length := by
  -- A piece that is kept as it is leaves the matter to the rest.
  have kept {piece text : List Char} {front back : List Nat} (same : unitsOf piece = front)
      (ih : if isVerbatim quote text then unitsOf (respelled quote text) = back
        else back.length < (unitsOf (respelled quote text)).length) :
      if isVerbatim quote text then unitsOf (piece ++ respelled quote text) = front ++ back
      else (front ++ back).length < (unitsOf (piece ++ respelled quote text)).length := by
    rw [unitsOf_append, same]
    split
    case isTrue verbatim =>
      rw [if_pos verbatim] at ih
      rw [ih]
    case isFalse longer =>
      rw [if_neg longer] at ih
      rw [List.length_append, List.length_append]
      omega
  -- A piece that is longer than what it stands for cannot be made up for.
  have longer {piece text : List Char} {front back : List Nat}
      (more : front.length < (unitsOf piece).length)
      (ih : if isVerbatim quote text then unitsOf (respelled quote text) = back
        else back.length < (unitsOf (respelled quote text)).length) :
      (front ++ back).length < (unitsOf (piece ++ respelled quote text)).length := by
    have rest : back.length ≤ (unitsOf (respelled quote text)).length := by
      split at ih
      · exact (congrArg List.length ih).ge
      · exact Nat.le_of_lt ih
    rw [unitsOf_append, List.length_append, List.length_append]
    omega
  induction denotes with
  | nil => simp [isVerbatim, respelled, unescapeSingle, escapeDouble]
  | @plain c text units ordinary rest ih =>
    rw [isVerbatim_plain ordinary.2.1, respelled_plain ordinary.2.1]
    by_cases escaped : quote = '\'' ∧ c = '"'
    · have marked : (quote == '\'' && c == '"') = true := by simpa using escaped
      rw [marked, Bool.not_true, Bool.false_and, if_neg Bool.false_ne_true, respelledCharacter,
        if_pos escaped]
      exact longer (by rw [escaped.2]; decide) ih
    · have unmarked : (quote == '\'' && c == '"') = false := by
        simpa [← Bool.not_eq_true] using escaped
      rw [unmarked, Bool.not_false, Bool.true_and, respelledCharacter, if_neg escaped]
      exact kept (by simp) ih
  | @escape written text meant units means rest ih =>
    rw [isVerbatim_escape means, respelled_escape means rest]
    by_cases own : quote = '\'' ∧ written = ['\'']
    · obtain ⟨rfl, rfl⟩ := own
      rw [decide_eq_true ⟨rfl, rfl⟩, Bool.true_and]
      refine kept ?_ ih
      cases means with
      | control known => cases known
      | itself => rfl
      | lineEnd ends => cases ends
      | octal _ each => exact absurd (each _ List.mem_cons_self) (by decide)
    · rw [decide_eq_false own, Bool.false_and, if_neg Bool.false_ne_true]
      exact longer (means.length_meant_lt own) ih

/-- The body as it is written between double quotes is the value of the literal exactly if there is
nothing to decode in it. -/
theorem respelled_eq_iff {quote : Char} {body value : List Char}
    (denotes : Denotes quote body (unitsOf value)) :
    respelled quote body = value ↔ isVerbatim quote body = true := by
  have units := units_respelled denotes
  constructor
  · intro same
    by_contra decoded
    rw [if_neg decoded, same] at units
    exact Nat.lt_irrefl _ units
  · intro verbatim
    rw [if_pos verbatim] at units
    exact unitsOf_injective units

/-! ### The value of a literal -/

/-- What reading a string yields: the numbers that are read are no larger than code points are, and
the text that is left ends as the whole text does. -/
theorem readUnits_ok {opening text rest : List Char} {row : List Nat}
    (read : Json.readUnits opening text = .ok (row, rest)) :
    (∀ n ∈ row, n < 0x110000) ∧ rest <:+ text := by
  have step {unit : Nat} {text longer : List Char} (small : unit < 0x110000)
      (behind : text <:+ longer)
      (ih : ∀ {row}, Json.readUnits opening text = .ok (row, rest) →
        (∀ n ∈ row, n < 0x110000) ∧ rest <:+ text)
      {row : List Nat} (read : Json.consUnit unit (Json.readUnits opening text) = .ok (row, rest)) :
      (∀ n ∈ row, n < 0x110000) ∧ rest <:+ longer := by
    obtain ⟨others, before, rfl⟩ := consUnit_eq_ok_iff.1 read
    obtain ⟨each, left⟩ := ih before
    exact ⟨List.forall_mem_cons.2 ⟨small, each⟩, left.trans behind⟩
  fun_induction Json.readUnits opening text generalizing row
  case case1 | case3 | case4 | case6 | case7 | case9 | case10 => cases read
  case case2 =>
    cases read
    exact ⟨List.forall_mem_nil _, List.suffix_cons _ _⟩
  case case5 a b c d text unit value _ ih =>
    have small := codeUnit?_lt value
    exact step (by omega) (List.suffix_append ['\\', 'u', a, b, c, d] text) ih read
  case case8 c text _ _ meant _ ih =>
    exact step (toNat_lt meant) (List.suffix_append ['\\', c] text) ih read
  case case11 c text _ _ _ _ _ _ ih => exact step (toNat_lt c) (List.suffix_cons c text) ih read

/-- Texts in double quotes that are a string of a document are read up to their last character. -/
theorem readAll_eq_string_iff {text : List Char} {value : String} :
    Json.readAll ('"' :: (text ++ ['"'])) = .ok (.string value) ↔
      ∃ row, Json.readUnits ('"' :: (text ++ ['"'])) (text ++ ['"']) = .ok (row, []) ∧
        String.ofList (Json.joinUnits row) = value := by
  have first : Json.skipSpace ('"' :: (text ++ ['"'])) = '"' :: (text ++ ['"']) := rfl
  cases reading : Json.readUnits ('"' :: (text ++ ['"'])) (text ++ ['"']) with
  | error refusal =>
    simp [Json.readAll, first, Json.readValue, Json.readString, reading, Except.map, bind,
      Except.bind]
  | ok read =>
    obtain ⟨row, rest⟩ := read
    -- What is left ends in a quote, which is no space.
    have left : Json.skipSpace rest = [] ↔ rest = [] := by
      constructor
      · intro spaces
        by_contra some
        have last : '"' ∈ rest := by
          obtain ⟨front, whole⟩ := (readUnits_ok reading).2
          have same := congrArg List.getLast? whole
          rw [List.getLast?_append_of_ne_nil _ some, List.getLast?_concat] at same
          exact List.mem_of_getLast? same
        have space : ∀ c ∈ rest, Json.isSpace c = true := List.dropWhile_eq_nil_iff.1 spaces
        cases space _ last
      · rintro rfl
        rfl
    cases rest with
    | nil =>
      have nothing : Json.skipSpace [] = [] := rfl
      simp [Json.readAll, first, Json.readValue, Json.readString, reading, Except.map, bind,
        Except.bind, nothing]
    | cons c rest =>
      have more : Json.skipSpace (c :: rest) ≠ [] := fun none => List.cons_ne_nil _ _ (left.1 none)
      obtain ⟨next, others, same⟩ := List.exists_cons_of_ne_nil more
      simp [Json.readAll, first, Json.readValue, Json.readString, reading, Except.map, bind,
        Except.bind, same]

/-- A string literal is given the value that it denotes exactly if it keeps to the escapes that
documents have, or has nothing to decode. -/
theorem stringValue_eq_iff {quote : Char} {body value : List Char} (quoted : isQuote quote = true)
    (denotes : Denotes quote body (unitsOf value)) :
    stringValue (quote :: (body ++ [quote])) = value ↔
      isShared quote body = true ∨ isVerbatim quote body = true := by
  have reads : Reads ('"' :: (respelled quote body ++ ['"'])) _ _ _ :=
    reads_respelled quoted denotes
  rw [stringValue, doubleQuotedBody_quoted]
  by_cases shared : isShared quote body = true
  · rw [Reads, if_pos shared] at reads
    obtain ⟨row, read, units⟩ := reads
    have joined := joinUnits_of_units (readUnits_ok read).1 units
    have found := readAll_eq_string_iff.2 ⟨row, read, rfl⟩
    simp [found, joined, shared]
  · rw [Reads, if_neg shared] at reads
    have none (text : String) :
        Json.readAll ('"' :: (respelled quote body ++ ['"'])) ≠ .ok (.string text) := by
      intro found
      obtain ⟨row, read, -⟩ := readAll_eq_string_iff.1 found
      exact reads row read
    rw [← respelled_eq_iff denotes, or_iff_right shared]
    split
    · exact absurd ‹_› (none _)
    · exact Iff.rfl

/-! ### Entries of a style object -/

/-- A literal in which each entry stands for a pair is read into one pair for each entry. -/
theorem evaluateEntries_ok {entries : List Entry}
    (known : ∀ entry ∈ entries, ∃ pair, evaluateEntry entry = .ok pair) :
    ∃ pairs, evaluateEntries entries = .ok pairs ∧ entries.map evaluateEntry = pairs.map .ok := by
  induction entries with
  | nil => exact ⟨[], rfl, rfl⟩
  | cons entry entries ih =>
    obtain ⟨first, others⟩ := List.forall_mem_cons.1 known
    obtain ⟨pair, here⟩ := first
    obtain ⟨pairs, found, same⟩ := ih others
    refine ⟨pair :: pairs, ?_, ?_⟩
    · rw [evaluateEntries, here, found]
      rfl
    · rw [List.map_cons, List.map_cons, here, same]

theorem evaluateLiteral_of_object {code : List Char} {focus : Focus}
    (object : objectLiteral? (Snippet.ofExpression (Text.trim code)) = some focus) :
    evaluateLiteral code = evaluateEntries (entriesOf focus.tree) := by
  have sound : (Snippet.ofExpression (Text.trim code)).isFaulty = false := by
    cases snippet : Snippet.ofExpression (Text.trim code) with
    | expression => rfl
    | statements => rfl
    | faulty =>
      rw [snippet] at object
      cases object
  simp [evaluateLiteral, sound, object]

/-- An entry of a style object whose value is a string literal is given the value that the literal
denotes exactly if the literal keeps to the escapes that documents have, or has nothing to
decode. -/
theorem evaluateLiteral_strings_iff {code : List Char} {focus : Focus} {index : Nat} {key : Tree}
    {quote : Char} {body value : List Char}
    (object : objectLiteral? (Snippet.ofExpression (Text.trim code)) = some focus)
    (known : ∀ entry ∈ entriesOf focus.tree, ∃ pair, evaluateEntry entry = .ok pair)
    (here : (entriesOf focus.tree)[index]? =
      some (.pair key (.token .string (quote :: (body ++ [quote])))))
    (quoted : isQuote quote = true) (denotes : Denotes quote body (unitsOf value)) :
    ∃ pairs name decoded, evaluateLiteral code = .ok pairs ∧ pairs[index]? = some (name, decoded) ∧
      keyName? key = some name ∧
      (decoded = value ↔ isShared quote body = true ∨ isVerbatim quote body = true) := by
  obtain ⟨pairs, read, each⟩ := evaluateEntries_ok known
  have pair : (entriesOf focus.tree)[index]?.map evaluateEntry = pairs[index]?.map .ok := by
    rw [← List.getElem?_map, ← List.getElem?_map, each]
  rw [here, Option.map_some] at pair
  cases found : pairs[index]? with
  | none =>
    rw [found] at pair
    cases pair
  | some entry =>
    obtain ⟨name, decoded⟩ := entry
    rw [found, Option.map_some, Option.some.injEq] at pair
    cases named : keyName? key with
    | none => simp [evaluateEntry, named] at pair
    | some other =>
      simp only [evaluateEntry, named, literalText?, Except.ok.injEq, Prod.mk.injEq] at pair
      obtain ⟨rfl, rfl⟩ := pair
      refine ⟨pairs, other, _, ?_, found, rfl, stringValue_eq_iff quoted denotes⟩
      rw [evaluateLiteral_of_object object, read]

/-- An escaped quote between quotes of its kind is decoded. -/
theorem evaluateLiteral_escaped_quote :
    ∃ pairs name decoded,
      evaluateLiteral "\x7ba:'\\''\x7d".toList = .ok pairs ∧ pairs[0]? = some (name, decoded) ∧
      keyName? (.token .propertyName ['a']) = some name ∧
      (decoded = ['\''] ↔
        isShared '\'' ['\\', '\''] = true ∨ isVerbatim '\'' ['\\', '\''] = true) := by
  have entries : (objectLiteral? (Snippet.ofExpression (Text.trim "\x7ba:'\\''\x7d".toList))).map
      (fun focus => entriesOf focus.tree) =
        some [.pair (.token .propertyName ['a']) (.token .string "'\\''".toList)] := Eq.refl _
  obtain ⟨focus, object, only⟩ := Option.map_eq_some_iff.1 entries
  have denotes : Denotes '\'' ['\\', '\''] (unitsOf ['\'']) :=
    .escape (.itself rfl rfl rfl (by decide)) .nil
  refine evaluateLiteral_strings_iff object ?_ (by rw [only]; rfl) rfl denotes
  intro entry member
  rw [only, List.mem_singleton] at member
  exact ⟨(['a'], ['\'']), by rw [member]; rfl⟩

/-- An escape that documents do not have is left in the value. -/
theorem misread_arrow :
    Denotes '\'' "\\u\x7b2192\x7d".toList (unitsOf ['→']) ∧
      evaluateLiteral "\x7b content: '\\u\x7b2192\x7d' \x7d".toList =
        .ok [("content".toList, "\\u\x7b2192\x7d".toList)] ∧
      "\\u\x7b2192\x7d".toList ≠ ['→'] := by
  have arrow :
      Escape [] ('u' :: '\x7b' :: (['2', '1', '9', '2'] ++ ['\x7d'])) (pointUnits 0x2192) :=
    .point (by decide) rfl (by decide)
  exact ⟨.escape arrow .nil, by decide +kernel, by decide⟩

end ComponentCompiler.Script
