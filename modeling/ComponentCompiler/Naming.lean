import ComponentCompiler.Text.Digit
import ComponentCompiler.Text.LowerCase
import ComponentCompiler.Text.Line

/-!
# Names in other cases

A name written in one case is taken apart into words and put together in another case. A word is a
run of capitals, a run of small letters with at most one capital before it, or a run of digits; of a
run of capitals before a small letter the last one belongs to the word behind it. Letters are those
of ASCII, digits those of every script, and every other character separates words.

## Main definitions

* `Naming.words` — the words of a name
* `Naming.kebabCase`, `Naming.camelCase` — the words joined by hyphens or by capitals
* `Naming.hyphenate` — the style property that a key stands for
* `Naming.isEvent` — whether an attribute listens to an event

## Main results

* `Naming.flatten_words` — the words of a name are its letters and digits
-/

namespace ComponentCompiler.Naming

/-- A capital letter of ASCII. -/
def isCapital (c : Char) : Bool :=
  0x41 ≤ c.toNat && c.toNat ≤ 0x5A

/-- A small letter of ASCII. -/
def isSmall (c : Char) : Bool :=
  0x61 ≤ c.toNat && c.toNat ≤ 0x7A

/-- A character that words are made of. -/
def isWordPart (c : Char) : Bool :=
  isCapital c || isSmall c || Text.isDecimalDigit c

/-- Whether a text starts with a small letter. -/
def startsSmall : List Char → Bool
  | [] => false
  | c :: _ => isSmall c

/-- Whether a character belongs to the word that the rest of the name starts with. A capital belongs
to the small letters behind it, and to a capital that does not itself belong to small letters. -/
def joins (c : Char) : List Char → Bool
  | [] => false
  | next :: rest =>
    if isCapital c then isSmall next || (isCapital next && !startsSmall rest)
    else if isSmall c then isSmall next
    else Text.isDecimalDigit next

/-- The words of a name. -/
def words : List Char → List (List Char)
  | [] => []
  | c :: rest =>
    if isWordPart c then
      if joins c rest then Text.consToFirst c (words rest) else [c] :: words rest
    else words rest

/-- The words of a name are its letters and digits in order. -/
theorem flatten_words (name : List Char) : (words name).flatten = name.filter isWordPart := by
  induction name with
  | nil => rfl
  | cons c rest ih =>
    by_cases part : isWordPart c
    · by_cases joined : joins c rest
      · simp [words, part, joined, Text.flatten_consToFirst, ih]
      · simp [words, part, joined, ih]
    · simp [words, part, ih]

/-- A word with its letters made small. -/
def lowerWord (word : List Char) : List Char :=
  word.map Char.toLower

/-- A word of small letters with its first letter made a capital. -/
def capitalized : List Char → List Char
  | [] => []
  | c :: rest => c.toUpper :: rest

/-- The words of a name in small letters, with hyphens between them. -/
def kebabCase (name : String) : String :=
  String.ofList (Text.joinWith '-' ((words name.toList).map lowerWord))

/-- The words of a name in small letters, each but the first one with a capital. A name without
words stays as it is. -/
def camelCase (name : String) : String :=
  match (words name.toList).map lowerWord with
  | [] => name
  | first :: others => String.ofList (first ++ others.flatMap capitalized)

/-- A hyphen before a capital. -/
def hyphenBefore (c : Char) : List Char :=
  if isCapital c then ['-', c] else [c]

/-- The style property that a key stands for: each capital is written as a hyphen and a small
letter. -/
def hyphenate (key : String) : String :=
  String.ofList (Text.lowerCase (key.toList.flatMap hyphenBefore))

/-- Whether a key is `on` with a capital behind it. -/
def isEventKey : List Char → Bool
  | 'o' :: 'n' :: c :: _ => isCapital c
  | _ => false

/-- Whether the attribute with the given key listens to an event. -/
def isEvent (key : String) : Bool :=
  isEventKey key.toList

end ComponentCompiler.Naming
